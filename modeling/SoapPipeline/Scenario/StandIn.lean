/-
  SoapPipeline.Scenario.StandIn

  Layers around a service that stands in for an engine: it takes the time that
  it is told to take, and answers as the operation of the message asks.

  Requests come one after the other.  One that has been admitted keeps its
  permits until its answer; those that come at the same moment all come before
  any of them is answered.
-/

import SoapPipeline.Scenario.Script
import SoapPipeline.Middleware

namespace SoapPipeline.Scenario.StandIn

/-- A request: when it comes, how many milliseconds the service takes, and the
message. -/
structure Request where
  time : Nat
  delay : Nat
  message : Draft

/-- What the service answers to a message. -/
def resultFor (ctx : Context) : Except DispatchError Report :=
  let report (outcome : Outcome) : Except DispatchError Report := .ok ⟨ctx, outcome, none⟩
  match ctx.operation.localPart with
  | "short" => report (.shortCircuited (QName.unqualified "H"))
  | "absorbed" => report (.faultAbsorbed (Fault.server "absorbed"))
  | "fault" => .error (.fault (Fault.client "refused"))
  | "overloaded" => .error .overloaded
  | "deadline" => .error (.deadlineExceeded 7)
  | "internal" => .error .breakdown
  | _ => report .completed

/-- A request that has been admitted and not been answered. -/
structure InFlight where
  finish : Nat
  admitted : List Bool

/-- The layers as they are, and the requests on their way. -/
structure State where
  layers : List Layer
  inFlight : List InFlight

/-- Gives back the permits of the requests answered before a moment. -/
def State.settle (s : State) (time : Nat) : State :=
  let (answered, others) := s.inFlight.partition fun f => f.finish < time
  ⟨answered.foldl (fun layers f => Layer.givePermitsBack layers f.admitted) s.layers, others⟩

/-- An answered request. -/
structure Answered where
  finish : Nat
  result : Except DispatchError Report
  records : List Metric

/-- Sends a request through the layers. -/
def State.arrive (s : State) (r : Request) (id : MessageId) : Answered × State :=
  let s := s.settle r.time
  let ctx := r.message.message id
  let service (ctx : Context) : Id Answer := ⟨resultFor ctx, ⟨r.delay, false⟩⟩
  let passage := (Layer.pass (m := Id) ctx service s.layers).run
  let finish := r.time + passage.answer.took.millis
  (⟨finish, passage.answer.result, passage.records⟩,
    ⟨Layer.takePermits s.layers passage.admitted, ⟨finish, passage.admitted⟩ :: s.inFlight⟩)

/-- Sends requests through layers, in the order in which they come. -/
def runFrom : Nat → State → List Request → List Answered
  | _, _, [] => []
  | id, s, r :: rest =>
    let (answered, s) := s.arrive r ⟨id⟩
    answered :: runFrom (id + 1) s rest

/-- Sends requests through layers. -/
def runAll (layers : List Layer) (requests : List Request) : List Answered :=
  runFrom 1 ⟨layers, []⟩ requests

/-- What has been recorded, in the order of time. -/
def recordsOf (answers : List Answered) : List Metric :=
  (answers.mergeSort fun a b => a.finish ≤ b.finish).flatMap Answered.records

end SoapPipeline.Scenario.StandIn
