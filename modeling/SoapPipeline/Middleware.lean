/-
  SoapPipeline.Middleware

  Layers around a service: admission, deadlines and metrics.

  A message passes the layers from the outermost to the service, and its
  answer passes them backwards.  Admission refuses a message when no permit is
  free.  A deadline replaces an answer that comes too late.  Metrics count the
  answers that reach them.
-/

import SoapPipeline.Config
import SoapPipeline.Pending

namespace SoapPipeline

/-! ## Permits -/

/-- Permits to be in a service at the same time. -/
structure Permits where
  limit : Nat
  taken : Nat
  deriving DecidableEq, Repr, Inhabited

namespace Permits

/-- All permits free. -/
def ofLimit (limit : Nat) : Permits := ⟨limit, 0⟩

/-- Takes a permit, if one is free. -/
def take? (p : Permits) : Option Permits :=
  if p.taken < p.limit then some { p with taken := p.taken + 1 } else none

/-- Gives a permit back. -/
def giveBack (p : Permits) : Permits := { p with taken := p.taken - 1 }

end Permits

/-! ## Deadlines -/

/-- The milliseconds that a message may take: what its property says, if that is a
natural number, or else the default. -/
def timeoutOf (default : Nat) (ctx : Context) : Nat :=
  match ctx.property? deadlineProperty with
  | some (.int ms) => if 0 ≤ ms then ms.toNat else default
  | _ => default

/-- How long something took: whole milliseconds, and whether a little more. -/
structure Span where
  millis : Nat
  more : Bool
  deriving DecidableEq, Repr, Inhabited

/-- Whether it took longer than so many milliseconds. -/
def Span.exceeds (s : Span) (timeout : Nat) : Bool :=
  timeout < s.millis || (s.millis = timeout && s.more)

/-! ## Metrics -/

/-- How a metric changes. -/
inductive MetricChange where
  /-- A counter grows. -/
  | add (n : Nat)
  /-- A histogram records a value. -/
  | record
  deriving DecidableEq, Repr, Inhabited

/-- A change of a metric. -/
structure Metric where
  name : String
  labels : List (String × String)
  change : MetricChange
  deriving DecidableEq, Repr, Inhabited

/-- The label for the end of a dispatch. -/
def outcomeLabel : Except DispatchError Report → String
  | .ok r =>
    match r.outcome with
    | .completed => "completed"
    | .shortCircuited _ => "short_circuited"
    | .faultAbsorbed _ => "fault_absorbed"
  | .error (.fault _) => "fault"
  | .error .overloaded => "overloaded"
  | .error (.deadlineExceeded _) => "deadline_exceeded"
  | .error .breakdown => "internal"

/-- What is recorded for an answered message. -/
def metricsOf (request : Context) (answer : Except DispatchError Report) : List Metric :=
  let service := request.service.localPart
  [⟨"soapflow.dispatch.total",
      [("service", service), ("flow", request.flow.text), ("outcome", outcomeLabel answer)],
      .add 1⟩,
    ⟨"soapflow.dispatch.duration_seconds", [("service", service)], .record⟩]

/-! ## Layers -/

/-- One layer. -/
inductive Layer where
  /-- Admits messages while a permit is free. -/
  | admission (permits : Permits)
  /-- Gives up after so many milliseconds when the message does not say. -/
  | deadline (default : Nat)
  /-- Counts answers. -/
  | metrics
  deriving DecidableEq, Repr, Inhabited

/-- An answer, and how long it took. -/
structure Answer where
  result : Except DispatchError Report
  took : Span

/-- An answer behind layers, with what they recorded. -/
structure Passage where
  answer : Answer
  records : List Metric
  /-- Which admission layers gave a permit, outermost first, one entry for each layer;
  the permits are given back with the answer. -/
  admitted : List Bool

namespace Layer

/-- The answer to a message that was not admitted. -/
def shed : Answer := ⟨.error .overloaded, ⟨0, false⟩⟩

/-- Sends a message through layers to a service. -/
def pass {m : Type → Type} [Monad m] (request : Context) (service : Context → m Answer) :
    List Layer → m Passage
  | [] => do
    let answer ← service request
    return ⟨answer, [], []⟩
  | .admission permits :: rest =>
    match permits.take? with
    | none => return ⟨shed, [], [false]⟩
    | some _ => do
      let p ← pass request service rest
      return { p with admitted := true :: p.admitted }
  | .deadline default :: rest => do
    let timeout := timeoutOf default request
    let p ← pass request service rest
    let p := { p with admitted := false :: p.admitted }
    if p.answer.took.exceeds timeout then
      let late : Answer := ⟨.error (.deadlineExceeded timeout), ⟨timeout, false⟩⟩
      return { p with answer := late, records := [] }
    else return p
  | .metrics :: rest => do
    let p ← pass request service rest
    return { p with
      admitted := false :: p.admitted
      records := p.records ++ metricsOf request p.answer.result }

/-- The layers around an engine, with the permits as they are. -/
def around (config : Config) (permits : Permits) : List Layer :=
  [.admission permits, .deadline config.defaultTimeout, .metrics]

/-- The layers around an engine that is not in use. -/
def standard (config : Config) : List Layer :=
  around config (Permits.ofLimit config.maxConcurrent)

/-- Takes the permits that a message was given. -/
def takePermits : List Layer → List Bool → List Layer
  | .admission permits :: rest, true :: admitted =>
    .admission (permits.take?.getD permits) :: takePermits rest admitted
  | layer :: rest, _ :: admitted => layer :: takePermits rest admitted
  | layers, _ => layers

/-- Gives back the permits that a message was given. -/
def givePermitsBack : List Layer → List Bool → List Layer
  | .admission permits :: rest, true :: admitted =>
    .admission permits.giveBack :: givePermitsBack rest admitted
  | layer :: rest, _ :: admitted => layer :: givePermitsBack rest admitted
  | layers, _ => layers

end Layer

end SoapPipeline
