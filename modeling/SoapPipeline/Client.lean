/-
  SoapPipeline.Client

  The client's side of a call: the request that it sends, what of a message
  crosses to another engine in the same process, and the message that brings
  the response back.

  What a client does for a call is an errand.  It asks the client's engine to
  dispatch messages and the transport to carry requests, and it waits for each
  answer before it goes on.
-/

import SoapPipeline.Pending

namespace SoapPipeline

/-! ## Requests -/

/-- What the requests of a call have in common. -/
structure CallSettings where
  service : QName
  /-- Header blocks, and whether the receiver must understand them. -/
  headers : List (QName × Bool)
  /-- Milliseconds that the receiver may take. -/
  deadline : Option Nat
  deriving DecidableEq, Repr, Inhabited

/-- A length of time: whole seconds, and the nanoseconds beyond them. -/
structure Duration where
  seconds : UInt64
  nanos : Fin 1000000000
  deriving DecidableEq, Repr, Inhabited

/-- The whole milliseconds of a duration. -/
def Duration.wholeMillis (d : Duration) : Nat :=
  d.seconds.toNat * 1000 + d.nanos.val / nanosPerMilli

/-- The call with a deadline for each of its requests. -/
def CallSettings.withDeadline (c : CallSettings) (d : Duration) : CallSettings :=
  { c with deadline := some d.wholeMillis }

/-- A deadline as the value of a property; one beyond all integers is the greatest of
them. -/
def deadlineValue (millis : Nat) : Value :=
  .int (min (millis : Int) Value.maxInt)

/-- The request for an operation. -/
def CallSettings.request (c : CallSettings) (engineId : String) (id : MessageId)
    (operation : QName) (payload : Payload) : Context :=
  let ctx := { Context.fresh id c.service operation .outbound payload with engineId }
  let ctx := c.headers.foldl (fun ctx (name, must) => ctx.addHeader name must) ctx
  match c.deadline with
  | some millis => ctx.setProperty deadlineProperty (deadlineValue millis)
  | none => ctx

/-! ## Crossing -/

/-- The message that another engine in the same process receives for a request: what
would cross a wire, and nothing else. -/
def Context.crossing (request : Context) : Context :=
  let ctx := Context.fresh request.messageId request.service request.operation .inbound
    request.payload
  let ctx := request.headers.foldl (fun ctx h => ctx.addHeader h.name h.mustUnderstand) ctx
  match request.property? deadlineProperty with
  | some deadline => ctx.setProperty deadlineProperty deadline
  | none => ctx

/-- The body that crosses back: that of the response, if there is one. -/
def Report.answer (r : Report) : Option Payload :=
  r.response.map Context.payload

/-! ## Responses -/

/-- The message on which the client's inbound chain runs. -/
def Context.received (request : Context) (id : MessageId) (body : Payload) : Context :=
  { request.respond id body with flow := .inbound }

/-- The fault of a request that was not answered. -/
def Context.unanswered (request : Context) : Fault :=
  Fault.server ("no response to request " ++ request.messageId.text ++ " of operation " ++
    request.operation.text)

/-! ## Errands -/

namespace Errand

/-- What a call asks of the client's engine and of the transport. -/
inductive Question where
  /-- The engine is to dispatch a message on its pool. -/
  | dispatch (message : Context)
  /-- The transport is to carry a request, and to bring back the body of the response. -/
  | carry (request : Context)
  /-- A message id is to be made that no other message has. -/
  | freshId

abbrev Question.Answer : Question → Type
  | .dispatch _ => Except DispatchError Report
  | .carry _ => Except CallError (Option Payload)
  | .freshId => MessageId

/-- The interface of errands. -/
abbrev interface : Interface := ⟨Question, Question.Answer⟩

end Errand

/-- A program that makes a call for a client. -/
abbrev Errand (α : Type) : Type := Program Errand.interface α

namespace Errand

def dispatch (message : Context) : Errand (Except DispatchError Report) :=
  Program.question (I := interface) (.dispatch message)

def carry (request : Context) : Errand (Except CallError (Option Payload)) :=
  Program.question (I := interface) (.carry request)

def freshId : Errand MessageId :=
  Program.question (I := interface) .freshId

/-- Dispatches a message, and that is all. -/
def dispatchOnly (message : Context) : Errand CallResult := do
  match ← dispatch message with
  | .ok report => return .ok report.context
  | .error e => return .error (.ofDispatch e)

/-- Dispatches a request and sends it; nobody waits for a response. -/
def oneWay (request : Context) : Errand CallResult := do
  match ← dispatch request with
  | .error e => return .error (.ofDispatch e)
  | .ok sent =>
    match ← carry sent.context with
    | .error e => return .error e
    | .ok _ => return .ok sent.context

/-- Goes on with what the transport has brought back for a request: a response is dispatched
on its way in. -/
def takeResponse (request : Context) : Except CallError (Option Payload) → Errand CallResult
  | .error e => return .error e
  | .ok none => return .error (.fault request.unanswered)
  | .ok (some body) => do
    let id ← freshId
    match ← dispatch (request.received id body) with
    | .ok received => return .ok received.context
    | .error e => return .error (.ofDispatch e)

/-- Dispatches a request and sends it, and takes the response. -/
def roundTrip (request : Context) : Errand CallResult := do
  match ← dispatch request with
  | .error e => return .error (.ofDispatch e)
  | .ok sent =>
    let answer ← carry sent.context
    takeResponse sent.context answer

end Errand

/-! ## Loopback -/

/-- What crosses back from an engine in the same process. -/
def crossingBack : Except DispatchError Report → Except CallError (Option Payload)
  | .ok report => .ok report.answer
  | .error e => .error (.ofDispatch e)

/-- Carries a request to an engine in the same process, through its pipeline. -/
def loopback {m : Type → Type} [Monad m] (pipeline : Context → m (Except DispatchError Report))
    (request : Context) : m (Except CallError (Option Payload)) := do
  return crossingBack (← pipeline request.crossing)

end SoapPipeline
