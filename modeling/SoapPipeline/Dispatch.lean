/-
  SoapPipeline.Dispatch

  Dispatching messages: which chain a message runs through, and what becomes
  of the faults that arise.

  A dispatch looks up its service once, at the start, and holds what it found
  until it ends.  A fault is first offered to a handler that is registered for
  its code; only when there is none does the fault chain run, and the fault is
  returned unchanged.
-/

import SoapPipeline.Execution

namespace SoapPipeline

/-! ## Outcomes -/

/-- How a dispatch ends when no fault is left. -/
inductive Outcome where
  | completed
  /-- This handler ended the chain early. -/
  | shortCircuited (handler : QName)
  /-- A registered handler took the fault. -/
  | faultAbsorbed (fault : Fault)
  deriving Inhabited

/-- The outcome of a dispatch whose chain ended so. -/
def ChainOutcome.outcome : ChainOutcome → Outcome
  | .completed => .completed
  | .shortCircuited handler => .shortCircuited handler

/-- A message after its dispatch. -/
structure Report where
  context : Context
  outcome : Outcome
  /-- The response, after the outbound chain has run on it. -/
  response : Option Context
  deriving Inhabited

/-- Why a dispatch gave no report. -/
inductive DispatchError where
  | fault (fault : Fault)
  | overloaded
  /-- The dispatch took more than so many milliseconds. -/
  | deadlineExceeded (timeout : Nat)
  /-- A handler broke down. -/
  | breakdown
  deriving Inhabited

namespace DispatchError

/-- The message that reports an error. -/
def message : DispatchError → String
  | .fault f => f.message
  | .overloaded => "engine overloaded, try again later"
  | .deadlineExceeded timeout =>
    "dispatch exceeded its deadline of " ++ toString timeout ++ "ms"
  | .breakdown => "internal error"

/-- The fault that an error carries. -/
def fault? : DispatchError → Option Fault
  | .fault f => some f
  | _ => none

/-- What becomes of a message whose task ended so, or broke down. -/
def ofEnd {α : Type} : Option (Except Fault α) → Except DispatchError α
  | some (.ok a) => .ok a
  | some (.error f) => .error (.fault f)
  | none => .error .breakdown

end DispatchError

/-- The property in which a message may set its deadline, in milliseconds. -/
def deadlineProperty : String := "soapflow.dispatch.timeout_ms"

/-! ## Faults -/

/-- The handler to which a fault is offered: one in the options of the handler that
failed, or else the first one registered in the fault chain. -/
def faultHandler? (code : QName) (failing : Option Descriptor) (faultChain : Chain) :
    Option Handler :=
  match failing.bind fun d => d.options.faultHandler? code with
  | some h => some h
  | none => faultChain.handlers.findSome? fun d => d.registeredFor? code

/-- Handles a fault of a message. -/
def handleFault (faultChain : Chain) (failing : Option Descriptor) (fault : Fault)
    (ctx : Context) : Exchange (Except Fault Outcome × Context) :=
  let code := ctx.faultCode fault
  let ctx := { ctx with fault := some fault }
  match faultHandler? code failing faultChain with
  | some h => do
    match ← Exchange.invoke h ctx with
    | (.ok _, ctx) => return (.ok (.faultAbsorbed fault), { ctx with fault := none })
    | (.error raised, ctx) => return (.error raised, ctx)
  | none => do
    let (_, ctx) ← faultChain.execute ctx
    return (.error fault, ctx)

/-- The fault for the first mandatory header block that no handler has consumed and no
handler of the chain understands. -/
def notUnderstood? (chain : Chain) (ctx : Context) : Option Fault :=
  (ctx.unprocessed.find? fun h => !chain.understands h.name).map fun h =>
    ⟨FaultCode.mustUnderstand, "header " ++ h.name.text ++ " was not understood", none⟩

/-- The fault of a message to a service that is not deployed. -/
def notDeployed (service : QName) : Fault :=
  Fault.client ("service " ++ service.text ++ " is not deployed")

/-- The fault of a message for an operation that its service does not offer. -/
def notOffered (operation service : QName) : Fault :=
  Fault.client ("operation " ++ operation.text ++ " is not offered by service " ++ service.text)

/-! ## Dispatch -/

namespace Lease

/-- Whether an operation may be dispatched to the service. -/
def accepts (lease : Lease) (operation : QName) : Bool :=
  lease.operations.isEmpty || lease.operations.contains operation

/-- Runs a message on a deployment that is held. -/
def serve (lease : Lease) (ctx : Context) : Exchange (Except Fault Outcome × Context) :=
  let chains := lease.chains
  if lease.accepts ctx.operation then do
    let chain := chains.forFlow ctx.flow
    match ← chain.execute ctx with
    | (.ok outcome, ctx) =>
      match (if ctx.flow = .inbound then notUnderstood? chain ctx else none) with
      | some fault => handleFault chains.fault none fault ctx
      | none => return (.ok outcome.outcome, ctx)
    | (.error e, ctx) => handleFault chains.fault (some e.handler) e.fault ctx
  else handleFault chains.fault none (notOffered ctx.operation ctx.service) ctx

end Lease

/-- Has the engine of this id stamp a message that no engine has stamped. -/
def Context.stamped (ctx : Context) (engineId : String) : Context :=
  if ctx.engineId.isEmpty then { ctx with engineId } else ctx

/-- Runs a message through the chain that its service and direction select. -/
def dispatch (engineId : String) (ctx : Context) :
    Exchange (Except Fault Outcome × Context) := do
  let ctx := ctx.stamped engineId
  match ← Exchange.lookup ctx.service with
  | none =>
    let chains ← Exchange.globalChains
    handleFault chains.fault none (notDeployed ctx.service) ctx
  | some lease =>
    let result ← lease.serve ctx
    Exchange.release lease.deployment
    return result

/-- Dispatches a message and reports what became of it. -/
def dispatchReport (engineId : String) (ctx : Context) : Exchange (Except Fault Report) := do
  match ← dispatch engineId ctx with
  | (.ok outcome, ctx) => return .ok ⟨ctx, outcome, none⟩
  | (.error fault, _) => return .error fault

/-- Handles a request: the inbound chain, and if that leaves a response, the outbound
chain on a message that carries it back. -/
def receive (engineId : String) (request : Context) : Exchange (Except Fault Report) := do
  match ← dispatch engineId { request with flow := .inbound } with
  | (.error fault, _) => return .error fault
  | (.ok outcome, request) =>
    match request.response with
    | none => return .ok ⟨request, outcome, none⟩
    | some body =>
      let request := { request with response := none }
      let id ← Exchange.freshId
      match ← dispatch engineId (request.respond id body) with
      | (.error fault, _) => return .error fault
      | (.ok _, response) => return .ok ⟨request, outcome, some response⟩

end SoapPipeline
