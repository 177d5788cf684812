/-
  SoapPipeline.Scenario.Play

  Playing scripts: what handlers do when they are asked, and the steps that act
  on engines at once.

  A play changes the world and may break down, which ends everything that is
  running; what running messages hold is let go even then.
-/

import SoapPipeline.Scenario.World

namespace SoapPipeline.Scenario

/-- Something that changes the world and may break down. -/
abbrev Play (α : Type) : Type := OptionT (StateM World) α

namespace Play

/-- Ends everything that is running. -/
def breakDown {α : Type} : Play α := failure

/-- Writes into the log. -/
def log (entry : LogEntry) : Play Unit :=
  modify fun w => w.log entry

/-- Has a function of the world answer and change it. -/
def withWorld {α : Type} (f : World → α × World) : Play α :=
  modifyGet f

end Play

/-! ## Handlers outside of messages -/

/-- The actor behind a handler. -/
def actorOf (h : Handler) : Play Actor := do
  match (← get).actors[h.number]? with
  | some actor => return actor
  | none => Play.breakDown

/-- What a handler answers outside of messages. -/
def answerLifecycle : (q : Lifecycle.Question) → Play q.Answer
  | .init h => do
    let actor ← actorOf h
    match actor.definition.kind, actor.definition.initFailure with
    | .scripted, some e =>
      Play.log (.notReady actor.label)
      return some e
    | .scripted, none =>
      Play.log (.ready actor.label)
      return none
    | _, _ => return none
  | .cleanup h => do
    let actor ← actorOf h
    if actor.definition.kind = .scripted then Play.log (.cleanedUp actor.label)

/-- Has an engine do something outside of messages. -/
def onEngine {α : Type} (name : String) (f : Engine → Lifecycle (Engine × α)) : Play α := do
  match (← get).engines.lookup name with
  | none => Play.breakDown
  | some e =>
    let (e, a) ← (f e).run answerLifecycle
    modify fun w => { w with engines := World.put name e w.engines }
    return a

/-- Looks at an engine. -/
def engineOf (name : String) : Play Engine := do
  match (← get).engines.lookup name with
  | none => Play.breakDown
  | some e => return e

/-- Lets go of a deployment. -/
def releaseOn (name : String) (id : Nat) : Play Unit :=
  onEngine name fun e => do
    let e ← e.release id
    return (e, ())

/-! ## Scripts -/

/-- How a script ended: it ran out, or it ended by itself. -/
abbrev Ending : Type := Option (Except Fault Verdict)

/-- The integer property, plus one. -/
def counted (value : Option Value) : Value :=
  .int ((value.bind Value.int?).getD 0 + 1)

mutual

/-- Does one action. -/
def runAction (nested : Step → Play StepAnswer) (label : String) :
    Action → Context → Play (Ending × Context)
  | .setProperty key value, ctx => return (none, ctx.setProperty key value)
  | .removeProperty key, ctx => do
    Play.log (.removed (ctx.property? key))
    return (none, ctx.eraseProperty key)
  | .getProperty key, ctx => do
    Play.log (.property (ctx.property? key))
    return (none, ctx)
  | .count key, ctx => return (none, ctx.setProperty key (counted (ctx.property? key)))
  | .setPayload p, ctx => return (none, { ctx with payload := p })
  | .setResponse p, ctx => return (none, { ctx with response := p })
  | .echo, ctx => return (none, { ctx with response := some ctx.payload })
  | .markHeader name, ctx => do
    Play.log (.marked (ctx.hasHeader name))
    return (none, ctx.markProcessed name)
  | .addHeader header, ctx => return (none, { ctx with headers := ctx.headers ++ [header] })
  | .setFlow f, ctx => return (none, { ctx with flow := f })
  | .setService name, ctx => return (none, { ctx with service := name })
  | .setOperation name, ctx => return (none, { ctx with operation := name })
  | .setEngineId id, ctx => return (none, { ctx with engineId := id })
  | .setFault f, ctx => return (none, { ctx with fault := f })
  | .note, ctx => do
    Play.log (.note label ctx)
    return (none, ctx)
  | .fail f, ctx => return (some (.error f), ctx)
  | .stop verdict, ctx => return (some (.ok verdict), ctx)
  | .breakDown, _ => Play.breakDown
  | .stall, ctx => do
    modify fun w => { w with stalled := true }
    return (none, ctx)
  | .branch condition yes no, ctx =>
    if condition.holds ctx then runActions nested label yes ctx
    else runActions nested label no ctx
  | .act step, ctx => do
    let answer ← nested step
    Play.log (.nested answer)
    return (none, ctx)

/-- Does actions in order until one ends the script. -/
def runActions (nested : Step → Play StepAnswer) (label : String) :
    List Action → Context → Play (Ending × Context)
  | [], ctx => return (none, ctx)
  | action :: rest, ctx => do
    match ← runAction nested label action ctx with
    | (none, ctx) => runActions nested label rest ctx
    | ended => return ended

end

/-! ## Handlers and messages -/

/-- Has a handler process a message. -/
def invokeHandler (nested : Step → Play StepAnswer) (h : Handler) (ctx : Context) :
    Play (Except Fault Verdict × Context) := do
  let actor ← actorOf h
  match actor.definition.kind with
  | .echo => return (.ok .proceed, { ctx with response := some ctx.payload })
  | .logging =>
    let sighting : Sighting :=
      ⟨actor.label, ctx.service, ctx.operation, ctx.flow, ctx.payload.size⟩
    modify fun w =>
      { w with records := { w.records with sightings := sighting :: w.records.sightings } }
    return (.ok .proceed, ctx)
  | _ =>
    Play.log (.invoked actor.label)
    let (ending, ctx) ← runActions nested actor.label actor.definition.onInvoke ctx
    return (ending.getD (.ok .proceed), ctx)

/-- Has a handler undo its work on a message. -/
def undoHandler (nested : Step → Play StepAnswer) (h : Handler) (ctx : Context) :
    Play Context := do
  let actor ← actorOf h
  if actor.definition.kind = .scripted then
    Play.log (.undone actor.label)
    let (_, ctx) ← runActions nested actor.label actor.definition.onUndo ctx
    return ctx
  else return ctx

/-- Looks up the deployment under a name and holds it. -/
def leaseOn (name : String) (service : QName) : Play (Option Lease) := do
  let e ← engineOf name
  match e.deployed? service with
  | none => return none
  | some (id, d) =>
    modify fun w => { w with
      engines := World.put name (e.retain id) w.engines
      leases := (name, id) :: w.leases }
    return some ⟨id, d.operations, d.chains⟩

/-- What a message running on an engine gets for an answer. -/
def answerExchange (nested : Step → Play StepAnswer) (engine : String) :
    (q : Exchange.Question) → Play q.Answer
  | .invoke h ctx => invokeHandler nested h ctx
  | .undo h ctx => undoHandler nested h ctx
  | .lookup service => leaseOn engine service
  | .globalChains => do return (← engineOf engine).globalChains
  | .release id => do
    modify fun w => { w with leases := w.leases.erase (engine, id) }
    releaseOn engine id
  | .freshId => Play.withWorld World.freshId

/-- Lets go of deployments. -/
def releaseLeases : List (String × Nat) → Play Unit
  | [] => return ()
  | (engine, id) :: rest => do
    releaseOn engine id
    releaseLeases rest

/-- Runs a message.  When that breaks down, the message lets go of what it held. -/
def exchangeOn {α : Type} (nested : Step → Play StepAnswer) (engine : String)
    (exchange : Exchange α) : Play α := fun w =>
  match (exchange.run (answerExchange nested engine)).run w with
  | (some a, after) => (some a, after)
  | (none, after) =>
    let count := after.leases.length - w.leases.length
    let (_, after) := (releaseLeases (after.leases.take count)).run
      { after with leases := after.leases.drop count }
    (none, after)

/-! ## Steps -/

/-- Lets go of what was held under a name. -/
def letGo : Option Held → Play Unit
  | some (.deployment engine id) => releaseOn engine id
  | _ => return ()

/-- Holds something under a name, and lets go of what was held there. -/
def hold (name : String) (held : Held) : Play Unit := do
  let before := (← get).held.lookup name
  modify fun w => { w with held := World.put name held w.held }
  letGo before

/-- The chains of a service, or the global ones. -/
def chainsOn (engine : String) (service : Option QName) : Play (Option Chains) := do
  let e ← engineOf engine
  match service with
  | none => return some e.globalChains
  | some name => return (e.deployed? name).map fun (_, d) => d.chains

/-- Shows what is held. -/
def showHeld : Option Held → Play StepAnswer
  | none => return .chains none
  | some (.chains chains) => return .chains (some chains)
  | some (.deployment engine id) => do
    match (← engineOf engine).deployments.find? id with
    | some d => return .deployed d.service d.chains
    | none => return .chains none

/-- Takes a step; handlers of the messages that it runs take theirs with `nested`. -/
def runStep (nested : Step → Play StepAnswer) : Step → Play StepAnswer
  | .deploy engine service name => do
    let spec ← Play.withWorld (·.serviceOf service)
    match ← onEngine engine (·.deploy spec) with
    | .error error => return .refused error
    | .ok id =>
      if let some name := name then
        onEngine engine fun e => return (e.retain id, ())
        hold name (.deployment engine id)
      match (← engineOf engine).deployments.find? id with
      | some d => return .deployed d.service d.chains
      | none => Play.breakDown
  | .engage engine flow spec => do
    let spec ← Play.withWorld (·.specOf spec)
    match ← onEngine engine (·.engage flow spec) with
    | .error error => return .refused error
    | .ok d => return .engaged d.name
  | .undeploy engine service => do
    match ← onEngine engine (·.undeploy service) with
    | .error error => return .refused error
    | .ok () => return .done
  | .shutdown engine => do
    onEngine engine fun e => do return (← e.shutdown, ())
    return .done
  | .dispatch engine message => do
    let ctx ← Play.withWorld (·.messageOf message)
    let id := (← engineOf engine).config.engineId
    let (result, ctx) ← exchangeOn nested engine (dispatch id ctx)
    return .dispatched result ctx
  | .receive engine message => do
    let ctx ← Play.withWorld (·.messageOf message)
    let id := (← engineOf engine).config.engineId
    return .received (← exchangeOn nested engine (receive id ctx))
  | .chains engine service => do
    return .chains (← chainsOn engine service)
  | .services engine => do
    let e ← engineOf engine
    return .services e e.services
  | .describe engine => do
    return .description (← engineOf engine).describe
  | .holdChains engine service name => do
    match ← chainsOn engine service with
    | none => return .chains none
    | some chains =>
      hold name (.chains chains)
      return .done
  | .held name => do
    showHeld ((← get).held.lookup name)
  | .drop name => do
    let before := (← get).held.lookup name
    modify fun w => { w with held := World.drop name w.held }
    letGo before
    return .dropped before.isSome

/-- Takes a step of a handler inside of so many others; none may be deeper. -/
def nestedStep : Nat → Step → Play StepAnswer
  | 0, _ => Play.breakDown
  | depth + 1, step => runStep (nestedStep depth) step

/-- How deeply steps of handlers may be nested. -/
def nestingDepth : Nat := 64

/-- Takes a step. -/
def takeStep (step : Step) : Play StepAnswer :=
  runStep (nestedStep nestingDepth) step

end SoapPipeline.Scenario
