/-
  SoapPipeline.Scenario.Clock

  Steps that take time.

  Time is counted in milliseconds and stands still while anything can go on.
  When nothing can, it moves straight to the next moment at which something is
  due: a reply of a scripted transport, the end of the patience of a caller,
  or the end of the step that is being taken.

  Steps are taken one after the other.  One of them may break down alone, but
  where no duration can hold a wait bound everything ends.
-/

import SoapPipeline.Scenario.Play
import SoapPipeline.Tracking

namespace SoapPipeline.Scenario

/-! ## Running messages on a pool -/

/-- Runs a message where a breakdown ends nothing but the message. -/
def pooled {α : Type} (engine : String) (exchange : Exchange (Except Fault α)) :
    Play (Except DispatchError α) := fun w =>
  let (ended, w) := exchangeOn (nestedStep nestingDepth) engine exchange w
  (some (DispatchError.ofEnd ended), w)

/-- Dispatches a message on the pool. -/
def dispatchPooled (engine : String) (ctx : Context) : Play (Except DispatchError Report) := do
  let id := (← engineOf engine).config.engineId
  pooled engine (dispatchReport id ctx)

/-- Receives a message on the pool. -/
def receivePooled (engine : String) (ctx : Context) : Play (Except DispatchError Report) := do
  let id := (← engineOf engine).config.engineId
  pooled engine (receive id ctx)

/-- Receives a message and says how long that took. -/
def receiveTimed (engine : String) (ctx : Context) : Play Answer := do
  modify fun w => { w with stalled := false }
  let result ← receivePooled engine ctx
  return ⟨result, ⟨0, (← get).stalled⟩⟩

/-- Sends a message through the layers around an engine. -/
def throughPipeline (engine : String) (ctx : Context) : Play (Except DispatchError Report) := do
  let layers := Layer.standard (← engineOf engine).config
  let passage ← Layer.pass ctx (receiveTimed engine) layers
  modify fun w => w.recordMetrics passage.records
  return passage.answer.result

/-! ## Exchanges -/

/-- What becomes of an exchange. -/
inductive Progress where
  | next (stage : Stage)
  | ended (result : CallResult)

/-- What a scripted transport brings back, if it ever does. -/
def ReplyContent.crossing? : ReplyContent → Option (Except CallError (Option Payload))
  | .fault f => some (.error (.fault f))
  | .failure e => some (.error (.transport e))
  | .hang => none
  | .body p => some (.ok (some p))
  | .nothing => some (.ok none)

/-- Takes an exchange over the transport to the next point at which others may go on. -/
def settle (transport : String) : Errand CallResult → Play Progress
  | .done result => return .ended result
  | .ask (.dispatch message) next => return .next (.ready (.ask (.dispatch message) next))
  | .ask .freshId next => do
    let id ← Play.withWorld World.freshId
    settle transport (next id)
  | .ask (.carry request) next => do
    match (← get).transports.lookup transport with
    | none => Play.breakDown
    | some (.loopback server) => return .next (.serving server request next)
    | some (.scripted replies) =>
      let (reply, replies) := nextReply replies
      modify fun w => { w with
        transports := World.put transport (.scripted replies) w.transports
        records := { w.records with sent := request :: w.records.sent } }
      if 0 < reply.delay then
        return .next (.waiting (some ((← get).now + reply.delay)) reply.content next)
      else match reply.content.crossing? with
        | some answer => settle transport (next answer)
        | none => return .next (.waiting none reply.content next)

/-- Whether an exchange can go on now. -/
def Stage.isReady : Stage → Bool
  | .waiting .. => false
  | _ => true

/-- Goes on with an exchange. -/
def goOn (t : Trip) : Play Progress := do
  match t.stage with
  | .ready (.ask (.dispatch message) next) =>
    let result ← dispatchPooled t.engine message
    settle t.transport (next result)
  | .ready errand => settle t.transport errand
  | .serving server request next =>
    let answer ← loopback (throughPipeline server) request
    settle t.transport (next answer)
  | .waiting _ content next =>
    match content.crossing? with
    | some answer => settle t.transport (next answer)
    | none => return .next (.waiting none content next)

/-! ## Calls -/

/-- The engine on which a call is pending. -/
def pendingOn (w : World) (engine : String) : PendingCalls String :=
  (w.pending.lookup engine).getD PendingCalls.empty

/-- Hands a delivery to its callback, and its status to the waiter. -/
def World.deliver (w : World) (call : Nat) : Option (Delivery String) → World
  | none => w
  | some d =>
    let delivered : Delivered := ⟨d.callback, w.now, d.result⟩
    { w with
      statuses := (call, d.status) :: w.statuses
      records := { w.records with delivered := delivered :: w.records.delivered } }

/-- Changes the pending calls of an engine and delivers what that yields. -/
def World.onPending (w : World) (engine : String) (call : Nat)
    (f : PendingCalls String → PendingCalls String × Option (Delivery String)) : World :=
  let (pending, delivery) := f (pendingOn w engine)
  { w with pending := World.put engine pending w.pending }.deliver call delivery

/-- Ends an exchange with a result. -/
def World.finish (w : World) (t : Trip) (result : CallResult) : World :=
  match t.owner with
  | .step => { w with arrived := some result }
  | .call id => w.onPending t.engine id fun p => p.complete id result

/-- Gives up an exchange after so many nanoseconds. -/
def World.giveUp (w : World) (t : Trip) (nanos : Nat) : World :=
  match t.owner with
  | .step => { w with arrived := some (.error (.timeoutAfter nanos)) }
  | .call id => w.onPending t.engine id fun p => p.expire id nanos

/-! ## The clock -/

/-- What is due at a moment. -/
inductive Timer where
  /-- The exchange at this place gets its reply. -/
  | reply (place : Nat)
  /-- The exchange at this place is given up. -/
  | limit (place : Nat)
  /-- The step that is being taken ends. -/
  | alarm

/-- The timers of an exchange. -/
def Trip.timers (t : Trip) (place : Nat) : List (Nat × Timer) :=
  let reply := match t.stage with
    | .waiting (some due) _ _ => [(due, Timer.reply place)]
    | _ => []
  let limit := match t.limit with
    | some (time, _) => [(time, Timer.limit place)]
    | none => []
  reply ++ limit

/-- All timers, those of the exchanges first. -/
def timersOf (trips : List Trip) (alarm : Option Nat) : List (Nat × Timer) :=
  let ofTrips := trips.mapIdx fun place t => t.timers place
  ofTrips.flatten ++ (alarm.map fun time => (time, Timer.alarm)).toList

/-- The earliest timer, the first one of those that are due together. -/
def earliest? : List (Nat × Timer) → Option (Nat × Timer)
  | [] => none
  | first :: rest =>
    match earliest? rest with
    | none => some first
    | some other => if first.1 ≤ other.1 then some first else some other

/-- Goes on with the exchange at a place; an exchange that has not ended stands behind
the others after it. -/
def advanceAt (place : Nat) : Play Unit := do
  match (← get).trips[place]? with
  | none => return ()
  | some t =>
    modify fun w => { w with trips := w.trips.eraseIdx place }
    match ← goOn t with
    | .next stage => modify fun w => { w with trips := w.trips ++ [{ t with stage }] }
    | .ended result => modify fun w => w.finish t result

/-- Gives up the exchange at a place. -/
def giveUpAt (place : Nat) : Play Unit :=
  modify fun w =>
    match w.trips[place]? with
    | some t =>
      { w with trips := w.trips.eraseIdx place }.giveUp t ((t.limit.map Prod.snd).getD 0)
    | none => w

/-- Lets everything go on until the step that is being taken is over, in at most so many
moves.  Returns whether it was ended by the alarm. -/
def elapse (ended : World → Bool) (alarm : Option Nat) : Nat → Play Bool
  | 0 => return false
  | moves + 1 => do
    let w ← get
    if ended w then return false
    else match w.trips.findIdx? fun t => t.stage.isReady with
      | some place =>
        advanceAt place
        elapse ended alarm moves
      | none =>
        match earliest? (timersOf w.trips alarm) with
        | none => return false
        | some (time, timer) =>
          set { w with now := max w.now time }
          match timer with
          | .alarm => return true
          | .reply place =>
            advanceAt place
            elapse ended alarm moves
          | .limit place =>
            giveUpAt place
            elapse ended alarm moves

/-- How many moves an exchange makes at most. -/
def movesOfTrip : Nat := 5

/-- Lets everything go on until a step is over. -/
def elapseUntil (ended : World → Bool) (alarm : Option Nat) : Play Bool := do
  elapse ended alarm (movesOfTrip * (← get).trips.length + 1)

/-! ## Steps that take time -/

/-- A call to be made. -/
structure CallSource where
  engine : String
  transport : String
  settings : CallSettings
  operation : QName
  payload : Payload

/-- What can be done with time passing. -/
inductive TimedStep where
  /-- A step that takes no time. -/
  | atOnce (step : Step)
  | dispatchAsync (engine : String) (message : Draft) (name : String)
  | invokeAsync (call : CallSource) (name : String)
  | invoke (call : CallSource)
  | send (call : CallSource)
  /-- Waits for an asynchronous call. -/
  | wait (name : String)
  | sleep (millis : Nat)
  | pipeline (engine : String) (message : Draft)
  | dispatchOwned (engine : String) (message : Draft)
  | receiveOwned (engine : String) (message : Draft)
  /-- Drops the handle of an asynchronous call. -/
  | dropCall (name : String)
  | pending (engine : String)

/-- The answer to a step. -/
inductive TimedAnswer where
  | atOnce (answer : StepAnswer)
  /-- A call has been started. -/
  | started
  /-- The wait bound is more than a duration can hold.  Nothing is done after that. -/
  | overflow
  | response (result : CallResult)
  | sent (result : Except CallError Unit)
  | status (result : Except CallError CallStatus)
  /-- There is no such handle. -/
  | noHandle
  | slept
  | report (result : Except DispatchError Report)
  | dropped (held : Bool)
  /-- The pending calls, and which of the calls started are among them. -/
  | pending (size : Nat) (calls : List (String × Bool))

/-- The moment at which a bound from now ends, and the bound in nanoseconds. -/
def World.limitAfter (w : World) (bound : Nat) : Nat × Nat :=
  (w.now + bound, bound * nanosPerMilli)

/-- Registers an asynchronous call and starts its exchange.  The call is registered before its
wait bound is computed, so that it stays registered where that overflows. -/
def track (engine transport name : String) (message : MessageId) (errand : Errand CallResult) :
    Play TimedAnswer := do
  let config := (← engineOf engine).config
  let id := (← get).nextCall
  modify fun w => { w with nextCall := w.nextCall + 1 }
  let started := config.track (pendingOn (← get) engine) id message name
  modify fun w => w.onPending engine id fun _ => (started.pending, started.delivery)
  match started.task with
  | none => return .overflow
  | some task =>
    modify fun w => { w with
      started := World.put name id w.started
      handles := World.put name ⟨engine, id⟩ w.handles
      trips := w.trips ++
        [⟨.call task.call, engine, transport, .ready errand, some (w.limitAfter task.bound)⟩] }
    return .started

/-- The request of a call. -/
def requestOf (call : CallSource) : Play Context := do
  let id ← Play.withWorld World.freshId
  let engineId := (← engineOf call.engine).config.engineId
  return call.settings.request engineId id call.operation call.payload

/-- Runs the exchange of a step to its end. -/
def runTrip (t : Trip) : Play (Option CallResult) := do
  modify fun w => { w with arrived := none, trips := t :: w.trips }
  let _ ← elapseUntil (fun w => w.arrived.isSome) none
  return (← get).arrived

/-- Answers a waiter, letting time pass while it listens.  What is ready goes on before a
call is given up. -/
def answerWaiter (h : Handle) : (q : Await.Question) → Play q.Answer
  | .listen nanos => do
    let _ ← elapseUntil ended (some ((← get).now + nanos / nanosPerMilli))
    return (← get).statuses.lookup h.call |>.map .status
  | .expire nanos => do
    if ← elapseUntil ended (some (← get).now) then
      modify fun w => w.onPending h.engine h.call fun p => p.expire h.call nanos
  | .receive => do
    match (← get).statuses.lookup h.call with
    | some status => return .status status
    | none => return .lost
where
  ended (w : World) : Bool := (w.statuses.lookup h.call).isSome

/-- Waits for a call. -/
def waitFor (h : Handle) (config : Config) : Play TimedAnswer := do
  let waiter := Await.wait (config.pollInterval * nanosPerMilli) config.maxChecks
  return .status (← waiter.run (answerWaiter h))

/-- Takes a step. -/
def takeTimedStep : TimedStep → Play TimedAnswer
  | .atOnce step => return .atOnce (← takeStep step)
  | .dispatchAsync engine draft name => do
    let message ← Play.withWorld (·.messageOf draft)
    track engine "" name message.messageId (Errand.dispatchOnly message)
  | .invokeAsync call name => do
    let request ← requestOf call
    track call.engine call.transport name request.messageId (Errand.roundTrip request)
  | .invoke call => do
    let request ← requestOf call
    match (← engineOf call.engine).config.waitBound? with
    | none => return .overflow
    | some bound =>
      let limit := some ((← get).limitAfter bound)
      let stage := Stage.ready (Errand.roundTrip request)
      match ← runTrip ⟨.step, call.engine, call.transport, stage, limit⟩ with
      | some result => return .response result
      | none => Play.breakDown
  | .send call => do
    let request ← requestOf call
    let stage := Stage.ready (Errand.oneWay request)
    match ← runTrip ⟨.step, call.engine, call.transport, stage, none⟩ with
    | some (.ok _) => return .sent (.ok ())
    | some (.error e) => return .sent (.error e)
    | none => Play.breakDown
  | .wait name => do
    match (← get).handles.lookup name with
    | none => return .noHandle
    | some h =>
      modify fun w => { w with handles := World.drop name w.handles }
      let config := (← engineOf h.engine).config
      match config.waitBound? with
      | none => return .overflow
      | some _ => waitFor h config
  | .sleep millis => do
    let _ ← elapseUntil (fun _ => false) (some ((← get).now + millis))
    return .slept
  | .pipeline engine draft => do
    let message ← Play.withWorld (·.messageOf draft)
    return .report (← throughPipeline engine message)
  | .dispatchOwned engine draft => do
    let message ← Play.withWorld (·.messageOf draft)
    return .report (← dispatchPooled engine message)
  | .receiveOwned engine draft => do
    let message ← Play.withWorld (·.messageOf draft)
    return .report (← receivePooled engine message)
  | .dropCall name => do
    let held := ((← get).handles.lookup name).isSome
    modify fun w => { w with handles := World.drop name w.handles }
    return .dropped held
  | .pending engine => do
    let w ← get
    let p := pendingOn w engine
    let calls := w.started.mergeSort fun a b => a.1 ≤ b.1
    return .pending p.size (calls.map fun (name, id) => (name, p.isPending id))

/-! ## Several steps in a row -/

/-- What a step leaves: its answer, the moment after it and the records since the step before.
There is no answer when the step breaks down. -/
structure Played where
  answer : Option TimedAnswer
  now : Nat
  records : Records

/-- Takes steps one after the other, where `none` is a step that nobody knows.  A breakdown ends
its step only, but a wait bound that overflows ends everything, and then there is no answer to
any of the steps. -/
def takeTimedSteps : World → List (Option TimedStep) → Option (List Played)
  | _, [] => some []
  | w, step :: rest =>
    match (step.elim Play.breakDown takeTimedStep).run w with
    | (some .overflow, _) => none
    | (answer, w) => do
      let (records, left) := w.takeRecords
      let later ← takeTimedSteps left rest
      return ⟨answer, w.now, records⟩ :: later

end SoapPipeline.Scenario
