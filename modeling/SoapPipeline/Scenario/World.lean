/-
  SoapPipeline.Scenario.World

  The world in which scenarios play: engines, the instances of scripted
  handlers, what is held under which name, and the records that a run leaves.
-/

import SoapPipeline.Client
import SoapPipeline.Engine
import SoapPipeline.Middleware
import SoapPipeline.Scenario.Script

namespace SoapPipeline.Scenario

/-! ## Records -/

/-- The answer to a step. -/
inductive StepAnswer where
  | deployed (service : QName) (chains : Chains)
  | engaged (handler : QName)
  | done
  | refused (error : DeployError)
  | dispatched (result : Except Fault Outcome) (ctx : Context)
  | received (result : Except Fault Report)
  | chains (chains : Option Chains)
  /-- The engine, with its services in order. -/
  | services (engine : Engine) (services : List Deployment)
  | description (text : String)
  /-- Whether something was held. -/
  | dropped (held : Bool)

/-- An entry of the log that scripted handlers write. -/
inductive LogEntry where
  | ready (label : String)
  | notReady (label : String)
  | invoked (label : String)
  | undone (label : String)
  | cleanedUp (label : String)
  | removed (value : Option Value)
  | property (value : Option Value)
  | marked (found : Bool)
  | note (label : String) (ctx : Context)
  | nested (answer : StepAnswer)

/-- What a logging handler reports of a message. -/
structure Sighting where
  label : String
  service : QName
  operation : QName
  flow : Flow
  size : Nat

/-- What a scripted transport sees of a message. -/
abbrev Sent : Type := Context

/-- The result of an asynchronous call at its callback. -/
structure Delivered where
  call : String
  time : Nat
  result : CallResult

/-- What a run has recorded since it was last asked, last record first. -/
structure Records where
  log : List LogEntry
  sightings : List Sighting
  sent : List Sent
  metrics : List Metric
  delivered : List Delivered

def Records.none : Records := ⟨[], [], [], [], []⟩

/-! ## Handlers -/

/-- A handler instance: its definition and its name in the log. -/
structure Actor where
  definition : Definition
  label : String

/-! ## Transports -/

/-- What a scripted transport answers. -/
inductive ReplyContent where
  | fault (f : Fault)
  | failure (e : Failure)
  /-- Never answers. -/
  | hang
  | body (p : Payload)
  /-- The exchange is one-way. -/
  | nothing

/-- An answer of a scripted transport, and how many milliseconds it takes. -/
structure Reply where
  delay : Nat
  content : ReplyContent

/-- How requests travel. -/
inductive Transport where
  /-- To an engine of this name. -/
  | loopback (engine : String)
  /-- To a script, which answers with its replies in order and repeats the last one. -/
  | scripted (replies : List Reply)

/-- The next reply of a script, and the script after it. -/
def nextReply : List Reply → Reply × List Reply
  | [] => (⟨0, .nothing⟩, [])
  | [last] => (last, [last])
  | reply :: rest => (reply, rest)

/-! ## The world -/

/-- What is held under a name. -/
inductive Held where
  | deployment (engine : String) (id : Nat)
  | chains (chains : Chains)

/-- The handle of an asynchronous call. -/
structure Handle where
  engine : String
  call : Nat
  deriving DecidableEq, Repr, Inhabited

/-! ## Exchanges over a transport -/

/-- For whom an exchange runs. -/
inductive Owner where
  /-- For the step that is being taken. -/
  | step
  /-- For the asynchronous call with this id. -/
  | call (id : Nat)
  deriving DecidableEq, Repr, Inhabited

/-- What an exchange goes on with when its request has been carried. -/
abbrev Onward : Type := Except CallError (Option Payload) → Errand CallResult

/-- How far an exchange has come. -/
inductive Stage where
  /-- This much of it is left. -/
  | ready (errand : Errand CallResult)
  /-- Its request is to be received by another engine. -/
  | serving (server : String) (request : Context) (next : Onward)
  /-- A scripted transport has the request. -/
  | waiting (due : Option Nat) (content : ReplyContent) (next : Onward)

/-- An exchange that has not ended. -/
structure Trip where
  owner : Owner
  /-- The client's engine. -/
  engine : String
  transport : String
  stage : Stage
  /-- When the exchange is given up, and after how many nanoseconds. -/
  limit : Option (Nat × Nat)

/-- Everything that a scenario can change. -/
structure World where
  engines : List (String × Engine)
  /-- The calls of every engine that have not ended, by name of the call. -/
  pending : List (String × PendingCalls String)
  transports : List (String × Transport)
  /-- Definitions of shared handlers. -/
  definitions : List (String × Definition)
  /-- Shared instances that exist. -/
  shared : List (String × Handler)
  /-- All instances, by their numbers. -/
  actors : Array Actor
  held : List (String × Held)
  /-- The deployments that running messages hold, last one first. -/
  leases : List (String × Nat)
  /-- Whether a handler took longer than no time at all. -/
  stalled : Bool
  nextMessage : Nat
  nextCall : Nat
  /-- Milliseconds since the start. -/
  now : Nat
  /-- Exchanges that have not ended, in the order in which they go on. -/
  trips : List Trip
  /-- The result of the exchange of the step that is being taken. -/
  arrived : Option CallResult
  /-- Every asynchronous call started, the last one of a name. -/
  started : List (String × Nat)
  /-- Handles that have not been used up. -/
  handles : List (String × Handle)
  /-- How calls ended. -/
  statuses : List (Nat × CallStatus)
  records : Records

namespace World

/-- A world with nothing in it but definitions of shared handlers. -/
def empty (definitions : List (String × Definition)) : World where
  engines := []
  pending := []
  transports := []
  definitions
  shared := []
  actors := #[]
  held := []
  leases := []
  stalled := false
  nextMessage := 1
  nextCall := 1
  now := 0
  trips := []
  arrived := none
  started := []
  handles := []
  statuses := []
  records := Records.none

/-! ### Keyed lists -/

/-- Sets what is under a key, where the key stands or at the end. -/
def put {α : Type} (key : String) (value : α) : List (String × α) → List (String × α)
  | [] => [(key, value)]
  | (k, v) :: rest => if k = key then (k, value) :: rest else (k, v) :: put key value rest

/-- Removes what is under a key. -/
def drop {α : Type} (key : String) (entries : List (String × α)) : List (String × α) :=
  entries.filter fun (k, _) => k ≠ key

/-! ### Instances -/

/-- Makes a new instance. -/
def instantiate (w : World) (definition : Definition) (label : String) : Handler × World :=
  let understood := if definition.kind = .scripted then definition.understood else []
  (⟨w.actors.size, understood⟩,
    { w with actors := w.actors.push ⟨definition, definition.label.getD label⟩ })

/-- The instance that a source means; `label` names a new one in the log when its
definition does not. -/
def handlerOf (w : World) (source : Source) (label : String) : Handler × World :=
  match source with
  | .inline definition => w.instantiate definition label
  | .shared id =>
    match w.shared.lookup id with
    | some h => (h, w)
    | none =>
      let definition := (w.definitions.lookup id).getD Definition.plain
      let (h, w) := w.instantiate definition id
      (h, { w with shared := (id, h) :: w.shared })

/-- The name in the log of a new handler without a name of its own. -/
def anonymousLabel : String := "anonymous"

/-- The name in the log of a new handler in an option. -/
def optionLabel : String := "option"

/-- The value of an option. -/
def optionOf (w : World) (source : OptionSource) : OptionValue × World :=
  match source with
  | .text s => (.text s, w)
  | .handler source =>
    let (h, w) := w.handlerOf source optionLabel
    (.handler h, w)

/-- The option table that entries make, inserted in order. -/
def optionsOf (w : World) (entries : List (String × OptionSource)) : Options × World :=
  entries.foldl (fun (options, w) (key, source) =>
    let (value, w) := w.optionOf source
    (options.insert key value, w)) (Options.empty, w)

/-- The declaration of a handler. -/
def specOf (w : World) (source : SpecSource) : HandlerSpec × World :=
  let label := (source.name.map QName.localPart).getD anonymousLabel
  let (handler, w) := w.handlerOf source.source label
  let (options, w) := w.optionsOf source.options
  (⟨source.name, handler, source.rule, options⟩, w)

/-- The declarations of handlers, one after the other. -/
def specsOf (w : World) : List SpecSource → List HandlerSpec × World
  | [] => ([], w)
  | source :: rest =>
    let (spec, w) := w.specOf source
    let (specs, w) := w.specsOf rest
    (spec :: specs, w)

/-- The descriptors of declarations, with names for those that have none. -/
def descriptorsOf (w : World) (sources : List SpecSource) : List Descriptor × World :=
  let (specs, w) := w.specsOf sources
  ((Namer.start.describeAll specs).1, w)

/-- The declaration of a service. -/
def serviceOf (w : World) (source : ServiceSource) : ServiceSpec × World :=
  let (inbound, w) := w.specsOf source.inbound
  let (outbound, w) := w.specsOf source.outbound
  let (fault, w) := w.specsOf source.fault
  (⟨source.name, source.operations, inbound, outbound, fault⟩, w)

/-! ### Recording -/

def log (w : World) (entry : LogEntry) : World :=
  { w with records := { w.records with log := entry :: w.records.log } }

def recordMetrics (w : World) (metrics : List Metric) : World :=
  { w with records := { w.records with metrics := metrics.reverse ++ w.records.metrics } }

/-- The records in order, and the world without them. -/
def takeRecords (w : World) : Records × World :=
  let r := w.records
  (⟨r.log.reverse, r.sightings.reverse, r.sent.reverse, r.metrics.reverse, r.delivered.reverse⟩,
    { w with records := Records.none })

/-! ### Messages -/

/-- An id that no message has. -/
def freshId (w : World) : MessageId × World :=
  (⟨w.nextMessage⟩, { w with nextMessage := w.nextMessage + 1 })

/-- The message of a draft. -/
def messageOf (w : World) (draft : Draft) : Context × World :=
  let (id, w) := w.freshId
  (draft.message id, w)

end World

end SoapPipeline.Scenario
