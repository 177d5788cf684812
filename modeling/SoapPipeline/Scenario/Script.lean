/-
  SoapPipeline.Scenario.Script

  Scripts: handlers and deployments written down as data.

  A script says what a handler does to the messages that it is called with, so
  that a whole run of an engine can be given as data.  A handler of a script
  may also act on an engine itself, by a step, while a message is running.
-/

import SoapPipeline.Execution

namespace SoapPipeline.Scenario

/-! ## Messages -/

/-- A message before it is made: everything but its id. -/
structure Draft where
  engineId : String
  service : QName
  operation : QName
  flow : Flow
  payload : Payload
  headers : List (QName × Bool)
  properties : Table Value
  response : Option Payload
  fault : Option Fault
  extractor : Option CodeExtractor
  deriving Inhabited

/-- The message that a draft describes. -/
def Draft.message (d : Draft) (id : MessageId) : Context :=
  { Context.fresh id d.service d.operation d.flow d.payload with
    engineId := d.engineId
    headers := d.headers.map fun (name, must) => ⟨name, must, false⟩
    properties := d.properties
    response := d.response
    fault := d.fault
    extractor := d.extractor }

/-! ## Conditions -/

/-- What a script may ask about a message. -/
inductive Condition where
  | payload (p : Payload)
  | has (key : String)
  | flow (f : Flow)
  | operation (name : QName)
  /-- A fault is being handled whose code has this local part. -/
  | fault (localPart : String)

/-- Whether a message meets a condition. -/
def Condition.holds (ctx : Context) : Condition → Bool
  | .payload p => ctx.payload = p
  | .has key => (ctx.property? key).isSome
  | .flow f => ctx.flow = f
  | .operation name => ctx.operation = name
  | .fault localPart =>
    match ctx.fault with
    | some f => f.code.localPart = localPart
    | none => false

/-! ## Handlers, services and steps -/

/-- The kinds of handlers. -/
inductive Kind where
  /-- Notes all calls in the log and follows its scripts. -/
  | scripted
  /-- A function: notes and follows its script when invoked, and is deaf otherwise. -/
  | function
  /-- Answers every message with its own payload. -/
  | echo
  /-- Reports every message. -/
  | logging
  deriving DecidableEq, Repr, Inhabited

mutual

/-- One action of a script. -/
inductive Action where
  | setProperty (key : String) (value : Value)
  | removeProperty (key : String)
  | getProperty (key : String)
  /-- Adds one to an integer property, which counts as zero if it is none. -/
  | count (key : String)
  | setPayload (p : Payload)
  | setResponse (p : Option Payload)
  /-- Answers with the message's own payload. -/
  | echo
  | markHeader (name : QName)
  | addHeader (header : Header)
  | setFlow (f : Flow)
  | setService (name : QName)
  | setOperation (name : QName)
  | setEngineId (id : String)
  | setFault (f : Option Fault)
  /-- Puts the message as it is into the log. -/
  | note
  /-- Ends the script with a fault. -/
  | fail (f : Fault)
  /-- Ends the script. -/
  | stop (verdict : Verdict)
  /-- Breaks down. -/
  | breakDown
  /-- Takes longer than no time at all. -/
  | stall
  | branch (condition : Condition) (yes no : List Action)
  /-- Acts on an engine and puts the answer into the log. -/
  | act (step : Step)

/-- A handler as it is written down. -/
structure Definition where
  kind : Kind
  /-- The name in the log. -/
  label : Option String
  onInvoke : List Action
  onUndo : List Action
  /-- Why the handler does not get ready. -/
  initFailure : Option Failure
  understood : List QName

/-- An instance of a handler: one that has a name of its own and is shared, or a new
one. -/
inductive Source where
  | shared (id : String)
  | inline (definition : Definition)

/-- An option value of a handler. -/
inductive OptionSource where
  | text (s : String)
  | handler (source : Source)

/-- A handler to be declared. -/
structure SpecSource where
  source : Source
  name : Option QName
  rule : Rule
  options : List (String × OptionSource)

/-- A service to be deployed. -/
structure ServiceSource where
  name : QName
  operations : List QName
  inbound : List SpecSource
  outbound : List SpecSource
  fault : List SpecSource

/-- What can be done to an engine at once. -/
inductive Step where
  /-- Deploys a service; the deployment may be held under a name. -/
  | deploy (engine : String) (service : ServiceSource) (hold : Option String)
  | engage (engine : String) (flow : Flow) (spec : SpecSource)
  | undeploy (engine : String) (service : QName)
  | shutdown (engine : String)
  | dispatch (engine : String) (message : Draft)
  | receive (engine : String) (message : Draft)
  /-- Shows the chains of a service, or the global ones. -/
  | chains (engine : String) (service : Option QName)
  | services (engine : String)
  | describe (engine : String)
  /-- Keeps the chains that are published now under a name. -/
  | holdChains (engine : String) (service : Option QName) (name : String)
  /-- Shows what is held under a name. -/
  | held (name : String)
  /-- Lets go of what is held under a name. -/
  | drop (name : String)

end

/-- The definition of a shared handler that nothing is said about. -/
def Definition.plain : Definition :=
  ⟨.scripted, none, [], [], none, []⟩

end SoapPipeline.Scenario
