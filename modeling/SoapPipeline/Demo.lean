/-
  SoapPipeline.Demo

  The demonstration: an echo service on one engine, called from another one in
  the same process.
-/

import SoapPipeline.Scenario.Clock

namespace SoapPipeline.Demo

open Scenario

/-! ## Arguments -/

/-- What the command line asks for. -/
structure Arguments where
  message : String
  /-- Uses a callback instead of waiting for the response. -/
  nonBlocking : Bool
  /-- Has the server reject the message. -/
  reject : Bool
  /-- Has the server answer in place of a rejection. -/
  absorb : Bool
  /-- The file that holds the configuration. -/
  config : Option String
  format : LogFormat
  deriving DecidableEq, Repr, Inhabited

/-- The arguments that hold where nothing is said. -/
def Arguments.standard : Arguments where
  message := "Isaac Asimov, The Foundation Trilogy"
  nonBlocking := false
  reject := false
  absorb := false
  config := none
  format := .pretty

/-- An option that takes a value. -/
inductive Valued where
  | message
  | config
  | format
  deriving DecidableEq, Repr

/-- The option of a word. -/
def valued? : String → Option Valued
  | "-m" | "--message" => some .message
  | "-c" | "--config" => some .config
  | "--log-format" => some .format
  | _ => none

/-- Sets the value of an option. -/
def Arguments.set? (a : Arguments) (option : Valued) (value : String) : Option Arguments :=
  match option with
  | .message => some { a with message := value }
  | .config => some { a with config := some value }
  | .format => (LogFormat.ofText? value).map fun format => { a with format }

/-- Cuts a long option from the value behind an equals sign, and a short one from the
value that follows it at once. -/
def attached? (word : String) : Option (Valued × String) :=
  match word.toList with
  | '-' :: '-' :: _ =>
    match QName.cutAt '=' word.toList with
    | some (option, value) =>
      (valued? (String.ofList option)).map fun v => (v, String.ofList value)
    | none => none
  | '-' :: letter :: value =>
    (valued? (String.ofList ['-', letter])).map fun v =>
      (v, String.ofList (if value.head? = some '=' then value.drop 1 else value))
  | _ => none

/-- Reads the words of a command line. -/
def readFrom (a : Arguments) : List String → Option Arguments
  | [] => some a
  | "--non-blocking" :: rest => readFrom { a with nonBlocking := true } rest
  | "--reject" :: rest => readFrom { a with reject := true } rest
  | "--absorb" :: rest => readFrom { a with absorb := true } rest
  | [word] => do
    let (option, value) ← attached? word
    a.set? option value
  | word :: value :: rest =>
    match valued? word with
    | some option => do readFrom (← a.set? option value) rest
    | none => do
      let (option, attached) ← attached? word
      readFrom (← a.set? option attached) (value :: rest)

/-- Reads a command line. -/
def read? (words : List String) : Option Arguments :=
  readFrom Arguments.standard words

/-! ## Services -/

def service : QName := QName.unqualified "EchoXMLService"

def operation : QName := QName.unqualified "echoOMElement"

/-- A definition of this kind that does this when it is invoked. -/
def definition (kind : Kind) (onInvoke : List Action) : Definition :=
  ⟨kind, none, onInvoke, [], none, []⟩

/-- A handler to be declared. -/
def spec (name : Option String) (handler : Definition) (rule : Rule)
    (options : List (String × OptionSource)) : SpecSource :=
  ⟨.inline handler, name.map QName.unqualified, rule, options⟩

/-- The fault of a rejected message. -/
def rejection : Fault := ⟨⟨"urn:soapflow:demo", "BadInput"⟩, "message rejected", none⟩

/-- What the server deploys. -/
def serverService (a : Arguments) : ServiceSource :=
  let echo := spec (some "Echo") (definition .echo []) (Rule.inPhase "service") []
  let validate := spec (some "Validate") (definition .function [.fail rejection])
    { Rule.inPhase "service" with before := some "Echo" } []
  let apologize := spec (some "Apologize")
    (definition .function
      [.setResponse (some (Payload.ofText "sorry, try another message")), .stop .proceed])
    (Rule.inPhase "service") [("fault-BadInput", .text "apologize")]
  ⟨service, [operation], echo :: (if a.reject then [validate] else []), [],
    if a.absorb then [apologize] else []⟩

/-- What the client deploys. -/
def clientService : ServiceSource :=
  let logger := spec none (definition .logging []) (Rule.inPhase "global") []
  ⟨service, [], [logger], [logger], []⟩

/-- What sets up the two engines. -/
def serverSteps (a : Arguments) : List Step :=
  [.engage "server" .inbound
      (spec (some "ServerLog") (definition .logging []) (Rule.inPhase "transport") []),
    .deploy "server" (serverService a) none]

def clientSteps : List Step :=
  [.deploy "client" clientService none]

/-! ## Runs -/

/-- How a run ends. -/
structure Ended where
  exitCode : UInt32
  output : String
  errors : String
  deriving DecidableEq, Repr, Inhabited

/-- A run that ends well. -/
def succeeded (output : String) : Ended := ⟨0, output, ""⟩

/-- A run that ends with an error. -/
def failed (message : String) : Ended := ⟨1, "", "Error: " ++ message ++ "\n"⟩

/-- A run that breaks off. -/
def brokenOff (message : String) : Ended := ⟨101, "", message ++ "\n"⟩

/-- Takes steps as long as none is refused. -/
def takeAll : List Step → Play (Option DeployError)
  | [] => return none
  | step :: rest => do
    match ← takeStep step with
    | .refused error => return some error
    | _ => takeAll rest

/-- Adds an engine and sets it up. -/
def setUp (name : String) (config : Config) (steps : List Step) : Play (Option DeployError) := do
  match Engine.new { config with engineId := config.engineId ++ "-" ++ name } with
  | .error error => return some error
  | .ok e =>
    modify fun w => { w with engines := World.put name e w.engines }
    takeAll steps

/-- The call that the demonstration makes. -/
def call (a : Arguments) : CallSource where
  engine := "client"
  transport := "loop"
  settings := ⟨service, [], none⟩
  operation := operation
  payload := Payload.ofText a.message

/-- What is printed for the result of a call. -/
def present : CallResult → Ended
  | .ok response => succeeded ((response.payload.text?.getD "<binary>") ++ "\n")
  | .error (.fault f) => succeeded (f.message ++ "\n")
  | .error e => failed e.message

/-- Calls the service. -/
def makeCall (a : Arguments) : Play Ended := do
  if a.nonBlocking then
    match ← takeTimedStep (.invokeAsync (call a) "demo") with
    | .overflow => return brokenOff Config.overflowMessage
    | _ =>
      let _ ← takeTimedStep (.wait "demo")
      return succeeded ""
  else
    match ← takeTimedStep (.invoke (call a)) with
    | .response result => return present result
    | .overflow => return brokenOff Config.overflowMessage
    | _ => return failed ""

/-- Sets up both engines and calls the service. -/
def play (a : Arguments) (config : Config) : Play Ended := do
  match ← setUp "server" config (serverSteps a) with
  | some error => return failed error.message
  | none =>
    match ← setUp "client" config clientSteps with
    | some error => return failed error.message
    | none => makeCall a

/-- Runs the demonstration.  `config` is the text of the configuration, if there is
one. -/
def run (a : Arguments) (config : Option String) : Ended :=
  let read : Option Config := match config with
    | none => some Config.standard
    | some text => Config.parse? text
  match read with
  | none => failed "parsing config"
  | some config =>
    let world := { World.empty [] with transports := [("loop", .loopback "server")] }
    match (play a config).run world with
    | (some ended, _) => ended
    | (none, _) => failed ""

end SoapPipeline.Demo
