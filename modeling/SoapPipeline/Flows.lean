/-
  SoapPipeline.Flows

  What a service or the engine contributes to the chains: descriptors for each
  direction, the specifications that they are made from, and the three chains
  that they resolve to.
-/

import SoapPipeline.Chain

namespace SoapPipeline

/-! ## Descriptors by direction -/

/-- Descriptors for each direction, in the order of their declaration. -/
structure Flows where
  inbound : List Descriptor
  outbound : List Descriptor
  fault : List Descriptor
  deriving DecidableEq, Repr, Inhabited

namespace Flows

def empty : Flows := ⟨[], [], []⟩

def forFlow (f : Flows) : Flow → List Descriptor
  | .inbound => f.inbound
  | .outbound => f.outbound
  | .fault => f.fault

/-- Declares one more descriptor for a direction. -/
def push (f : Flows) (flow : Flow) (d : Descriptor) : Flows :=
  match flow with
  | .inbound => { f with inbound := f.inbound ++ [d] }
  | .outbound => { f with outbound := f.outbound ++ [d] }
  | .fault => { f with fault := f.fault ++ [d] }

/-- All descriptors, direction after direction. -/
def all (f : Flows) : List Descriptor := f.inbound ++ f.outbound ++ f.fault

/-- The instances that are not among those seen, each with the name under which it
comes first. -/
def instancesBeyond : List Handler → List Descriptor → List (QName × Handler)
  | _, [] => []
  | seen, d :: rest =>
    if d.handler ∈ seen then instancesBeyond seen rest
    else (d.name, d.handler) :: instancesBeyond (d.handler :: seen) rest

/-- The instances over all directions, each once, in the order in which they come
first. -/
def instances (f : Flows) : List (QName × Handler) :=
  instancesBeyond [] f.all

/-- The instances without their names. -/
def handlers (f : Flows) : List Handler := f.instances.map Prod.snd

end Flows

/-! ## Specifications -/

/-- A handler as a deployer declares it; without a name it will be given one. -/
structure HandlerSpec where
  name : Option QName
  handler : Handler
  rule : Rule
  options : Options
  deriving DecidableEq, Repr, Inhabited

/-- A service to be deployed.  No operations mean that every operation is offered. -/
structure ServiceSpec where
  name : QName
  operations : List QName
  inbound : List HandlerSpec
  outbound : List HandlerSpec
  fault : List HandlerSpec
  deriving DecidableEq, Repr, Inhabited

/-! ## Naming -/

/-- Gives names to handlers that have none, counting them. -/
structure Namer where
  /-- How many names have been given.  This is a number of 64 bits without a bound, as the bound is
  out of reach: a name is given when a handler is described, so that a run would have to describe
  `2 ^ 64` handlers one by one to get there. -/
  given : Nat
  deriving DecidableEq, Repr, Inhabited

namespace Namer

def start : Namer := ⟨0⟩

/-- The name that is given as the `n`-th one. -/
def nameOf (n : Nat) : QName := QName.unqualified ("handler-" ++ toString n)

/-- The descriptor of a specification. -/
def describe (namer : Namer) (spec : HandlerSpec) : Descriptor × Namer :=
  match spec.name with
  | some name => (⟨name, spec.handler, spec.options, spec.rule⟩, namer)
  | none =>
    (⟨nameOf (namer.given + 1), spec.handler, spec.options, spec.rule⟩, ⟨namer.given + 1⟩)

/-- The descriptors of specifications, one after the other. -/
def describeAll : Namer → List HandlerSpec → List Descriptor × Namer
  | namer, [] => ([], namer)
  | namer, spec :: rest =>
    let (d, namer) := namer.describe spec
    let (ds, namer) := describeAll namer rest
    (d :: ds, namer)

/-- The descriptors of a service, direction after direction. -/
def describeService (namer : Namer) (spec : ServiceSpec) : Flows × Namer :=
  let (inbound, namer) := namer.describeAll spec.inbound
  let (outbound, namer) := namer.describeAll spec.outbound
  let (fault, namer) := namer.describeAll spec.fault
  (⟨inbound, outbound, fault⟩, namer)

end Namer

/-! ## The chains of a scope -/

/-- The chains of all three directions. -/
structure Chains where
  inbound : Chain
  outbound : Chain
  fault : Chain
  deriving DecidableEq, Repr, Inhabited

/-- Why something could not be deployed. -/
inductive DeployError where
  | resolution (scope : Scope) (flow : Flow) (source : ResolutionError)
  | handlerInit (handler : QName) (source : Failure)
  | notDeployed (service : QName)

/-- A scope as it is named in messages. -/
def Scope.text : Scope → String
  | .engine => "the engine"
  | .service name => "service " ++ name.text

/-- The message that reports a deployment error. -/
def DeployError.message : DeployError → String
  | .resolution scope flow source =>
    "cannot resolve the " ++ flow.text ++ " chain of " ++ scope.text ++ ": " ++ source.message
  | .handlerInit handler source =>
    "handler " ++ handler.text ++ " failed to initialize: " ++ source.outermost
  | .notDeployed service => "service " ++ service.text ++ " is not deployed"

namespace Chains

def forFlow (c : Chains) : Flow → Chain
  | .inbound => c.inbound
  | .outbound => c.outbound
  | .fault => c.fault

/-- The chain of one direction: global handlers first, then the scope's own. -/
def buildFlow (order : PhaseOrder) (scope : Scope) (globals own : Flows) (flow : Flow) :
    Except DeployError Chain :=
  match Chain.build order flow scope (globals.forFlow flow ++ own.forFlow flow) with
  | .ok chain => .ok chain
  | .error source => .error (.resolution scope flow source)

/-- The chains of a scope. -/
def build (order : PhaseOrder) (scope : Scope) (globals own : Flows) :
    Except DeployError Chains := do
  return {
    inbound := ← buildFlow order scope globals own .inbound
    outbound := ← buildFlow order scope globals own .outbound
    fault := ← buildFlow order scope globals own .fault }

end Chains

end SoapPipeline
