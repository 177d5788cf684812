/-
  SoapPipeline.Chain

  Chains: the phases of one direction, for the whole engine or one service.

  A chain is resolved from an order of phases and a list of handlers, each of
  which goes into the phase that its rule names.
-/

import SoapPipeline.Context
import SoapPipeline.Phase

namespace SoapPipeline

/-! ## Phase orders -/

/-- The names of the phases in order, for each direction. -/
structure PhaseOrder where
  inbound : List String
  outbound : List String
  fault : List String
  deriving DecidableEq, Repr, Inhabited

namespace PhaseOrder

/-- Outbound messages and faults run the phases backwards. -/
def ofInbound (phases : List String) : PhaseOrder :=
  ⟨phases, phases.reverse, phases.reverse⟩

/-- Messages come in over the transport and end at the service. -/
def standard : PhaseOrder := ofInbound ["transport", "global", "service"]

def forFlow (o : PhaseOrder) : Flow → List String
  | .inbound => o.inbound
  | .outbound => o.outbound
  | .fault => o.fault

end PhaseOrder

/-! ## Chains -/

/-- What a chain belongs to. -/
inductive Scope where
  | engine
  | service (name : QName)
  deriving DecidableEq, Repr, Inhabited

/-- The phases of one direction. -/
structure Chain where
  flow : Flow
  scope : Scope
  phases : List Phase
  deriving DecidableEq, Repr, Inhabited

namespace Chain

/-- A chain of empty phases. -/
def ofPhaseNames (flow : Flow) (scope : Scope) (names : List String) : Chain :=
  ⟨flow, scope, names.map Phase.empty⟩

def phase? (c : Chain) (name : String) : Option Phase :=
  c.phases.find? fun p => p.name = name

def phaseNames (c : Chain) : List String := c.phases.map Phase.name

/-- All handlers in the order in which they run. -/
def handlers (c : Chain) : List Descriptor := c.phases.flatMap Phase.handlers

/-- The local names of the handlers in the order in which they run. -/
def handlerNames (c : Chain) : List String := c.handlers.map Descriptor.localName

def size (c : Chain) : Nat := c.handlers.length

def isEmpty (c : Chain) : Bool := c.size = 0

/-- Whether any handler of the chain understands header blocks of this name. -/
def understands (c : Chain) (name : QName) : Bool :=
  c.handlers.any fun d => d.handler.understands name

/-! ## Resolution -/

/-- Refuses an order that repeats a phase. -/
def checkOrder : List String → List String → Except ResolutionError Unit
  | _, [] => .ok ()
  | seen, name :: rest =>
    if name ∈ seen then .error (.duplicatePhase name)
    else checkOrder (name :: seen) rest

/-- The handlers that target a phase, in the order of their declaration. -/
def targeting (phase : String) (handlers : List Descriptor) : List Descriptor :=
  handlers.filter fun d => d.rule.phase = phase

/-- The chain with one phase for every name of the order. -/
def resolve (flow : Flow) (scope : Scope) (order : List String) (handlers : List Descriptor) :
    Except ResolutionError Chain := do
  checkOrder [] order
  match handlers.find? fun d => d.rule.phase ∉ order with
  | some stray => throw (.undeclaredPhase stray.name.text stray.rule.phase)
  | none =>
    let phases ← order.mapM fun name => Phase.resolve name (targeting name handlers)
    return ⟨flow, scope, phases⟩

/-- Resolves the chain of a direction over the phases of that direction. -/
def build (order : PhaseOrder) (flow : Flow) (scope : Scope) (handlers : List Descriptor) :
    Except ResolutionError Chain :=
  resolve flow scope (order.forFlow flow) handlers

/-- Adds a handler to the first phase of the name that its rule gives. -/
def addToPhases (d : Descriptor) : List Phase → Except ResolutionError (List Phase)
  | [] => .error (.undeclaredPhase d.name.text d.rule.phase)
  | p :: rest =>
    if p.name = d.rule.phase then do
      let p ← p.withHandler d
      return p :: rest
    else do
      let rest ← addToPhases d rest
      return p :: rest

/-- Adds a handler to its phase and resolves that phase again. -/
def addHandler (c : Chain) (d : Descriptor) : Except ResolutionError Chain := do
  let phases ← addToPhases d c.phases
  return { c with phases }

/-- Adds a handler in place to the first phase of the name that its rule gives.  A phase that
does not take the handler stays as it was, as all others do. -/
def addInPlace (d : Descriptor) : List Phase → Except ResolutionError Unit × List Phase
  | [] => (.error (.undeclaredPhase d.name.text d.rule.phase), [])
  | p :: rest =>
    if p.name = d.rule.phase then
      match p.withHandler d with
      | .ok q => (.ok (), q :: rest)
      | .error e => (.error e, p :: rest)
    else
      let (outcome, rest) := addInPlace d rest
      (outcome, p :: rest)

/-- Adds a handler to a chain that is not shared yet, in place. -/
def add (c : Chain) (d : Descriptor) : Except ResolutionError Unit × Chain :=
  let (outcome, phases) := addInPlace d c.phases
  (outcome, { c with phases })

end Chain

end SoapPipeline
