/-
  SoapPipeline.Phase

  Phases: named lists of handlers in the order in which they run.

  The order is not declared but resolved from the rules of the handlers.
  Declared constraints (a handler before or after another one) and the flags
  for the head and the tail of the phase become edges of a graph over the
  places in the declaration, and the handlers run in the order of that graph,
  those declared earlier first where the rules leave a choice.  The head and
  the tail must not be left to choice.
-/

import SoapPipeline.Graph
import SoapPipeline.Handler
import SoapPipeline.ResolutionError

namespace SoapPipeline

/-! ## Rules by themselves -/

/-- Refuses a rule that contradicts itself, whatever the other handlers are. -/
def Rule.check (r : Rule) (handler : String) : Except ResolutionError Unit :=
  if r.phase.isEmpty then .error (.ruleConflict handler .noPhase)
  else if r.before = some handler ∨ r.after = some handler then
    .error (.ruleConflict handler .selfReference)
  else if r.before.isSome ∧ r.before = r.after then
    .error (.ruleConflict handler .sameOnBothSides)
  else if r.isSole ∧ (r.before.isSome ∨ r.after.isSome) then
    .error (.ruleConflict handler .notAlone)
  else .ok ()

/-- A resolved phase. -/
structure Phase where
  name : String
  handlers : List Descriptor
  deriving DecidableEq, Repr, Inhabited

namespace Phase

/-! ## Candidates -/

/-- Refuses the first candidate that cannot stand in the phase: for its own rule, for a
name that an earlier one has, or for wanting to be alone.  `seen` holds the names of
the earlier candidates and `count` the number of all. -/
def checkFrom (phase : String) (count : Nat) :
    List String → List Descriptor → Except ResolutionError Unit
  | _, [] => .ok ()
  | seen, d :: rest => do
    d.rule.check d.localName
    if d.rule.phase ≠ phase then
      throw (.ruleConflict d.localName (.wrongPhase d.rule.phase phase))
    if d.localName ∈ seen then throw (.duplicateHandler phase d.localName)
    if d.rule.isSole ∧ 1 < count then throw (.ruleConflict d.localName .notAlone)
    checkFrom phase count (d.localName :: seen) rest

/-- Refuses candidates that cannot stand in the phase together. -/
def checkAll (phase : String) (candidates : List Descriptor) : Except ResolutionError Unit :=
  checkFrom phase candidates.length [] candidates

/-- The place of the candidate with this name. -/
def placeOf? (candidates : List Descriptor) (name : String) : Option Nat :=
  candidates.findIdx? fun d => d.localName = name

/-- Whether the candidate at this place is to run first. -/
def isFirst (candidates : List Descriptor) (place : Nat) : Bool :=
  match candidates[place]? with
  | some d => d.rule.first
  | none => false

/-- Whether the candidate at this place is to run last. -/
def isLast (candidates : List Descriptor) (place : Nat) : Bool :=
  match candidates[place]? with
  | some d => d.rule.last
  | none => false

/-! ## Edges -/

/-- The edge for the handler that must run earlier than the candidate at `place`. -/
def afterEdge (phase : String) (candidates : List Descriptor) (place : Nat) (d : Descriptor) :
    Except ResolutionError (List (Nat × Nat)) :=
  match d.rule.after with
  | none => .ok []
  | some reference =>
    match placeOf? candidates reference with
    | none => .error (.unknownHandler phase d.localName reference)
    | some other =>
      if d.rule.first && !isFirst candidates other then
        .error (.ruleConflict d.localName (.firstAfter reference))
      else if isLast candidates other && !d.rule.last then
        .error (.ruleConflict d.localName (.afterLast reference))
      else .ok [(other, place)]

/-- The edge for the handler that must run later than the candidate at `place`. -/
def beforeEdge (phase : String) (candidates : List Descriptor) (place : Nat) (d : Descriptor) :
    Except ResolutionError (List (Nat × Nat)) :=
  match d.rule.before with
  | none => .ok []
  | some reference =>
    match placeOf? candidates reference with
    | none => .error (.unknownHandler phase d.localName reference)
    | some other =>
      if d.rule.last && !isLast candidates other then
        .error (.ruleConflict d.localName (.lastBefore reference))
      else if isFirst candidates other && !d.rule.first then
        .error (.ruleConflict d.localName (.beforeFirst reference))
      else .ok [(place, other)]

/-- The edges that the candidates from `place` on declare. -/
def edgesFrom (phase : String) (candidates : List Descriptor) :
    Nat → List Descriptor → Except ResolutionError (List (Nat × Nat))
  | _, [] => .ok []
  | place, d :: rest => do
    let after ← afterEdge phase candidates place d
    let before ← beforeEdge phase candidates place d
    let others ← edgesFrom phase candidates (place + 1) rest
    return after ++ before ++ others

/-- The graph of the declared constraints. -/
def declaredGraph (phase : String) (candidates : List Descriptor) :
    Except ResolutionError Graph := do
  let edges ← edgesFrom phase candidates 0 candidates
  return Graph.ofEdges candidates.length edges

/-- Whether the flags alone put one place ahead of another. -/
def flagsOrder (candidates : List Descriptor) (i j : Nat) : Bool :=
  i ≠ j && ((isFirst candidates i && !isFirst candidates j) ||
    (isLast candidates j && !isLast candidates i))

/-- Adds the edges that the flags imply. -/
def withFlags (candidates : List Descriptor) (declared : Graph) : Graph :=
  declared.nodes.map fun i =>
    declared.successors i ++ declared.nodes.filter (flagsOrder candidates i)

/-! ## Resolution -/

/-- The names of the candidates at these places. -/
def namesAt (candidates : List Descriptor) (places : List Nat) : List String :=
  places.filterMap fun i => (candidates[i]?).map Descriptor.localName

/-- The places of the candidates in the order in which they run. -/
def resolveOrder (phase : String) (candidates : List Descriptor) :
    Except ResolutionError (List Nat) := do
  checkAll phase candidates
  let declared ← declaredGraph phase candidates
  match declared.findCycle? with
  | some path => throw (.cycle phase (namesAt candidates path))
  | none =>
    match (withFlags candidates declared).order? with
    | none => throw (.cycle phase (candidates.map Descriptor.localName))
    | some order =>
      let firsts := order.filter (isFirst candidates)
      if !declared.isChain firsts then
        throw (.ambiguousFirst phase (namesAt candidates firsts))
      let lasts := order.filter (isLast candidates)
      if !declared.isChain lasts then
        throw (.ambiguousLast phase (namesAt candidates lasts))
      return order

/-- A phase without handlers. -/
def empty (name : String) : Phase := ⟨name, []⟩

/-- The phase of the candidates, which are given in the order of their declaration. -/
def resolve (name : String) (candidates : List Descriptor) : Except ResolutionError Phase := do
  let order ← resolveOrder name candidates
  return ⟨name, order.filterMap fun i => candidates[i]?⟩

/-- Resolves the phase again with one more handler, declared after the others. -/
def withHandler (p : Phase) (d : Descriptor) : Except ResolutionError Phase :=
  resolve p.name (p.handlers ++ [d])

def size (p : Phase) : Nat := p.handlers.length

def isEmpty (p : Phase) : Bool := p.handlers.isEmpty

/-- The local names of the handlers in the order in which they run. -/
def handlerNames (p : Phase) : List String := p.handlers.map Descriptor.localName

end Phase

end SoapPipeline
