/-
  SoapPipeline.Graph

  Directed graphs over the numbers below their size, given by the successors
  of every node.  Edges may run in parallel and from a node to itself.

  Three searches over them:
    * `findCycle?`: a depth-first search that reports the first cycle it meets;
    * `order?`: all nodes in an order in which every edge points forward, the
      least ready node next, if there is such an order;
    * `reaches`: whether a path leads from one node to another.
  Each search keeps what it has not visited as a list that shrinks, so that its
  end does not hang on the graph.
-/

namespace SoapPipeline

/-- The successors of every node. -/
abbrev Graph := List (List Nat)

namespace Graph

/-- The number of nodes. -/
def size (g : Graph) : Nat := g.length

/-- The nodes in ascending order. -/
def nodes (g : Graph) : List Nat := List.range g.size

/-- The successors of a node in the order of its edges. -/
def successors (g : Graph) (node : Nat) : List Nat := g.getD node []

/-- The graph with these edges, each an origin and a target. -/
def ofEdges (size : Nat) (edges : List (Nat × Nat)) : Graph :=
  (List.range size).map fun node =>
    edges.filterMap fun (origin, target) => if origin = node then some target else none

/-! ## Cycles -/

/-- A node on the current path, with the successors still to be tried. -/
abbrev Frame := Nat × List Nat

/-- The work that frames still hold. -/
def workOf : List Frame → Nat
  | [] => 0
  | (_, rest) :: frames => rest.length + 1 + workOf frames

/-- The nodes of the path that frames are, last one first. -/
def pathOf (frames : List Frame) : List Nat := frames.map Prod.fst

/-- Goes on with a depth-first search.  `fresh` holds the nodes not visited yet and
`frames` the current path, last node first; a visited node off the path is done with.
An edge back to the path closes a cycle, reported from the node that it meets. -/
def search (g : Graph) (fresh : List Nat) (frames : List Frame) : Option (List Nat) :=
  match frames with
  | [] =>
    match fresh with
    | [] => none
    | node :: fresh => search g fresh [(node, g.successors node)]
  | (_, []) :: frames => search g fresh frames
  | (node, next :: rest) :: frames =>
    if next ∈ node :: pathOf frames then
      some (next :: ((node :: pathOf frames).takeWhile (· ≠ next)).reverse ++ [next])
    else if next ∈ fresh then
      search g (fresh.erase next) ((next, g.successors next) :: (node, rest) :: frames)
    else search g fresh ((node, rest) :: frames)
termination_by (fresh.length, workOf frames)
decreasing_by
  · exact Prod.Lex.left _ _ (by simp)
  · exact Prod.Lex.right _ (by simp [workOf])
  · rename_i h
    exact Prod.Lex.left _ _ (by
      have := List.length_pos_of_mem h
      rw [List.length_erase_of_mem h]
      omega)
  · exact Prod.Lex.right _ (by simp [workOf])

/-- The first cycle that a depth-first search over the nodes in ascending order meets,
with its first node repeated at the end. -/
def findCycle? (g : Graph) : Option (List Nat) :=
  search g g.nodes []

/-! ## Orders -/

/-- How far an order has come: how many edges from unplaced nodes enter each node, the
nodes that none enters in ascending order, and the nodes placed so far, last one first. -/
structure Placing where
  degrees : List Nat
  ready : List Nat
  placed : List Nat
  deriving DecidableEq, Repr

namespace Placing

/-- How many edges enter a node. -/
def degreeIn (g : Graph) (node : Nat) : Nat :=
  g.flatten.count node

/-- Puts a node among the ready ones at its place. -/
def insertReady (node : Nat) : List Nat → List Nat
  | [] => [node]
  | n :: rest =>
    if node < n then node :: n :: rest
    else if node = n then n :: rest
    else n :: insertReady node rest

/-- Nothing placed. -/
def start (g : Graph) : Placing :=
  let degrees := g.nodes.map (degreeIn g)
  ⟨degrees, g.nodes.filter fun node => degrees.getD node 0 = 0, []⟩

/-- Drops one edge into a node; the node is ready when it was the last one. -/
def dropEdge (p : Placing) (target : Nat) : Placing :=
  let degree := p.degrees.getD target 0 - 1
  let p := { p with degrees := p.degrees.set target degree }
  if degree = 0 then { p with ready := insertReady target p.ready } else p

/-- Places the least ready node, if there is one, and drops its edges. -/
def step? (g : Graph) (p : Placing) : Option Placing :=
  match p.ready with
  | [] => none
  | node :: ready =>
    some ((g.successors node).foldl dropEdge { p with ready, placed := node :: p.placed })

/-- Places at most so many nodes. -/
def run (g : Graph) : Nat → Placing → Placing
  | 0, p => p
  | n + 1, p =>
    match p.step? g with
    | some p => run g n p
    | none => p

end Placing

/-- All nodes in an order in which every edge points forward, always with the least
node that is ready.  There is none if the graph has a cycle. -/
def order? (g : Graph) : Option (List Nat) :=
  let p := Placing.run g g.size (Placing.start g)
  if p.placed.length = g.size then some p.placed.reverse else none

/-! ## Paths -/

/-- Goes on with a search for `target` from the nodes of `stack`; `fresh` holds the nodes
not expanded yet. -/
def searchFor (g : Graph) (target : Nat) (fresh stack : List Nat) : Bool :=
  match stack with
  | [] => false
  | node :: stack =>
    if node = target then true
    else if node ∈ fresh then
      searchFor g target (fresh.erase node) ((g.successors node).reverse ++ stack)
    else searchFor g target fresh stack
termination_by (fresh.length, stack.length)
decreasing_by
  · rename_i h
    exact Prod.Lex.left _ _ (by
      have := List.length_pos_of_mem h
      rw [List.length_erase_of_mem h]
      omega)
  · exact Prod.Lex.right _ (by simp)

/-- Whether a path, possibly of no edge, leads from `origin` to `target`. -/
def reaches (g : Graph) (origin target : Nat) : Bool :=
  searchFor g target g.nodes [origin]

/-- Whether every element of a sequence reaches the next one. -/
def isChain (g : Graph) : List Nat → Bool
  | a :: b :: rest => g.reaches a b && isChain g (b :: rest)
  | _ => true

end Graph

end SoapPipeline
