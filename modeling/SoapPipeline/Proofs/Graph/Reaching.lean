/-
  SoapPipeline.Proofs.Graph.Reaching

  The search for a path round by round: that it ends, and what it answers.

  A round takes the top of the stack.  A node that is fresh leaves all its successors on
  the stack, also those that wait there already or are no longer fresh; any other node
  leaves nothing.  So the stack may grow beyond the nodes of the graph, and neither it nor
  the fresh nodes shrink in every round.  What stays the same is the sum of the rounds
  gone by, the nodes that wait and the edges that leave fresh nodes, since an edge brings
  a node onto the stack at most once.

  Main results:
    * `Visits.spent`: that sum is one more than the number of edges;
    * `Visits.lt_size`: only nodes of the graph wait;
    * `Visits.searchFor_eq`: what the search goes on to answer stays the same;
    * `exists_end`: a search comes to a round that is its last;
    * `path_search_decides`: searches end and find walks, and chains are the sequences in
      which walks lead from every element to every later one.
-/
import SoapPipeline.Proofs.Graph.Walks

namespace SoapPipeline

namespace Graph

open Relation

variable {g : Graph} {origin target rounds node : Nat} {fresh stack : List Nat}

/-! ## Rounds of the search -/

/-- The moments that the search for a path from `origin` to `target` passes through: the number
of rounds gone by, the nodes not expanded yet and the stack. -/
inductive Visits (g : Graph) (origin target : Nat) : Nat → List Nat → List Nat → Prop
  | start : Visits g origin target 0 g.nodes [origin]
  | expand {rounds node : Nat} {fresh stack : List Nat}
      (h : Visits g origin target rounds fresh (node :: stack)) (hne : node ≠ target)
      (hfresh : node ∈ fresh) :
      Visits g origin target (rounds + 1) (fresh.erase node)
        ((g.successors node).reverse ++ stack)
  | skip {rounds node : Nat} {fresh stack : List Nat}
      (h : Visits g origin target rounds fresh (node :: stack)) (hne : node ≠ target)
      (hseen : node ∉ fresh) :
      Visits g origin target (rounds + 1) fresh stack

/-- The edges out of a fresh node are set apart from those out of the others. -/
theorem length_flatMap_erase (hfresh : node ∈ fresh) :
    (fresh.flatMap g.successors).length =
      (g.successors node).length + ((fresh.erase node).flatMap g.successors).length := by
  have hperm := (List.perm_cons_erase hfresh).flatMap_right g.successors
  rw [hperm.length_eq, List.flatMap_cons, List.length_append]

namespace Visits

/-- A round goes by for every node that leaves the stack, and a node comes onto the stack for
every edge that leaves a node expanded. -/
theorem spent (h : Visits g origin target rounds fresh stack) :
    rounds + stack.length + (fresh.flatMap g.successors).length = g.flatten.length + 1 := by
  induction h with
  | start =>
    rw [flatMap_successors_nodes, List.length_singleton]
    omega
  | expand h hne hfresh ih =>
    have hedges := length_flatMap_erase (g := g) hfresh
    rw [List.length_cons] at ih
    rw [List.length_append, List.length_reverse]
    omega
  | skip h hne hseen ih =>
    rw [List.length_cons] at ih
    omega

/-- Only nodes of the graph wait. -/
theorem lt_size (h : Visits g origin target rounds fresh stack) (hg : g.InRange)
    (horigin : origin < g.size) : ∀ node ∈ stack, node < g.size := by
  induction h with
  | start =>
    intro n hn
    rw [List.mem_singleton.mp hn]
    exact horigin
  | @expand _ node _ _ h hne hfresh ih =>
    intro n hn
    rcases List.mem_append.mp hn with hn | hn
    · have hedge : g.Edge node n := List.mem_reverse.mp hn
      exact hg node n hedge
    · exact ih n (List.mem_cons_of_mem node hn)
  | skip h hne hseen ih =>
    intro n hn
    exact ih n (List.mem_cons_of_mem _ hn)

/-- What the search goes on to answer is the same in every round. -/
theorem searchFor_eq (h : Visits g origin target rounds fresh stack) :
    searchFor g target fresh stack = g.reaches origin target := by
  induction h with
  | start => rfl
  | expand h hne hfresh ih => rw [← ih, searchFor, if_neg hne, if_pos hfresh]
  | skip h hne hseen ih => rw [← ih, searchFor, if_neg hne, if_neg hseen]

/-- Where nothing waits, no walk is found. -/
theorem reaches_eq_false (h : Visits g origin target rounds fresh []) :
    g.reaches origin target = false := by
  rw [← h.searchFor_eq, searchFor]

/-- Where the target is on top of the stack, a walk is found. -/
theorem reaches_eq_true (h : Visits g origin target rounds fresh (target :: stack)) :
    g.reaches origin target = true := by
  rw [← h.searchFor_eq, searchFor, if_pos rfl]

/-- A search that is at no end has one more round. -/
theorem next (h : Visits g origin target rounds fresh stack) (hnil : stack ≠ [])
    (hhead : stack.head? ≠ some target) :
    ∃ fresh stack, Visits g origin target (rounds + 1) fresh stack := by
  cases stack with
  | nil => exact absurd rfl hnil
  | cons node stack =>
    have hne : node ≠ target := by
      intro heq
      exact hhead (by rw [heq, List.head?_cons])
    by_cases hfresh : node ∈ fresh
    · exact ⟨_, _, h.expand hne hfresh⟩
    · exact ⟨_, _, h.skip hne hfresh⟩

end Visits

/-! ## The end of the search -/

/-- A search ends: there are no more rounds than the edges allow. -/
theorem exists_end (g : Graph) (origin target : Nat) :
    ∃ rounds fresh stack, Visits g origin target rounds fresh stack ∧
      (stack = [] ∨ stack.head? = some target) := by
  by_contra hnone
  have hgoes : ∀ rounds, ∃ fresh stack, Visits g origin target rounds fresh stack := by
    intro rounds
    induction rounds with
    | zero => exact ⟨_, _, Visits.start⟩
    | succ rounds ih =>
      obtain ⟨fresh, stack, h⟩ := ih
      refine h.next ?_ ?_
      · exact fun hnil => hnone ⟨rounds, fresh, stack, h, Or.inl hnil⟩
      · exact fun hhead => hnone ⟨rounds, fresh, stack, h, Or.inr hhead⟩
  obtain ⟨fresh, stack, h⟩ := hgoes (g.flatten.length + 2)
  have hspent := h.spent
  omega

/-- In a chain walks lead from every element to every later one. -/
theorem isChain_iff_walks {l : List Nat} :
    g.isChain l = true ↔ l.Pairwise (ReflTransGen g.Edge) := by
  rw [isChain_iff_pairwise]
  exact List.Pairwise.iff fun a b => reaches_iff

/-- From a node of the graph the search for a path goes through no more rounds than there are
edges, and one for the node itself, with nodes of the graph on its stack only and with
the same answer ahead, and comes to an end: either nothing waits, or the target is met.
It answers whether a walk, possibly of no edge, leads to the target.  So a sequence is a
chain exactly when walks lead from every element to every later one. -/
theorem path_search_decides (hg : g.InRange) :
    (∀ origin target, origin < g.size →
      (∀ rounds fresh stack, Visits g origin target rounds fresh stack →
        rounds + stack.length ≤ g.flatten.length + 1 ∧ (∀ node ∈ stack, node < g.size) ∧
          searchFor g target fresh stack = g.reaches origin target) ∧
      (∃ rounds fresh stack, Visits g origin target rounds fresh stack ∧
        (stack = [] ∧ g.reaches origin target = false ∨
          stack.head? = some target ∧ g.reaches origin target = true)) ∧
      (g.reaches origin target = true ↔ ReflTransGen g.Edge origin target)) ∧
    ∀ l, g.isChain l = true ↔ l.Pairwise (ReflTransGen g.Edge) := by
  refine ⟨fun origin target horigin => ⟨?_, ?_, reaches_iff⟩, fun l => isChain_iff_walks⟩
  · intro rounds fresh stack h
    have hspent := h.spent
    exact ⟨by omega, h.lt_size hg horigin, h.searchFor_eq⟩
  · obtain ⟨rounds, fresh, stack, h, hend⟩ := exists_end g origin target
    refine ⟨rounds, fresh, stack, h, ?_⟩
    rcases hend with rfl | hhead
    · exact Or.inl ⟨rfl, h.reaches_eq_false⟩
    · obtain ⟨rest, rfl⟩ := List.head?_eq_some_iff.mp hhead
      exact Or.inr ⟨hhead, h.reaches_eq_true⟩

/-- A graph with cycles, parallel edges and edges from a node to itself. -/
def knot : Graph := [[1, 1], [2, 0], [2, 0, 2], [1]]

/-- No edge of the knot leads to its last node: a search for it from another node ends when
nothing waits any more.  From the last node walks lead to all others, one after the other. -/
theorem knot_searched :
    InRange knot ∧ 0 < knot.size ∧ (∃ rounds fresh, Visits knot 0 3 rounds fresh []) ∧
      ¬ ReflTransGen knot.Edge 0 3 ∧ [3, 0, 2, 1].Pairwise (ReflTransGen knot.Edge) := by
  have hrange : InRange knot := inRange_iff.mpr (by decide)
  have hmissed : knot.reaches 0 3 = false := by cbv
  have hchain : knot.isChain [3, 0, 2, 1] = true := by cbv
  obtain ⟨hsearch, hchains⟩ := path_search_decides hrange
  obtain ⟨-, ⟨rounds, fresh, stack, h, hend⟩, hwalks⟩ := hsearch 0 3 (by decide)
  rw [hmissed] at hend hwalks
  refine ⟨hrange, by decide, ?_, ?_, (hchains [3, 0, 2, 1]).mp hchain⟩
  · rcases hend with ⟨rfl, -⟩ | ⟨-, hfound⟩
    · exact ⟨rounds, fresh, h⟩
    · cases hfound
  · exact fun hwalk => Bool.false_ne_true (hwalks.mpr hwalk)

end Graph

end SoapPipeline
