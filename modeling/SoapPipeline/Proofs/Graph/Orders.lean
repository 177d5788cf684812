/-
  SoapPipeline.Proofs.Graph.Orders

  Orders in which every edge points forward, and the least of them.

  A node is ready when all its predecessors are placed.  A forward order places
  ready nodes only; a greedy one places the least of them each time, so that it
  comes first among all forward orders when they are compared place by place.

  Main results:
    * `Greedy.eq_or_lt`: a greedy order is the least of all forward orders;
    * `Greedy.ahead_of_preds`: nodes with nothing between them stay in order;
    * `forward_iff_of_perm`: the complete forward orders are those in which every
      edge points forward;
    * `exists_ready`: in an acyclic graph no placing gets stuck.
-/
import Mathlib.Data.List.Perm.Subperm
import Mathlib.Data.List.Nodup
import Mathlib.Data.Fintype.EquivFin
import Mathlib.Order.WellFounded
import SoapPipeline.Proofs.Ahead
import SoapPipeline.Proofs.Graph.Walks

namespace SoapPipeline

namespace Graph

open Relation

variable {g : Graph}

/-! ## Ready nodes -/

/-- The node is not placed, and all its predecessors are. -/
structure Ready (g : Graph) (placed : List Nat) (node : Nat) : Prop where
  lt_size : node < g.size
  not_mem : node ∉ placed
  preds : ∀ a, g.Edge a node → a ∈ placed

/-- Every node of the order is ready when its turn comes. -/
def Forward (g : Graph) : List Nat → List Nat → Prop
  | _, [] => True
  | placed, node :: rest => Ready g placed node ∧ Forward g (node :: placed) rest

/-- Every node of the order is the least ready one when its turn comes. -/
def Greedy (g : Graph) : List Nat → List Nat → Prop
  | _, [] => True
  | placed, node :: rest =>
    Ready g placed node ∧ (∀ other, Ready g placed other → node ≤ other) ∧
      Greedy g (node :: placed) rest

theorem Greedy.forward {placed order : List Nat} (h : Greedy g placed order) :
    Forward g placed order := by
  induction order generalizing placed with
  | nil => trivial
  | cons node rest ih => exact ⟨h.1, ih h.2.2⟩

/-- Where two orders part, the greedy one goes on with the lesser node. -/
theorem Greedy.eq_or_lt {placed order other : List Nat} (h : Greedy g placed order)
    (hother : Forward g placed other) (hlength : order.length = other.length) :
    other = order ∨ order < other := by
  induction order generalizing placed other with
  | nil => exact Or.inl (List.length_eq_zero_iff.mp hlength.symm)
  | cons node rest ih =>
    cases other with
    | nil => exact absurd hlength (by simp)
    | cons node' rest' =>
      -- The head of `other` is ready too, so that it is not less than the greedy choice.
      rcases Nat.eq_or_lt_of_le (h.2.1 node' hother.1) with heq | hlt
      · subst heq
        rcases ih h.2.2 hother.2 (by simpa using hlength) with heq | hlt
        · exact Or.inl (by rw [heq])
        · exact Or.inr (List.cons_lt_cons_iff.mpr (Or.inr ⟨rfl, hlt⟩))
      · exact Or.inr (List.cons_lt_cons_iff.mpr (Or.inl hlt))

/-- Forward orders are those in which every edge into a node comes from ahead of it. -/
theorem forward_iff {placed order : List Nat} :
    Forward g placed order ↔
      order.Nodup ∧ (∀ node ∈ order, node < g.size ∧ node ∉ placed) ∧
        ∀ a node, node ∈ order → g.Edge a node → a ∈ placed ∨ Ahead order a node := by
  induction order generalizing placed with
  | nil => simp [Forward]
  | cons x rest ih =>
    constructor
    · -- For the rest `x` counts as placed; for the whole it is the head, ahead of all others.
      intro h
      obtain ⟨hx, hrest⟩ := h
      obtain ⟨hnodup, hfree, hedges⟩ := ih.mp hrest
      have hx_rest : x ∉ rest := fun hmem => (hfree x hmem).2 List.mem_cons_self
      refine ⟨List.nodup_cons.mpr ⟨hx_rest, hnodup⟩, ?_, ?_⟩
      · intro node hnode
        rcases List.mem_cons.mp hnode with rfl | hnode
        · exact ⟨hx.lt_size, hx.not_mem⟩
        · obtain ⟨hlt, hnot⟩ := hfree node hnode
          exact ⟨hlt, fun hmem => hnot (List.mem_cons_of_mem x hmem)⟩
      · intro a node hnode hedge
        rcases List.mem_cons.mp hnode with rfl | hlater
        · exact Or.inl (hx.preds a hedge)
        · rcases hedges a node hlater hedge with hmem | hahead
          · rcases List.mem_cons.mp hmem with rfl | hmem
            · exact Or.inr (Ahead.head_of_mem hlater)
            · exact Or.inl hmem
          · exact Or.inr (Ahead.cons_iff.mpr (Or.inr hahead))
    · intro h
      obtain ⟨hnodup, hfree, hedges⟩ := h
      obtain ⟨hx_rest, hnodup⟩ := List.nodup_cons.mp hnodup
      obtain ⟨hlt, hnot⟩ := hfree x List.mem_cons_self
      refine ⟨⟨hlt, hnot, ?_⟩, ih.mpr ⟨hnodup, ?_, ?_⟩⟩
      · -- Nothing of this order is ahead of its head.
        intro a hedge
        rcases hedges a x List.mem_cons_self hedge with hmem | hahead
        · exact hmem
        · rcases Ahead.cons_iff.mp hahead with ⟨-, hmem⟩ | hahead
          · exact absurd hmem hx_rest
          · exact absurd hahead.mem_right hx_rest
      · intro node hnode
        obtain ⟨hlt, hnot⟩ := hfree node (List.mem_cons_of_mem x hnode)
        refine ⟨hlt, fun hmem => ?_⟩
        rcases List.mem_cons.mp hmem with rfl | hmem
        · exact hx_rest hnode
        · exact hnot hmem
      · intro a node hnode hedge
        rcases hedges a node (List.mem_cons_of_mem x hnode) hedge with hmem | hahead
        · exact Or.inl (List.mem_cons_of_mem x hmem)
        · rcases Ahead.cons_iff.mp hahead with ⟨rfl, -⟩ | hahead
          · exact Or.inl List.mem_cons_self
          · exact Or.inr hahead

/-- Of two nodes a greedy order has the lesser one ahead if whatever enters it enters the other
one too. -/
theorem Greedy.ahead_of_preds {placed order : List Nat} {a b : Nat} (h : Greedy g placed order)
    (ha : a ∈ order) (hb : b ∈ order) (hlt : a < b)
    (hpreds : ∀ c, g.Edge c a → g.Edge c b) : Ahead order a b := by
  induction order generalizing placed with
  | nil => exact absurd ha List.not_mem_nil
  | cons node rest ih =>
    obtain ⟨-, hfree, -⟩ := forward_iff.mp h.forward
    obtain ⟨hready, hleast, hrest⟩ := h
    by_cases hnode : a = node
    · subst hnode
      have hb' : b ∈ rest := List.mem_of_ne_of_mem (by omega) hb
      exact Ahead.head_of_mem hb'
    by_cases hnode' : b = node
    · -- `b` has its turn now, so `a` was ready as well and had to go first.
      subst hnode'
      obtain ⟨hsize, hnot⟩ := hfree a ha
      have hready_a : Ready g placed a := ⟨hsize, hnot, fun c hc => hready.preds c (hpreds c hc)⟩
      have := hleast a hready_a
      omega
    · have ha' : a ∈ rest := List.mem_of_ne_of_mem hnode ha
      have hb' : b ∈ rest := List.mem_of_ne_of_mem hnode' hb
      exact Ahead.cons_iff.mpr (Or.inr (ih hrest ha' hb'))

theorem perm_nodes_of_forward {order : List Nat} (h : Forward g [] order)
    (hlength : order.length = g.size) : order.Perm g.nodes := by
  obtain ⟨hnodup, hfree, -⟩ := forward_iff.mp h
  have hsub : order ⊆ g.nodes := fun node hnode => mem_nodes.mpr (hfree node hnode).1
  -- As many different nodes as there are nodes are all of them.
  refine (List.subperm_of_subset hnodup hsub).perm_of_length_le ?_
  show (List.range g.size).length ≤ order.length
  rw [List.length_range, hlength]

/-- The complete forward orders are the arrangements of the nodes in which every edge points
forward. -/
theorem forward_iff_of_perm {order : List Nat} (hperm : order.Perm g.nodes) :
    Forward g [] order ↔ ∀ a b, b < g.size → g.Edge a b → Ahead order a b := by
  rw [forward_iff]
  constructor
  · intro h a b hb hedge
    obtain ⟨-, -, hedges⟩ := h
    have hmem : b ∈ order := hperm.mem_iff.mpr (mem_nodes.mpr hb)
    exact (hedges a b hmem hedge).resolve_left List.not_mem_nil
  · intro hedges
    refine ⟨hperm.nodup_iff.mpr g.nodup_nodes, ?_, ?_⟩
    · intro node hnode
      exact ⟨mem_nodes.mp (hperm.mem_iff.mp hnode), List.not_mem_nil⟩
    · intro a node hnode hedge
      exact Or.inr (hedges a node (mem_nodes.mp (hperm.mem_iff.mp hnode)) hedge)

/-- An acyclic graph has a ready node as long as a node is not placed: of the unplaced nodes
one has no unplaced node from which a walk leads to it. -/
theorem exists_ready {placed : List Nat} (hg : g.Acyclic) {node : Nat}
    (hlt : node < g.size) (hnode : node ∉ placed) : ∃ next, Ready g placed next := by
  let Unplaced := { n : Nat // n < g.size ∧ n ∉ placed }
  have hfinite : Finite Unplaced := by
    refine Finite.of_injective (fun n : Unplaced => (⟨n.1, n.2.1⟩ : Fin g.size)) ?_
    intro a b hab
    exact Subtype.ext (Fin.mk.inj_iff.mp hab)
  let leads (a b : Unplaced) : Prop := TransGen g.Edge a.1 b.1
  have htrans : IsTrans Unplaced leads := ⟨fun _ _ _ hab hbc => hab.trans hbc⟩
  have hirrefl : Std.Irrefl leads := ⟨fun a => hg a.1⟩
  -- On finitely many nodes walks that never lead back have a node that none leads to.
  have hwf : WellFounded leads := Finite.wellFounded_of_trans_of_irrefl leads
  obtain ⟨least, -, hleast⟩ := hwf.has_min Set.univ ⟨⟨node, hlt, hnode⟩, trivial⟩
  refine ⟨least.1, least.2.1, least.2.2, ?_⟩
  intro a hedge
  by_contra ha
  exact hleast ⟨a, hedge.lt, ha⟩ trivial (TransGen.single hedge)

end Graph

end SoapPipeline
