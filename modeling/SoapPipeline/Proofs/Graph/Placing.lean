/-
  SoapPipeline.Proofs.Graph.Placing

  The search for an order, which places the least ready node again and again.

  It keeps, for every node, how many edges from unplaced nodes enter it, and
  counts parallel edges apart.  The invariant is that this number and the edges
  dropped so far add up to all edges into the node; a node is then ready exactly
  when its number is zero, and no number is ever lowered below zero.

  Main results:
    * `Counted.dropEdge`, `Counted.place`: the invariant is kept by every edge that
      is dropped and by every node that is placed;
    * `greedy_of_order?`: the order that is found is greedy and complete;
    * `exists_order?_of_acyclic`: an acyclic graph has one.
-/
import SoapPipeline.Proofs.Graph.Orders

namespace SoapPipeline

namespace Graph

variable {g : Graph}

namespace Placing

/-! ## Counting edges -/

/-- The nodes that are not placed. -/
def unplaced (g : Graph) (placed : List Nat) : List Nat :=
  g.nodes.filter fun node => node ∉ placed

theorem perm_placed_append_unplaced {placed : List Nat} (hnodup : placed.Nodup)
    (hlt : ∀ node ∈ placed, node < g.size) :
    (placed ++ unplaced g placed).Perm g.nodes := by
  have hdisjoint : ∀ a ∈ placed, ∀ b ∈ unplaced g placed, a ≠ b := by
    intro a ha b hb heq
    exact (of_decide_eq_true (List.mem_filter.mp hb).2) (heq ▸ ha)
  have hrest : (unplaced g placed).Nodup := g.nodup_nodes.filter _
  refine (List.perm_ext_iff_of_nodup ?_ g.nodup_nodes).mpr ?_
  · exact List.nodup_append.mpr ⟨hnodup, hrest, hdisjoint⟩
  · intro node
    simp only [unplaced, List.mem_append, List.mem_filter, mem_nodes, decide_eq_true_eq]
    constructor
    · intro h
      rcases h with hmem | ⟨hmem, -⟩
      · exact hlt node hmem
      · exact hmem
    · intro hmem
      by_cases hplaced : node ∈ placed
      · exact Or.inl hplaced
      · exact Or.inr ⟨hmem, hplaced⟩

/-- The edges into a node come from placed nodes or from unplaced ones. -/
theorem degreeIn_eq {placed : List Nat} (hnodup : placed.Nodup)
    (hlt : ∀ node ∈ placed, node < g.size) (node : Nat) :
    degreeIn g node = (placed.flatMap g.successors).count node +
      ((unplaced g placed).flatMap g.successors).count node := by
  have hperm := (perm_placed_append_unplaced hnodup hlt).flatMap_right g.successors
  unfold degreeIn
  rw [← flatMap_successors_nodes, ← hperm.count_eq, List.flatMap_append, List.count_append]

/-! ## Ready nodes in ascending order -/

@[simp] theorem mem_insertReady {a node : Nat} {ready : List Nat} :
    a ∈ insertReady node ready ↔ a = node ∨ a ∈ ready := by
  fun_induction insertReady node ready with
  | case1 => simp
  | case2 n rest h => simp
  | case3 rest h => simp
  | case4 n rest h hne ih =>
    rw [List.mem_cons, ih, List.mem_cons]
    exact or_left_comm

theorem pairwise_insertReady {node : Nat} {ready : List Nat} (h : ready.Pairwise (· < ·)) :
    (insertReady node ready).Pairwise (· < ·) := by
  fun_induction insertReady node ready with
  | case1 => exact List.pairwise_singleton _ node
  | case2 n rest hlt =>
    refine List.pairwise_cons.mpr ⟨?_, h⟩
    intro a ha
    rcases List.mem_cons.mp ha with rfl | ha
    · exact hlt
    · exact Nat.lt_trans hlt ((List.pairwise_cons.mp h).1 a ha)
  | case3 rest hlt => exact h
  | case4 n rest hlt hne ih =>
    obtain ⟨hn, hrest⟩ := List.pairwise_cons.mp h
    refine List.pairwise_cons.mpr ⟨?_, ih hrest⟩
    intro a ha
    rcases mem_insertReady.mp ha with rfl | ha
    · omega
    · exact hn a ha

/-! ## The invariant -/

/-- The numbers and the edges dropped so far add up to all edges, and the ready nodes are the
unplaced ones whose number is zero. -/
structure Counted (g : Graph) (dropped : List Nat) (p : Placing) : Prop where
  length : p.degrees.length = g.size
  count : ∀ node < g.size, p.degrees.getD node 0 + dropped.count node = degreeIn g node
  ready : ∀ node, node ∈ p.ready ↔
    node < g.size ∧ node ∉ p.placed ∧ p.degrees.getD node 0 = 0
  sorted : p.ready.Pairwise (· < ·)
  placed : ∀ node ∈ p.placed, node < g.size ∧ p.degrees.getD node 0 = 0
  nodup : p.placed.Nodup

theorem counted_start (g : Graph) : Counted g [] (start g) := by
  have hdegree : ∀ node < g.size,
      (g.nodes.map (degreeIn g)).getD node 0 = degreeIn g node := by
    intro node hnode
    have : node < g.nodes.length := by simpa [nodes] using hnode
    simp [nodes, hnode]
  refine ⟨by simp [start, nodes], ?_, ?_, ?_, ?_, List.nodup_nil⟩
  · intro node hnode
    exact hdegree node hnode
  · intro node
    show node ∈ g.nodes.filter _ ↔ _
    rw [List.mem_filter, mem_nodes]
    simp [start]
  · exact List.Pairwise.filter _ List.pairwise_lt_range
  · intro node hnode
    exact absurd hnode List.not_mem_nil

theorem getD_set {degrees : List Nat} {target node degree : Nat} (h : target < degrees.length) :
    (degrees.set target degree).getD node 0 =
      if node = target then degree else degrees.getD node 0 := by
  by_cases hnode : node = target
  · subst hnode
    simp [h]
  · simp [hnode, List.getElem?_set_ne (Ne.symm hnode)]

section DropEdge

variable (p : Placing) (target : Nat)

@[simp] theorem placed_dropEdge : (p.dropEdge target).placed = p.placed := by
  dsimp only [dropEdge]
  split <;> rfl

@[simp] theorem degrees_dropEdge :
    (p.dropEdge target).degrees = p.degrees.set target (p.degrees.getD target 0 - 1) := by
  dsimp only [dropEdge]
  split <;> rfl

theorem mem_ready_dropEdge {node : Nat} :
    node ∈ (p.dropEdge target).ready ↔
      node ∈ p.ready ∨ (node = target ∧ p.degrees.getD target 0 ≤ 1) := by
  dsimp only [dropEdge]
  split
  next hzero =>
    rw [mem_insertReady, or_comm]
    have hle : p.degrees.getD target 0 ≤ 1 := by omega
    rw [and_iff_left hle]
  next hpos =>
    have hgt : ¬ p.degrees.getD target 0 ≤ 1 := by omega
    simp only [hgt, and_false, or_false]

theorem pairwise_ready_dropEdge (h : p.ready.Pairwise (· < ·)) :
    (p.dropEdge target).ready.Pairwise (· < ·) := by
  dsimp only [dropEdge]
  split
  · exact pairwise_insertReady h
  · exact h

end DropEdge

/-- Dropping an edge that has not been dropped lowers a number above zero, so the node that it
enters was neither ready nor placed before. -/
theorem Counted.dropEdge {dropped : List Nat} {p : Placing} (h : Counted g dropped p)
    {target : Nat} (hlt : target < g.size) (hleft : dropped.count target < degreeIn g target) :
    Counted g (target :: dropped) (p.dropEdge target) := by
  have htarget : target < p.degrees.length := by rw [h.length]; exact hlt
  have hcount := h.count target hlt
  have hpos : 0 < p.degrees.getD target 0 := by omega
  have hdegree : ∀ node, (p.dropEdge target).degrees.getD node 0 =
      if node = target then p.degrees.getD target 0 - 1 else p.degrees.getD node 0 := by
    intro node
    rw [degrees_dropEdge, getD_set htarget]
  have hplaced : target ∉ p.placed := by
    intro hmem
    have := (h.placed target hmem).2
    omega
  refine ⟨?_, ?_, ?_, pairwise_ready_dropEdge p target h.sorted, ?_, ?_⟩
  · rw [degrees_dropEdge, List.length_set, h.length]
  · intro node hnode
    rw [hdegree node, List.count_cons]
    by_cases heq : node = target
    · subst heq
      simp only [if_true, BEq.rfl]
      omega
    · have hne : (target == node) = false := by simpa using fun h => heq h.symm
      rw [if_neg heq, hne]
      exact h.count node hnode
  · intro node
    rw [mem_ready_dropEdge, placed_dropEdge, hdegree node, h.ready node]
    by_cases heq : node = target
    · -- The node that the edge enters becomes ready if this was the last edge into it.
      subst heq
      simp only [if_true, true_and]
      constructor
      · intro hall
        rcases hall with ⟨-, -, hzero⟩ | hle
        · omega
        · exact ⟨hlt, hplaced, by omega⟩
      · intro hall
        obtain ⟨-, -, hzero⟩ := hall
        exact Or.inr (by omega)
    · simp [heq]
  · intro node hnode
    rw [placed_dropEdge] at hnode
    obtain ⟨hsize, hzero⟩ := h.placed node hnode
    have hne : node ≠ target := fun heq => hplaced (heq ▸ hnode)
    rw [hdegree node, if_neg hne]
    exact ⟨hsize, hzero⟩
  · rw [placed_dropEdge]
    exact h.nodup

/-- Dropping the edges of a node one after the other keeps the invariant, as long as no more
edges are dropped than there are. -/
theorem Counted.dropEdges {targets dropped : List Nat} {p : Placing} (h : Counted g dropped p)
    (hlt : ∀ target ∈ targets, target < g.size)
    (hleft : ∀ node, dropped.count node + targets.count node ≤ degreeIn g node) :
    ∃ dropped', Counted g dropped' (targets.foldl Placing.dropEdge p) ∧
      (∀ node, dropped'.count node = dropped.count node + targets.count node) ∧
      (targets.foldl Placing.dropEdge p).placed = p.placed := by
  induction targets generalizing dropped p with
  | nil => exact ⟨dropped, h, fun node => rfl, rfl⟩
  | cons target rest ih =>
    have hcons : ∀ node, (target :: dropped).count node + rest.count node =
        dropped.count node + (target :: rest).count node := by
      intro node
      rw [List.count_cons, List.count_cons]
      omega
    -- The edge at hand is one of those for which there is room.
    have hroom : dropped.count target < degreeIn g target := by
      have := hleft target
      rw [List.count_cons_self] at this
      omega
    have hstep := h.dropEdge (hlt target List.mem_cons_self) hroom
    obtain ⟨dropped', hinv, hcount, hplaced⟩ := ih hstep
      (fun t ht => hlt t (List.mem_cons_of_mem target ht))
      (fun node => by rw [hcons]; exact hleft node)
    refine ⟨dropped', hinv, fun node => (hcount node).trans (hcons node), ?_⟩
    rw [List.foldl_cons, hplaced, placed_dropEdge]

/-- The edges out of the placed nodes are the ones that are dropped. -/
def Consistent (g : Graph) (p : Placing) : Prop :=
  Counted g (p.placed.flatMap g.successors) p

theorem Counted.congr {dropped dropped' : List Nat} {p : Placing} (h : Counted g dropped p)
    (hcount : ∀ node, dropped'.count node = dropped.count node) : Counted g dropped' p := by
  refine ⟨h.length, ?_, h.ready, h.sorted, h.placed, h.nodup⟩
  intro node hnode
  rw [hcount node]
  exact h.count node hnode

/-- A node is ready exactly when no edge enters it from an unplaced node. -/
theorem Consistent.mem_ready {p : Placing} (h : Consistent g p) {node : Nat} :
    node ∈ p.ready ↔ Ready g p.placed node := by
  have hlt : ∀ a ∈ p.placed, a < g.size := fun a ha => (h.placed a ha).1
  rw [h.ready node]
  constructor
  · intro hall
    obtain ⟨hsize, hnot, hzero⟩ := hall
    refine ⟨hsize, hnot, ?_⟩
    intro a hedge
    -- An edge from an unplaced node would still be counted.
    by_contra ha
    have hsum := h.count node hsize
    rw [degreeIn_eq h.nodup hlt] at hsum
    have hfree : a ∈ unplaced g p.placed :=
      List.mem_filter.mpr ⟨mem_nodes.mpr hedge.lt, decide_eq_true ha⟩
    have hmem : node ∈ (unplaced g p.placed).flatMap g.successors :=
      List.mem_flatMap.mpr ⟨a, hfree, hedge⟩
    have := List.count_pos_iff.mpr hmem
    omega
  · intro hready
    refine ⟨hready.lt_size, hready.not_mem, ?_⟩
    have hsum := h.count node hready.lt_size
    rw [degreeIn_eq h.nodup hlt] at hsum
    -- All edges into the node come from placed nodes, and these have been dropped.
    have hnone : ((unplaced g p.placed).flatMap g.successors).count node = 0 := by
      refine List.count_eq_zero.mpr fun hmem => ?_
      obtain ⟨a, ha, hedge⟩ := List.mem_flatMap.mp hmem
      exact (of_decide_eq_true (List.mem_filter.mp ha).2) (hready.preds a hedge)
    omega

/-- The first ready node moves to the placed ones, before any of its edges goes. -/
theorem Counted.place {dropped rest : List Nat} {p : Placing} {node : Nat}
    (h : Counted g dropped p) (hready : p.ready = node :: rest) :
    Counted g dropped { p with ready := rest, placed := node :: p.placed } := by
  have hsorted := h.sorted
  rw [hready] at hsorted
  obtain ⟨hleast, hsorted⟩ := List.pairwise_cons.mp hsorted
  have hmem : node ∈ p.ready := by
    rw [hready]
    exact List.mem_cons_self
  obtain ⟨hsize, hnot, hzero⟩ := (h.ready node).mp hmem
  refine ⟨h.length, h.count, ?_, hsorted, ?_, List.nodup_cons.mpr ⟨hnot, h.nodup⟩⟩
  · intro a
    have ha := h.ready a
    rw [hready, List.mem_cons] at ha
    show a ∈ rest ↔ a < g.size ∧ a ∉ node :: p.placed ∧ _
    rw [List.mem_cons, not_or]
    -- What is left is ready and, being sorted, holds only nodes greater than the first one.
    constructor
    · intro hrest
      obtain ⟨hsize', hnot', hzero'⟩ := ha.mp (Or.inr hrest)
      have := hleast a hrest
      exact ⟨hsize', ⟨by omega, hnot'⟩, hzero'⟩
    · intro hfree
      obtain ⟨hsize', ⟨hne, hnot'⟩, hzero'⟩ := hfree
      exact (ha.mpr ⟨hsize', hnot', hzero'⟩).resolve_left hne
  · intro a ha
    rcases List.mem_cons.mp ha with rfl | ha
    · exact ⟨hsize, hzero⟩
    · exact h.placed a ha

/-- Placing takes the least ready node and keeps the numbers consistent. -/
theorem Consistent.step {p p' : Placing} (hg : g.InRange) (h : Consistent g p)
    (hstep : p.step? g = some p') :
    ∃ node, Ready g p.placed node ∧ (∀ other, Ready g p.placed other → node ≤ other) ∧
      p'.placed = node :: p.placed ∧ Consistent g p' := by
  unfold step? at hstep
  split at hstep
  next => exact absurd hstep (by simp)
  next node rest hready =>
    obtain rfl := Option.some.inj hstep
    have hnode : Ready g p.placed node := by
      rw [← h.mem_ready, hready]
      exact List.mem_cons_self
    have hmoved : Counted g (p.placed.flatMap g.successors)
        { p with ready := rest, placed := node :: p.placed } := Counted.place h hready
    -- The edges of the node are among those that have not been dropped.
    have hroom : ∀ a, (p.placed.flatMap g.successors).count a + (g.successors node).count a ≤
        degreeIn g a := by
      intro a
      rw [degreeIn_eq hmoved.nodup fun b hb => (hmoved.placed b hb).1, List.flatMap_cons,
        List.count_append]
      omega
    obtain ⟨dropped, hinv, hcount, hplaced⟩ := hmoved.dropEdges (fun t ht => hg node t ht) hroom
    refine ⟨node, hnode, ?_, hplaced, ?_⟩
    · intro other hother
      rw [← h.mem_ready, hready] at hother
      have hsorted := h.sorted
      rw [hready] at hsorted
      rcases List.mem_cons.mp hother with rfl | hother
      · exact Nat.le_refl _
      · exact Nat.le_of_lt ((List.pairwise_cons.mp hsorted).1 other hother)
    · refine hinv.congr fun a => ?_
      rw [hplaced, hcount, List.flatMap_cons, List.count_append, Nat.add_comm]

/-! ## The whole run -/

/-- A run places nodes greedily until it has placed as many as it may or none is ready. -/
theorem Consistent.run {n : Nat} {p : Placing} (hg : g.InRange) (h : Consistent g p) :
    ∃ order, (run g n p).placed = order.reverse ++ p.placed ∧ Greedy g p.placed order ∧
      (order.length = n ∨ ∀ node, ¬ Ready g (run g n p).placed node) := by
  induction n generalizing p with
  | zero => exact ⟨[], rfl, trivial, Or.inl rfl⟩
  | succ n ih =>
    cases hstep : p.step? g with
    | none =>
      -- The run stops early, and only because no node is ready.
      have hrun : Placing.run g (n + 1) p = p := by
        rw [Placing.run, hstep]
      have hnone : p.ready = [] := by
        unfold step? at hstep
        split at hstep
        next hready => exact hready
        next => exact absurd hstep (by simp)
      refine ⟨[], by rw [hrun]; rfl, trivial, Or.inr ?_⟩
      intro node hnode
      rw [hrun, ← h.mem_ready, hnone] at hnode
      exact absurd hnode List.not_mem_nil
    | some p' =>
      have hrun : Placing.run g (n + 1) p = Placing.run g n p' := by
        rw [Placing.run, hstep]
      obtain ⟨node, hnode, hleast, hplaced, hp'⟩ := h.step hg hstep
      obtain ⟨order, hrest, hgreedy, hend⟩ := ih hp'
      rw [hplaced] at hrest hgreedy
      refine ⟨node :: order, ?_, ⟨hnode, hleast, hgreedy⟩, ?_⟩
      · rw [hrun, hrest, List.reverse_cons, List.append_assoc, List.singleton_append]
      · rw [hrun, List.length_cons]
        exact hend.imp (fun hlen => by rw [hlen]) id

theorem consistent_start (g : Graph) : Consistent g (start g) := counted_start g

end Placing

open Placing in
/-- The order that is found holds every node and always goes on with the least one that is
ready. -/
theorem greedy_of_order? {order : List Nat} (hg : g.InRange) (h : g.order? = some order) :
    Greedy g [] order ∧ order.Perm g.nodes := by
  obtain ⟨found, hplaced, hgreedy, -⟩ := (consistent_start g).run (n := g.size) hg
  have hstart : (start g).placed = [] := rfl
  rw [hstart, List.append_nil] at hplaced
  rw [hstart] at hgreedy
  dsimp only [order?] at h
  split at h
  next hlength =>
    rw [hplaced] at h hlength
    rw [List.reverse_reverse] at h
    rw [List.length_reverse] at hlength
    obtain rfl := Option.some.inj h
    exact ⟨hgreedy, perm_nodes_of_forward hgreedy.forward hlength⟩
  next => exact absurd h (by simp)

open Placing in
theorem exists_order?_of_acyclic (hg : g.InRange) (hacyclic : g.Acyclic) :
    ∃ order, g.order? = some order := by
  obtain ⟨found, hplaced, hgreedy, hend⟩ := (consistent_start g).run (n := g.size) hg
  have hstart : (start g).placed = [] := rfl
  rw [hstart, List.append_nil] at hplaced
  rw [hstart] at hgreedy
  have hlength : found.length = g.size := by
    rcases hend with hlength | hstuck
    · exact hlength
    · -- If no node is ready all are placed, since placing does not get stuck.
      rw [hplaced] at hstuck
      have hall : ∀ node < g.size, node ∈ found := by
        intro node hlt
        by_contra hnode
        obtain ⟨next, hnext⟩ := exists_ready hacyclic hlt fun h => hnode (List.mem_reverse.mp h)
        exact hstuck next hnext
      have hfound := (forward_iff.mp hgreedy.forward)
      have hperm : found.Perm g.nodes := by
        refine (List.perm_ext_iff_of_nodup hfound.1 g.nodup_nodes).mpr fun node => ?_
        rw [mem_nodes]
        exact ⟨fun h => (hfound.2.1 node h).1, hall node⟩
      rw [hperm.length_eq]
      exact List.length_range
  refine ⟨found, ?_⟩
  dsimp only [order?]
  rw [hplaced, List.length_reverse, if_pos hlength, List.reverse_reverse]

end Graph

end SoapPipeline
