/-
  SoapPipeline.Proofs.Graph.Cycles

  What the depth-first search for a cycle finds.

  The frames of the search are a path: every node on it is a successor of the
  one below.  A node is done when it is neither fresh nor on the path; done
  nodes lead to done nodes only, and none of them lies on a cycle.

  Main results:
    * `isCycle_of_findCycle?`: what is reported is a cycle without repetition;
    * `findCycle?_eq_none_iff`: nothing is reported exactly for acyclic graphs.
-/
import Mathlib.Data.List.Chain
import Mathlib.Data.List.Nodup
import SoapPipeline.Proofs.Graph.Walks

namespace SoapPipeline

namespace Graph

open Relation

variable {g : Graph}

/-! ## Cycles -/

/-- The list runs along edges back to where it began and meets no other node twice. -/
def IsCycle (g : Graph) (cycle : List Nat) : Prop :=
  ∃ node between, cycle = node :: between ++ [node] ∧
    (node :: between).Nodup ∧ cycle.IsChain g.Edge

theorem transGen_of_isChain {a b : Nat} {between : List Nat}
    (h : (a :: between ++ [b]).IsChain g.Edge) : TransGen g.Edge a b := by
  induction between generalizing a with
  | nil => exact TransGen.single (List.isChain_pair.mp h)
  | cons x between ih =>
    rw [List.cons_append, List.cons_append, List.isChain_cons_cons] at h
    exact TransGen.head h.1 (ih h.2)

theorem IsCycle.not_acyclic {cycle : List Nat} (h : g.IsCycle cycle) : ¬ g.Acyclic := by
  obtain ⟨node, between, rfl, -, hchain⟩ := h
  intro hg
  exact hg node (transGen_of_isChain hchain)

/-- Every node of a cycle is one of the graph. -/
theorem IsCycle.lt_size {cycle : List Nat} (h : g.IsCycle cycle) : ∀ i ∈ cycle, i < g.size := by
  obtain ⟨node, between, rfl, -, hchain⟩ := h
  -- An edge leaves every node but the last one, and the last one is the first again.
  have hleaves : ∀ (front : List Nat) (last : Nat), (front ++ [last]).IsChain g.Edge →
      ∀ i ∈ front, i < g.size := by
    intro front last hfront
    induction front with
    | nil => simp
    | cons a front ih =>
      intro i hi
      rcases List.mem_cons.mp hi with rfl | hi
      · cases front with
        | nil => exact (List.isChain_pair.mp hfront).lt
        | cons b front => exact (List.isChain_cons_cons.mp hfront).1.lt
      · exact ih hfront.tail i hi
  intro i hi
  rcases List.mem_append.mp hi with hi | hi
  · exact hleaves _ _ hchain i hi
  · rw [List.mem_singleton.mp hi]
    exact hleaves _ _ hchain node List.mem_cons_self

/-! ## What is reported -/

/-- The frames are a path along edges, and what they still try are successors. -/
structure IsPath (g : Graph) (frames : List Frame) : Prop where
  nodup : (pathOf frames).Nodup
  walk : (pathOf frames).IsChain fun a b => g.Edge b a
  tries : ∀ frame ∈ frames, ∀ next ∈ frame.2, g.Edge frame.1 next

theorem isPath_nil : IsPath g [] := by
  refine ⟨List.nodup_nil, List.isChain_nil, ?_⟩
  intro frame h
  exact absurd h List.not_mem_nil

theorem IsPath.pop {frame : Frame} {frames : List Frame} (h : IsPath g (frame :: frames)) :
    IsPath g frames := by
  refine ⟨(List.nodup_cons.mp h.nodup).2, h.walk.tail, ?_⟩
  intro f hf
  exact h.tries f (List.mem_cons_of_mem frame hf)

theorem IsPath.skip {node next : Nat} {rest : List Nat} {frames : List Frame}
    (h : IsPath g ((node, next :: rest) :: frames)) : IsPath g ((node, rest) :: frames) := by
  refine ⟨h.nodup, h.walk, ?_⟩
  intro frame hframe m hm
  rcases List.mem_cons.mp hframe with rfl | hframe
  · exact h.tries _ List.mem_cons_self m (List.mem_cons_of_mem next hm)
  · exact h.tries frame (List.mem_cons_of_mem _ hframe) m hm

theorem IsPath.push {frames : List Frame} {next : Nat} (h : IsPath g frames)
    (hfresh : next ∉ pathOf frames) (hedge : ∀ node ∈ (pathOf frames).head?, g.Edge node next) :
    IsPath g ((next, g.successors next) :: frames) := by
  refine ⟨List.nodup_cons.mpr ⟨hfresh, h.nodup⟩, h.walk.cons hedge, ?_⟩
  intro frame hframe m hm
  rcases List.mem_cons.mp hframe with rfl | hframe
  · exact hm
  · exact h.tries frame hframe m hm

theorem takeWhile_ne_append {node : Nat} {front back : List Nat} (h : node ∉ front) :
    (front ++ node :: back).takeWhile (· ≠ node) = front := by
  rw [List.takeWhile_append_of_pos, List.takeWhile_cons_of_neg (by simp), List.append_nil]
  intro x hx
  exact decide_eq_true fun heq => h (heq ▸ hx)

/-- An edge from the end of a path back to it closes a cycle. -/
theorem IsPath.close {node next : Nat} {rest : List Nat} {frames : List Frame}
    (h : IsPath g ((node, next :: rest) :: frames)) (hnext : next ∈ node :: pathOf frames) :
    g.IsCycle (next :: ((node :: pathOf frames).takeWhile (· ≠ next)).reverse ++ [next]) := by
  have hedge : g.Edge node next := h.tries _ List.mem_cons_self next List.mem_cons_self
  have hnodup : (node :: pathOf frames).Nodup := h.nodup
  have hwalk : (node :: pathOf frames).IsChain fun a b => g.Edge b a := h.walk
  -- The edge is one more step of the walk, taken backwards.
  have hclosed : (next :: node :: pathOf frames).IsChain fun a b => g.Edge b a :=
    List.isChain_cons_cons.mpr ⟨hedge, hwalk⟩
  obtain ⟨front, back, hsplit, hfront⟩ := List.eq_append_cons_of_mem hnext
  rw [hsplit] at hnodup hclosed ⊢
  rw [takeWhile_ne_append hfront]
  refine ⟨next, front.reverse, rfl, ?_, ?_⟩
  · -- The path is kept from its end down to where the edge leads, and then read backwards.
    have hcut : (front ++ [next]).Nodup := by
      refine hnodup.sublist ?_
      exact List.Sublist.append (List.Sublist.refl front) (List.singleton_sublist.mpr (by simp))
    rw [← List.nodup_reverse, List.reverse_append] at hcut
    exact hcut
  · have hcut : (next :: front ++ [next]).IsChain fun a b => g.Edge b a := by
      refine hclosed.prefix ⟨back, ?_⟩
      simp
    rw [← List.isChain_reverse] at hcut
    simpa using hcut

/-- What the search reports is a cycle, whatever it has visited. -/
theorem isCycle_of_search {fresh : List Nat} {frames : List Frame} {cycle : List Nat}
    (h : search g fresh frames = some cycle) (hpath : IsPath g frames) : g.IsCycle cycle := by
  fun_induction search g fresh frames with
  | case1 => exact absurd h (by simp)
  | case2 node fresh ih =>
    refine ih h (isPath_nil.push List.not_mem_nil ?_)
    intro x hx
    exact absurd hx (by simp [pathOf])
  | case3 fresh node frames ih => exact ih h hpath.pop
  | case4 fresh node next rest frames hmem =>
    obtain rfl := Option.some.inj h
    exact hpath.close hmem
  | case5 fresh node next rest frames hmem hfresh ih =>
    -- The successor is entered from the end of the path, along one of the edges tried there.
    refine ih h (hpath.skip.push hmem ?_)
    intro x hx
    obtain rfl : node = x := Option.some.inj hx
    exact hpath.tries _ List.mem_cons_self next List.mem_cons_self
  | case6 fresh node next rest frames hmem hfresh ih => exact ih h hpath.skip

/-- What is reported is a cycle: it ends where it begins, meets no other node twice and runs
along edges. -/
theorem isCycle_of_findCycle? {cycle : List Nat} (h : g.findCycle? = some cycle) :
    g.IsCycle cycle :=
  isCycle_of_search h isPath_nil

/-! ## What is not overlooked -/

/-- A node that the search has left behind. -/
def Done (fresh path : List Nat) (node : Nat) : Prop := node ∉ fresh ∧ node ∉ path

/-- What the search knows of the nodes: none is met twice, and what is done leads only to
what is done and lies on no cycle. -/
structure Explored (g : Graph) (fresh path : List Nat) : Prop where
  nodup_fresh : fresh.Nodup
  nodup_path : path.Nodup
  disjoint : ∀ node ∈ path, node ∉ fresh
  closed : ∀ node next, Done fresh path node → g.Edge node next → Done fresh path next
  acyclic : ∀ node, Done fresh path node → ¬ TransGen g.Edge node node

namespace Explored

variable {fresh path : List Nat} {node next : Nat}

/-- Nothing is done at the start but what is no node and has no edges. -/
theorem start (g : Graph) : Explored g g.nodes [] := by
  have hnone : ∀ node next, Done g.nodes [] node → ¬ g.Edge node next := by
    intro node next hdone hedge
    exact hdone.1 (mem_nodes.mpr hedge.lt)
  refine ⟨g.nodup_nodes, List.nodup_nil, ?_, ?_, ?_⟩
  · intro node hnode
    exact absurd hnode List.not_mem_nil
  · intro node next hdone hedge
    exact absurd hedge (hnone node next hdone)
  · intro node hdone hcycle
    obtain ⟨next, hedge, -⟩ := TransGen.head'_iff.mp hcycle
    exact hnone node next hdone hedge

/-- Walks from what is done stay there. -/
theorem walk (h : Explored g fresh path) (hnode : Done fresh path node)
    (hwalk : TransGen g.Edge node next) : Done fresh path next := by
  induction hwalk with
  | single hedge => exact h.closed _ _ hnode hedge
  | tail _ hedge ih => exact h.closed _ _ ih hedge

/-- Entering a fresh node makes nothing done. -/
theorem done_push (hnext : next ∈ fresh) (n : Nat) :
    Done (fresh.erase next) (next :: path) n ↔ Done fresh path n := by
  unfold Done
  by_cases hn : n = next
  · subst hn
    simp [hnext]
  · rw [List.mem_erase_of_ne hn, List.mem_cons, not_or]
    simp [hn]

/-- A fresh node comes onto the path. -/
theorem push (h : Explored g fresh path) (hnext : next ∈ fresh) :
    Explored g (fresh.erase next) (next :: path) := by
  have hpath : next ∉ path := fun hmem => h.disjoint next hmem hnext
  have hgone : next ∉ fresh.erase next := h.nodup_fresh.not_mem_erase
  refine ⟨h.nodup_fresh.erase next, List.nodup_cons.mpr ⟨hpath, h.nodup_path⟩, ?_, ?_, ?_⟩
  · intro node hnode
    rcases List.mem_cons.mp hnode with rfl | hnode
    · exact hgone
    · exact fun hmem => h.disjoint node hnode (List.mem_of_mem_erase hmem)
  · intro node m hnode hedge
    rw [done_push hnext] at hnode ⊢
    exact h.closed node m hnode hedge
  · intro node hnode
    exact h.acyclic node ((done_push hnext node).mp hnode)

theorem done_pop (h : Explored g fresh (node :: path)) (n : Nat) :
    Done fresh path n ↔ Done fresh (node :: path) n ∨ n = node := by
  have hfresh : node ∉ fresh := h.disjoint node List.mem_cons_self
  have hpath : node ∉ path := (List.nodup_cons.mp h.nodup_path).1
  unfold Done
  by_cases hn : n = node
  · subst hn
    exact ⟨fun _ => Or.inr rfl, fun _ => ⟨hfresh, hpath⟩⟩
  · rw [List.mem_cons, not_or]
    simp [hn]

/-- The end of the path is done once all its successors are: no walk leads from them back
to it. -/
theorem pop (h : Explored g fresh (node :: path))
    (hsucc : ∀ next, g.Edge node next → Done fresh (node :: path) next) :
    Explored g fresh path := by
  refine ⟨h.nodup_fresh, (List.nodup_cons.mp h.nodup_path).2, ?_, ?_, ?_⟩
  · intro n hn
    exact h.disjoint n (List.mem_cons_of_mem node hn)
  · intro n next hn hedge
    rw [h.done_pop] at hn ⊢
    rcases hn with hn | rfl
    · exact Or.inl (h.closed n next hn hedge)
    · exact Or.inl (hsucc next hedge)
  · intro n hn hcycle
    rcases (h.done_pop n).mp hn with hn | rfl
    · exact h.acyclic n hn hcycle
    · -- A cycle through the end of the path would have led into what is done and out again.
      have hself : Done fresh (n :: path) n := by
        obtain ⟨next, hedge, hback⟩ := TransGen.head'_iff.mp hcycle
        rcases reflTransGen_iff_eq_or_transGen.mp hback with rfl | hback
        · exact hsucc n hedge
        · exact h.walk (hsucc next hedge) hback
      exact hself.2 List.mem_cons_self

end Explored

/-- Every successor of a node on the path is still to be tried, done, or further up the
path; `above` holds the nodes above the frames. -/
def Tried (g : Graph) (done : Nat → Prop) : List Nat → List Frame → Prop
  | _, [] => True
  | above, (node, rest) :: frames =>
    (∀ next, g.Edge node next → next ∈ rest ∨ done next ∨ next ∈ above) ∧
      Tried g done (node :: above) frames

/-- Nodes above may go when they are done, and others may come. -/
theorem Tried.mono {done done' : Nat → Prop} {above above' : List Nat} {frames : List Frame}
    (h : Tried g done above frames) (hdone : ∀ node, done node → done' node)
    (habove : ∀ node ∈ above, done' node ∨ node ∈ above') : Tried g done' above' frames := by
  induction frames generalizing above above' with
  | nil => trivial
  | cons frame frames ih =>
    obtain ⟨node, rest⟩ := frame
    refine ⟨?_, ih h.2 ?_⟩
    · intro next hedge
      rcases h.1 next hedge with hrest | hnext | hnext
      · exact Or.inl hrest
      · exact Or.inr (Or.inl (hdone next hnext))
      · exact Or.inr (habove next hnext)
    · intro n hn
      rcases List.mem_cons.mp hn with rfl | hn
      · exact Or.inr List.mem_cons_self
      · exact (habove n hn).imp id (List.mem_cons_of_mem node)

/-- A successor need not be tried any more when it is done or comes onto the path. -/
theorem Tried.drop {done : Nat → Prop} {above above' rest : List Nat} {frames : List Frame}
    {node next : Nat} (h : Tried g done above ((node, next :: rest) :: frames))
    (hnext : done next ∨ next ∈ above') (habove : ∀ n ∈ above, n ∈ above') :
    Tried g done above' ((node, rest) :: frames) := by
  refine ⟨?_, h.2.mono (fun n hn => hn) ?_⟩
  · intro m hedge
    rcases h.1 m hedge with hm | hm | hm
    · rcases List.mem_cons.mp hm with rfl | hm
      · exact Or.inr hnext
      · exact Or.inl hm
    · exact Or.inr (Or.inl hm)
    · exact Or.inr (Or.inr (habove m hm))
  · intro n hn
    refine Or.inr ?_
    rcases List.mem_cons.mp hn with rfl | hn
    · exact List.mem_cons_self
    · exact List.mem_cons_of_mem node (habove n hn)

/-- A search that reports nothing leaves no node on a cycle. -/
theorem acyclic_of_search {fresh : List Nat} {frames : List Frame}
    (h : search g fresh frames = none) (hseen : Explored g fresh (pathOf frames))
    (htried : Tried g (Done fresh (pathOf frames)) [] frames) : g.Acyclic := by
  fun_induction search g fresh frames with
  | case1 =>
    intro node
    exact hseen.acyclic node ⟨List.not_mem_nil, List.not_mem_nil⟩
  | case2 node fresh ih =>
    -- A new path starts, and all successors of its node are to be tried.
    have hpush := hseen.push List.mem_cons_self
    rw [List.erase_cons_head] at hpush
    exact ih h hpush ⟨fun next hedge => Or.inl hedge, trivial⟩
  | case3 fresh node frames ih =>
    -- Nothing is left to be tried at the end of the path, so its successors are done.
    have hsucc : ∀ next, g.Edge node next → Done fresh (node :: pathOf frames) next := by
      intro next hedge
      rcases htried.1 next hedge with hmem | hmem | hmem
      · exact absurd hmem List.not_mem_nil
      · exact hmem
      · exact absurd hmem List.not_mem_nil
    have hdone := Explored.done_pop hseen
    refine ih h (Explored.pop hseen hsucc) (htried.2.mono ?_ ?_)
    · exact fun n hn => (hdone n).mpr (Or.inl hn)
    · intro n hn
      exact Or.inl ((hdone n).mpr (Or.inr (List.mem_singleton.mp hn)))
  | case4 => exact absurd h (by simp)
  | case5 fresh node next rest frames hmem hfresh ih =>
    -- The successor comes onto the path, so that it need not be tried any more.
    have hdone : ∀ n, Done (fresh.erase next) (next :: node :: pathOf frames) n ↔
        Done fresh (node :: pathOf frames) n := fun n => Explored.done_push hfresh n
    refine ih h (hseen.push hfresh) ⟨fun m hedge => Or.inl hedge, ?_⟩
    refine Tried.mono (htried.drop (Or.inr (List.mem_singleton_self next)) ?_) ?_ ?_
    · exact fun n hn => absurd hn List.not_mem_nil
    · exact fun n hn => (hdone n).mpr hn
    · exact fun n hn => Or.inr hn
  | case6 fresh node next rest frames hmem hfresh ih =>
    -- The successor is neither fresh nor on the path, which is to say done.
    exact ih h hseen (htried.drop (Or.inl ⟨hfresh, hmem⟩) fun n hn => hn)

/-- No cycle is reported exactly when there is none. -/
theorem findCycle?_eq_none_iff : g.findCycle? = none ↔ g.Acyclic := by
  constructor
  · intro h
    exact acyclic_of_search h (Explored.start g) trivial
  · intro hg
    cases h : g.findCycle? with
    | none => rfl
    | some cycle => exact absurd hg (isCycle_of_findCycle? h).not_acyclic

end Graph

end SoapPipeline
