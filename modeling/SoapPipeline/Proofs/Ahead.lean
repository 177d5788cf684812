/-
  SoapPipeline.Proofs.Ahead

  Which of two elements of a list stands ahead of the other.

  Orders of handlers are judged by this relation alone: a rule asks that one
  handler stands ahead of another.  In a list without repetition it is
  irreflexive and asymmetric, and it determines the list among those with the
  same elements.

  Main results:
    * `Ahead.asymm`: of two elements only one stands ahead of the other;
    * `Ahead.of_swap`: exchanging two neighbours changes the relation for no
      other pair;
    * `eq_of_perm_of_ahead`: the relation fixes the order of the elements;
    * `ahead_cut_iff`: what stands behind a cut;
    * `append_eq_append_cons_cases`: where an element of two lists in a row stands.
-/
import Mathlib.Data.List.Perm.Basic
import Mathlib.Data.List.Nodup

namespace SoapPipeline

variable {α β : Type}

/-- The list can be cut so that `a` stands in front of the cut and `b` behind it. -/
def Ahead (l : List α) (a b : α) : Prop :=
  ∃ front back, l = front ++ back ∧ a ∈ front ∧ b ∈ back

namespace Ahead

variable {l : List α} {a b x y : α}

theorem mem_left (h : Ahead l a b) : a ∈ l := by
  obtain ⟨front, back, rfl, ha, -⟩ := h
  exact List.mem_append_left back ha

theorem mem_right (h : Ahead l a b) : b ∈ l := by
  obtain ⟨front, back, rfl, -, hb⟩ := h
  exact List.mem_append_right front hb

@[simp] theorem not_nil : ¬ Ahead ([] : List α) a b := by
  intro h
  exact absurd h.mem_left List.not_mem_nil

theorem cons_iff : Ahead (x :: l) a b ↔ (a = x ∧ b ∈ l) ∨ Ahead l a b := by
  constructor
  · intro h
    obtain ⟨front, back, hcut, ha, hb⟩ := h
    cases front with
    | nil => exact absurd ha List.not_mem_nil
    | cons y front =>
      obtain ⟨rfl, rfl⟩ := List.cons_eq_cons.mp hcut
      rcases List.mem_cons.mp ha with rfl | ha
      · exact Or.inl ⟨rfl, List.mem_append_right front hb⟩
      · exact Or.inr ⟨front, back, rfl, ha, hb⟩
  · intro h
    rcases h with ⟨rfl, hb⟩ | ⟨front, back, rfl, ha, hb⟩
    · exact ⟨[a], l, rfl, List.mem_singleton_self a, hb⟩
    · exact ⟨x :: front, back, rfl, List.mem_cons_of_mem x ha, hb⟩

theorem append_iff {front back : List α} :
    Ahead (front ++ back) a b ↔
      Ahead front a b ∨ (a ∈ front ∧ b ∈ back) ∨ Ahead back a b := by
  induction front with
  | nil => simp
  | cons x front ih =>
    rw [List.cons_append, cons_iff, ih, cons_iff, List.mem_append, List.mem_cons]
    grind

theorem head_of_mem (h : b ∈ l) : Ahead (x :: l) x b :=
  cons_iff.mpr (Or.inl ⟨rfl, h⟩)

/-! ## Lists without repetition -/

theorem asymm (hl : l.Nodup) (h : Ahead l a b) : ¬ Ahead l b a := by
  induction l with
  | nil => exact absurd h not_nil
  | cons x l ih =>
    obtain ⟨hx, hl⟩ := List.nodup_cons.mp hl
    intro h'
    -- The head is ahead of the rest only, and it does not occur there again.
    rcases cons_iff.mp h with ⟨rfl, hb⟩ | hab <;> rcases cons_iff.mp h' with ⟨rfl, ha⟩ | hba
    · exact hx hb
    · exact hx hba.mem_right
    · exact hx hab.mem_right
    · exact ih hl hab hba

theorem irrefl (hl : l.Nodup) : ¬ Ahead l a a := by
  intro h
  exact asymm hl h h

theorem trans {c : α} (hl : l.Nodup) (hab : Ahead l a b) (hbc : Ahead l b c) : Ahead l a c := by
  induction l with
  | nil => exact absurd hab not_nil
  | cons x l ih =>
    obtain ⟨hx, hl⟩ := List.nodup_cons.mp hl
    rcases cons_iff.mp hbc with ⟨rfl, -⟩ | hbc'
    · -- Nothing stands ahead of the head, so `b` is not the head.
      rcases cons_iff.mp hab with ⟨rfl, hb⟩ | hab'
      · exact absurd hb hx
      · exact absurd hab'.mem_right hx
    · rcases cons_iff.mp hab with ⟨rfl, -⟩ | hab'
      · exact head_of_mem hbc'.mem_right
      · exact cons_iff.mpr (Or.inr (ih hl hab' hbc'))

/-! ## Images and neighbours -/

theorem map (f : α → β) (h : Ahead l a b) : Ahead (l.map f) (f a) (f b) := by
  obtain ⟨front, back, rfl, ha, hb⟩ := h
  rw [List.map_append]
  exact ⟨_, _, rfl, List.mem_map_of_mem ha, List.mem_map_of_mem hb⟩

/-- What is ahead in an image has originals one of which is ahead of the other. -/
theorem exists_of_map {f : α → β} {x y : β} (h : Ahead (l.map f) x y) :
    ∃ a b, Ahead l a b ∧ f a = x ∧ f b = y := by
  obtain ⟨front, back, hcut, hx, hy⟩ := h
  obtain ⟨left, right, rfl, rfl, rfl⟩ := List.map_eq_append_iff.mp hcut
  obtain ⟨a, ha, rfl⟩ := List.mem_map.mp hx
  obtain ⟨b, hb, rfl⟩ := List.mem_map.mp hy
  exact ⟨a, b, ⟨left, right, rfl, ha, hb⟩, rfl, rfl⟩

/-- What comes of an element stands ahead of what comes of a later one. -/
theorem flatMap {f : α → List β} {x y : β} (h : Ahead l a b) (hx : x ∈ f a) (hy : y ∈ f b) :
    Ahead (l.flatMap f) x y := by
  obtain ⟨front, back, rfl, ha, hb⟩ := h
  rw [List.flatMap_append]
  exact ⟨_, _, rfl, List.mem_flatMap_of_mem ha hx, List.mem_flatMap_of_mem hb hy⟩

theorem of_sublist {l' : List α} (hsub : l.Sublist l') (h : Ahead l a b) : Ahead l' a b := by
  induction hsub with
  | slnil => exact h
  | cons x _ ih => exact cons_iff.mpr (Or.inr (ih h))
  | cons_cons x hsub ih =>
    rcases cons_iff.mp h with ⟨rfl, hb⟩ | h
    · exact head_of_mem (hsub.subset hb)
    · exact cons_iff.mpr (Or.inr (ih h))

/-- What comes of one element keeps its order. -/
theorem flatMap_of_mem {f : α → List β} {x y : β} (ha : a ∈ l) (h : Ahead (f a) x y) :
    Ahead (l.flatMap f) x y := by
  rw [List.flatMap_def]
  exact h.of_sublist (List.sublist_flatten_of_mem (List.mem_map_of_mem ha))

theorem filter {p : α → Bool} (h : Ahead l a b) (ha : p a = true) (hb : p b = true) :
    Ahead (l.filter p) a b := by
  obtain ⟨front, back, rfl, hfront, hback⟩ := h
  rw [List.filter_append]
  exact ⟨_, _, rfl, List.mem_filter.mpr ⟨hfront, ha⟩, List.mem_filter.mpr ⟨hback, hb⟩⟩

theorem of_getElem? {i j : Nat} (hi : l[i]? = some a) (hj : l[j]? = some b) (hlt : i < j) :
    Ahead l a b := by
  refine ⟨l.take j, l.drop j, (List.take_append_drop j l).symm, ?_, ?_⟩
  · exact List.mem_of_getElem? (i := i) (by rwa [List.getElem?_take_of_lt hlt])
  · exact List.mem_of_getElem? (i := 0) (by rwa [List.getElem?_drop, Nat.add_zero])

/-- Every list is sorted by the relation that it gives rise to. -/
theorem pairwise (l : List α) : l.Pairwise (Ahead l) := by
  induction l with
  | nil => exact List.Pairwise.nil
  | cons x l ih =>
    refine List.pairwise_cons.mpr ⟨fun b hb => head_of_mem hb, ?_⟩
    exact ih.imp fun h => cons_iff.mpr (Or.inr h)

/-- Exchanging two neighbours turns their own order round and no other one. -/
theorem of_swap {front back : List α} (h : Ahead (front ++ x :: y :: back) a b) :
    (a = x ∧ b = y) ∨ Ahead (front ++ y :: x :: back) a b := by
  simp only [append_iff, cons_iff, List.mem_cons] at h ⊢
  grind

end Ahead

/-- Two lists of the same elements are equal when one is sorted by the other. -/
theorem eq_of_perm_of_ahead {l l' order : List α} (horder : order.Nodup)
    (hperm : l.Perm l') (hl : l.Pairwise (Ahead order)) (hl' : l'.Pairwise (Ahead order)) :
    l = l' := by
  refine hperm.eq_of_pairwise ?_ hl hl'
  intro a b _ _ hab hba
  exact absurd hba (hab.asymm horder)

/-- When all elements of a kind stand ahead of all others, they are the front of the list. -/
theorem eq_filter_append_filter {l : List α} {p : α → Bool} (hl : l.Nodup)
    (h : ∀ a ∈ l, ∀ b ∈ l, p a = true → p b = false → Ahead l a b) :
    l = l.filter p ++ l.filter (fun a => !p a) := by
  refine eq_of_perm_of_ahead hl (List.filter_append_perm p l).symm (Ahead.pairwise l) ?_
  -- Both parts keep the order of the list, and across the cut it is the hypothesis.
  refine List.pairwise_append.mpr ⟨?_, ?_, ?_⟩
  · exact (Ahead.pairwise l).sublist List.filter_sublist
  · exact (Ahead.pairwise l).sublist List.filter_sublist
  · intro a ha b hb
    obtain ⟨ha, hpa⟩ := List.mem_filter.mp ha
    obtain ⟨hb, hpb⟩ := List.mem_filter.mp hb
    exact h a ha b hb hpa (by simpa using hpb)

/-! ## Cuts -/

section Cut

variable {front back : List α} {a b x : α} (hl : (front ++ a :: back).Nodup)

include hl

theorem ahead_cut_iff : Ahead (front ++ a :: back) a b ↔ b ∈ back := by
  constructor
  · intro h
    rcases List.mem_append.mp h.mem_right with hb | hb
    · exact absurd (Ahead.append_iff.mpr (Or.inr (Or.inl ⟨hb, List.mem_cons_self⟩))) (h.asymm hl)
    · rcases List.mem_cons.mp hb with rfl | hb
      · exact absurd h (Ahead.irrefl hl)
      · exact hb
  · intro hb
    exact Ahead.append_iff.mpr (Or.inr (Or.inr (Ahead.head_of_mem hb)))

/-- Whatever stands ahead of an element in front of the cut stands there as well. -/
theorem mem_front_of_ahead (h : Ahead (front ++ a :: back) b x) (hx : x ∈ front) : b ∈ front := by
  rcases List.mem_append.mp h.mem_left with hb | hb
  · exact hb
  · exact absurd (Ahead.append_iff.mpr (Or.inr (Or.inl ⟨hx, hb⟩))) (h.asymm hl)

end Cut

/-- What stands at a cut, or before or behind it. -/
theorem mem_cut_iff {front back : List α} {a x : α} :
    x ∈ front ++ a :: back ↔ x = a ∨ x ∈ front ++ back :=
  List.perm_middle.mem_iff.trans List.mem_cons

/-- What stands before or behind a cut. -/
theorem mem_of_cut {l front back : List α} {a x : α} (hcut : l = front ++ a :: back)
    (hx : x ∈ front ++ back) : x ∈ l := by
  rw [hcut]
  exact mem_cut_iff.mpr (Or.inr hx)

/-- An element of two lists in a row stands in the first or in the second. -/
theorem append_eq_append_cons_cases {front back left right : List α} {a : α}
    (h : front ++ back = left ++ a :: right) :
    (∃ rest, front = left ++ a :: rest ∧ right = rest ++ back) ∨
      ∃ rest, left = front ++ rest ∧ back = rest ++ a :: right := by
  rcases List.append_eq_append_iff.mp h with ⟨rest, hleft, hback⟩ | ⟨rest, hfront, hrest⟩
  · exact Or.inr ⟨rest, hleft, hback⟩
  · cases rest with
    | nil => exact Or.inr ⟨[], by simp [hfront], hrest.symm⟩
    | cons b rest =>
      obtain ⟨rfl, hright⟩ := List.cons_eq_cons.mp hrest
      exact Or.inl ⟨rest, hfront, hright⟩

end SoapPipeline
