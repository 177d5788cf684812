/-
  SoapPipeline.Proofs.Registry

  Registries as maps.

  A registry in which no name is listed twice finds exactly what it lists.
  Setting an entry trades what was registered under the name for the new item,
  removing one takes it out, and neither touches any other name.

  Main results:
    * `get?_insert`, `get?_remove`, `get?_removeNames`: what is found afterwards;
    * `perm_items_insert`, `perm_items_remove`: what is listed afterwards.
-/
import Mathlib.Data.List.Perm.Basic
import Mathlib.Data.List.Nodup
import SoapPipeline.Registry

namespace SoapPipeline

namespace Registry

variable {α : Type} {r : Registry α} {name other : QName} {item : α}

/-! ## What is found -/

theorem mem_entries_of_get? (h : r.get? name = some item) : (name, item) ∈ r.entries := by
  unfold get? at h
  obtain ⟨front, back, hsplit, -⟩ := List.lookup_eq_some_iff.mp h
  rw [hsplit]
  exact List.mem_append_right front List.mem_cons_self

theorem mem_items_of_get? (h : r.get? name = some item) : item ∈ r.items :=
  List.mem_map_of_mem (mem_entries_of_get? h)

theorem mem_names_iff : name ∈ r.names ↔ ∃ item, r.get? name = some item := by
  unfold names get?
  constructor
  · intro h
    cases hget : r.entries.lookup name with
    | some item => exact ⟨item, rfl⟩
    | none =>
      rw [List.lookup_eq_none_iff] at hget
      obtain ⟨entry, hentry, rfl⟩ := List.mem_map.mp h
      exact absurd (hget entry hentry) (by simp)
  · intro h
    obtain ⟨item, hget⟩ := h
    exact List.mem_map_of_mem (mem_entries_of_get? hget)

/-- Where no name is listed twice, every entry is found. -/
theorem get?_of_mem_entries (hnodup : r.names.Nodup) (h : (name, item) ∈ r.entries) :
    r.get? name = some item := by
  unfold names at hnodup
  obtain ⟨front, back, hsplit⟩ := List.append_of_mem h
  rw [hsplit, List.map_append, List.map_cons] at hnodup
  refine List.lookup_eq_some_iff.mpr ⟨front, back, hsplit, ?_⟩
  intro entry hentry
  have hne : name ≠ entry.1 := by
    intro heq
    exact (List.nodup_append.mp hnodup).2.2 entry.1 (List.mem_map_of_mem hentry) name
      List.mem_cons_self heq.symm
  exact bne_iff_ne.mpr hne

/-! ## Setting entries -/

theorem lookup_cons_of_ne {n : QName} {entries : List (QName × α)} (h : other ≠ n) :
    ((n, item) :: entries).lookup other = entries.lookup other := by
  rw [List.lookup_cons, beq_false_of_ne h]

theorem lookup_insertEntry {entries : List (QName × α)} :
    (insertEntry name item entries).lookup other =
      if other = name then some item else entries.lookup other := by
  induction entries with
  | nil =>
    show [(name, item)].lookup other = _
    by_cases h : other = name
    · rw [h, List.lookup_cons_self, if_pos rfl]
    · rw [lookup_cons_of_ne h, if_neg h]
  | cons entry rest ih =>
    obtain ⟨n, i⟩ := entry
    unfold insertEntry
    by_cases hn : n = name
    · rw [if_pos hn, hn]
      by_cases h : other = name
      · rw [h, List.lookup_cons_self, if_pos rfl]
      · rw [lookup_cons_of_ne h, lookup_cons_of_ne h, if_neg h]
    · rw [if_neg hn]
      by_cases h : other = n
      · rw [h, List.lookup_cons_self, List.lookup_cons_self, if_neg hn]
      · rw [lookup_cons_of_ne h, lookup_cons_of_ne h, ih]

theorem get?_insert : (r.insert name item).2.get? other =
    if other = name then some item else r.get? other :=
  lookup_insertEntry

theorem names_insertEntry {entries : List (QName × α)} :
    (insertEntry name item entries).map Prod.fst =
      if name ∈ entries.map Prod.fst then entries.map Prod.fst
      else entries.map Prod.fst ++ [name] := by
  induction entries with
  | nil => rfl
  | cons entry rest ih =>
    obtain ⟨n, i⟩ := entry
    unfold insertEntry
    by_cases hn : n = name
    · subst hn
      simp
    · rw [if_neg hn, List.map_cons, ih]
      by_cases hmem : name ∈ rest.map Prod.fst
      · simp [hmem]
      · simp [hmem, Ne.symm hn]

theorem names_insert : (r.insert name item).2.names =
    if name ∈ r.names then r.names else r.names ++ [name] :=
  names_insertEntry

theorem nodup_names_insert (hnodup : r.names.Nodup) : (r.insert name item).2.names.Nodup := by
  rw [names_insert]
  split
  next => exact hnodup
  next hmem =>
    refine List.nodup_append.mpr ⟨hnodup, List.pairwise_singleton _ _, ?_⟩
    intro a ha b hb heq
    rw [List.mem_singleton] at hb
    exact hmem (hb ▸ heq ▸ ha)

/-- The new item comes in and the displaced one goes out. -/
theorem perm_items_insertEntry {entries : List (QName × α)} :
    ((entries.lookup name).toList ++ (insertEntry name item entries).map Prod.snd).Perm
      (item :: entries.map Prod.snd) := by
  induction entries with
  | nil => exact List.Perm.refl _
  | cons entry rest ih =>
    obtain ⟨n, i⟩ := entry
    unfold insertEntry
    rw [List.lookup_cons]
    by_cases hn : n = name
    · subst hn
      rw [if_pos rfl, beq_self_eq_true]
      exact List.Perm.swap item i _
    · rw [if_neg hn, beq_false_of_ne (Ne.symm hn)]
      -- The entry at hand stays, and the exchange takes place behind it.
      refine List.Perm.trans List.perm_middle ?_
      exact (ih.cons i).trans (List.Perm.swap item i _)

theorem perm_items_insert :
    ((r.insert name item).1.toList ++ (r.insert name item).2.items).Perm (item :: r.items) :=
  perm_items_insertEntry

/-! ## Removing entries -/

theorem lookup_filter {entries : List (QName × α)} :
    (entries.filter fun (n, _) => n ≠ name).lookup other =
      if other = name then none else entries.lookup other := by
  induction entries with
  | nil => simp
  | cons entry rest ih =>
    obtain ⟨n, i⟩ := entry
    rw [List.filter_cons]
    by_cases hn : n = name
    · rw [if_neg (by simpa using hn), ih, hn]
      by_cases h : other = name
      · rw [if_pos h, if_pos h]
      · rw [lookup_cons_of_ne h]
    · rw [if_pos (by simpa using hn)]
      by_cases h : other = n
      · rw [h, List.lookup_cons_self, List.lookup_cons_self, if_neg hn]
      · rw [lookup_cons_of_ne h, lookup_cons_of_ne h, ih]

theorem get?_remove : (r.remove name).2.get? other =
    if other = name then none else r.get? other :=
  lookup_filter

/-- Removing a name that is not there changes nothing. -/
theorem remove_of_get?_eq_none (h : r.get? name = none) : (r.remove name).2 = r := by
  have hkeep : r.entries.filter (fun (n, _) => n ≠ name) = r.entries := by
    refine List.filter_eq_self.mpr fun entry hentry => decide_eq_true fun heq => ?_
    have hne := List.lookup_eq_none_iff.mp h entry hentry
    exact bne_iff_ne.mp hne heq.symm
  exact congrArg Registry.mk hkeep

theorem names_remove : (r.remove name).2.names = r.names.filter fun n => n ≠ name := by
  show (r.entries.filter _).map Prod.fst = (r.entries.map Prod.fst).filter _
  rw [List.filter_map]
  rfl

theorem nodup_names_remove (hnodup : r.names.Nodup) : (r.remove name).2.names.Nodup := by
  rw [names_remove]
  exact hnodup.filter _

/-- Removes these names, one after the other. -/
def removeNames (r : Registry α) : List QName → Registry α
  | [] => r
  | name :: rest => (r.remove name).2.removeNames rest

theorem get?_removeNames {names : List QName} :
    (r.removeNames names).get? other = if other ∈ names then none else r.get? other := by
  induction names generalizing r with
  | nil => simp [removeNames]
  | cons name rest ih =>
    unfold removeNames
    rw [ih, get?_remove]
    by_cases h : other = name
    · simp [h]
    · simp [h]

/-- Without its own names a registry is empty. -/
theorem removeNames_names : r.removeNames r.names.reverse = .empty := by
  have hnone : ∀ name, name ∉ (r.removeNames r.names.reverse).names := by
    intro name hname
    obtain ⟨item, hitem⟩ := mem_names_iff.mp hname
    rw [get?_removeNames] at hitem
    split at hitem
    next => cases hitem
    next hmem => exact hmem (List.mem_reverse.mpr (mem_names_iff.mpr ⟨item, hitem⟩))
  have hentries : (r.removeNames r.names.reverse).entries = [] :=
    List.map_eq_nil_iff.mp (List.eq_nil_iff_forall_not_mem.mpr hnone)
  exact congrArg Registry.mk hentries

theorem perm_items_filter {entries : List (QName × α)} (hnodup : (entries.map Prod.fst).Nodup) :
    ((entries.lookup name).toList ++ (entries.filter fun (n, _) => n ≠ name).map Prod.snd).Perm
      (entries.map Prod.snd) := by
  induction entries with
  | nil => exact List.Perm.refl _
  | cons entry rest ih =>
    obtain ⟨n, i⟩ := entry
    obtain ⟨hnew, hrest⟩ := List.nodup_cons.mp hnodup
    rw [List.filter_cons, List.lookup_cons]
    by_cases hn : n = name
    · subst hn
      -- The name is not listed again, so nothing else goes.
      have hkeep : rest.filter (fun (m, _) => m ≠ n) = rest := by
        rw [List.filter_eq_self]
        intro entry hentry
        refine decide_eq_true fun heq => hnew ?_
        rw [← heq]
        exact List.mem_map.mpr ⟨entry, hentry, rfl⟩
      rw [if_neg (by simp), hkeep, beq_self_eq_true]
      exact List.Perm.refl _
    · rw [if_pos (by simpa using hn), beq_false_of_ne (Ne.symm hn)]
      exact List.perm_middle.trans ((ih hrest).cons i)

/-- The removed item goes out. -/
theorem perm_items_remove (hnodup : r.names.Nodup) :
    ((r.remove name).1.toList ++ (r.remove name).2.items).Perm r.items :=
  perm_items_filter hnodup

end Registry

end SoapPipeline
