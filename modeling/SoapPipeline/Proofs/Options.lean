/-
  SoapPipeline.Proofs.Options

  Option tables as maps that keep the order of insertion.

  A table is filled by insertions, and what it holds is said here by the insertions
  alone.  Under a key it has the value that was inserted last, and the keys stand in the
  order in which they were first inserted.  Lookups agree with what is listed, and the
  two lookups of fault handlers read one and the same entry.

  Main results:
    * `insertEntry_cases`: an insertion replaces the value of one entry, or adds an entry
      at the end;
    * `Records.insert`, `records_inserted`: what is listed after any insertions;
    * `get?_eq_some_iff`: a table that lists no key twice finds what it lists;
    * `inserted_ordered_map`: all lookups after any insertions.
-/
import Mathlib.Data.List.Nodup
import Mathlib.Data.List.Induction
import SoapPipeline.Handler

namespace SoapPipeline

namespace Options

variable {o : Options} {key s : String} {value : OptionValue}
  {entries insertions : List (String × OptionValue)}

/-! ## One insertion -/

/-- The keys in the order in which they are listed. -/
def keys (o : Options) : List String := o.entries.map Prod.fst

/-- An insertion replaces the value of the first entry with the key, or adds an entry at
the end when there is none. -/
theorem insertEntry_cases (key : String) (value : OptionValue)
    (entries : List (String × OptionValue)) :
    (∃ front old back, entries = front ++ (key, old) :: back ∧ key ∉ front.map Prod.fst ∧
      insertEntry key value entries = front ++ (key, value) :: back) ∨
    (key ∉ entries.map Prod.fst ∧ insertEntry key value entries = entries ++ [(key, value)]) := by
  induction entries with
  | nil => exact Or.inr ⟨List.not_mem_nil, rfl⟩
  | cons entry rest ih =>
    obtain ⟨k, v⟩ := entry
    unfold insertEntry
    by_cases hk : k = key
    · subst hk
      rw [if_pos rfl]
      exact Or.inl ⟨[], v, rest, rfl, List.not_mem_nil, rfl⟩
    · rw [if_neg hk]
      rcases ih with ⟨front, old, back, hsplit, hfront, hinsert⟩ | ⟨hnew, hinsert⟩
      · refine Or.inl ⟨(k, v) :: front, old, back, by rw [hsplit]; rfl, ?_, by rw [hinsert]; rfl⟩
        rw [List.map_cons, List.mem_cons, not_or]
        exact ⟨Ne.symm hk, hfront⟩
      · refine Or.inr ⟨?_, by rw [hinsert]; rfl⟩
        rw [List.map_cons, List.mem_cons, not_or]
        exact ⟨Ne.symm hk, hnew⟩

theorem keys_insert :
    (o.insert key value).keys = if key ∈ o.keys then o.keys else o.keys ++ [key] := by
  unfold keys insert
  rcases insertEntry_cases key value o.entries with
    ⟨front, old, back, hsplit, -, hinsert⟩ | ⟨hnew, hinsert⟩
  · rw [hinsert, hsplit]
    simp
  · rw [hinsert, if_neg hnew, List.map_append]
    rfl

/-- The inserted entry comes in, and no other entry with its key stays. -/
theorem mem_entries_insert (hnodup : o.keys.Nodup) {entry : String × OptionValue} :
    entry ∈ (o.insert key value).entries ↔
      entry = (key, value) ∨ entry.1 ≠ key ∧ entry ∈ o.entries := by
  unfold keys at hnodup
  unfold insert
  rcases insertEntry_cases key value o.entries with
    ⟨front, old, back, hsplit, hfront, hinsert⟩ | ⟨hnew, hinsert⟩
  · rw [hsplit, List.map_append, List.map_cons] at hnodup
    have hback : key ∉ back.map Prod.fst :=
      (List.nodup_cons.mp (List.nodup_append.mp hnodup).2.1).1
    have hrest : entry ∈ front ∨ entry ∈ back → entry.1 ≠ key := by
      rintro (hmem | hmem) rfl
      · exact hfront (List.mem_map_of_mem hmem)
      · exact hback (List.mem_map_of_mem hmem)
    have hold : entry = (key, old) → entry.1 = key := fun heq => by rw [heq]
    rw [hinsert, hsplit]
    simp only [List.mem_append, List.mem_cons]
    grind
  · have hrest : entry ∈ o.entries → entry.1 ≠ key := by
      rintro hmem rfl
      exact hnew (List.mem_map_of_mem hmem)
    rw [hinsert]
    simp only [List.mem_append, List.mem_singleton]
    grind

/-! ## What the insertions say -/

/-- The value was inserted last under the key. -/
def Latest (insertions : List (String × OptionValue)) (key : String) (value : OptionValue) :
    Prop :=
  ∃ front back, insertions = front ++ (key, value) :: back ∧ ∀ e ∈ back, e.1 ≠ key

/-- One key was first inserted before the other one was. -/
def FirstBefore (insertions : List (String × OptionValue)) (key other : String) : Prop :=
  (insertions.map Prod.fst).idxOf key < (insertions.map Prod.fst).idxOf other

/-- A further insertion gives the latest value of its own key, and of no other one. -/
theorem latest_concat_iff (entry : String × OptionValue) :
    Latest (insertions ++ [(key, value)]) entry.1 entry.2 ↔
      entry = (key, value) ∨ entry.1 ≠ key ∧ Latest insertions entry.1 entry.2 := by
  constructor
  · rintro ⟨front, back, hsplit, hback⟩
    rcases List.eq_nil_or_concat back with rfl | ⟨back, last, rfl⟩
    · exact Or.inl (List.singleton_inj.mp (List.append_inj' hsplit rfl).2).symm
    · rw [List.concat_eq_append] at hsplit hback
      rw [← List.cons_append, ← List.append_assoc] at hsplit
      obtain ⟨rfl, hlast⟩ := List.append_inj' hsplit rfl
      obtain rfl := List.singleton_inj.mp hlast
      refine Or.inr ⟨?_, front, back, rfl, fun e he => hback e (List.mem_append_left _ he)⟩
      exact (hback (key, value) (List.mem_append_right _ List.mem_cons_self)).symm
  · rintro (rfl | ⟨hne, front, back, rfl, hback⟩)
    · exact ⟨insertions, [], rfl, fun e he => absurd he List.not_mem_nil⟩
    · refine ⟨front, back ++ [(key, value)], by simp, fun e he => ?_⟩
      rcases List.mem_append.mp he with he | he
      · exact hback e he
      · rw [List.mem_singleton.mp he]
        exact hne.symm

/-! ## What is listed -/

/-- The table lists what the insertions say. -/
structure Records (insertions : List (String × OptionValue)) (o : Options) : Prop where
  /-- The keys are those that were inserted. -/
  mem_keys : ∀ key, key ∈ o.keys ↔ key ∈ insertions.map Prod.fst
  /-- They stand in the order in which they were first inserted. -/
  ordered : o.keys.Pairwise (FirstBefore insertions)
  /-- Each carries the value that was inserted last under it. -/
  latest : ∀ key value, (key, value) ∈ o.entries ↔ Latest insertions key value

theorem Records.nodup_keys (h : Records insertions o) : o.keys.Nodup := by
  refine h.ordered.imp ?_
  rintro key other hbefore rfl
  exact Nat.lt_irrefl _ hbefore

/-- The order of keys that were inserted is not changed by a further insertion, and a new key
comes after them. -/
theorem Records.ordered_concat (h : Records insertions o) :
    (o.insert key value).keys.Pairwise (FirstBefore (insertions ++ [(key, value)])) := by
  have hmoment : ∀ k ∈ o.keys, ((insertions ++ [(key, value)]).map Prod.fst).idxOf k =
      (insertions.map Prod.fst).idxOf k := by
    intro k hk
    rw [List.map_append, List.idxOf_append_of_mem ((h.mem_keys k).mp hk)]
  have hkept : o.keys.Pairwise (FirstBefore (insertions ++ [(key, value)])) := by
    refine h.ordered.imp_of_mem fun {a b} ha hb hbefore => ?_
    unfold FirstBefore
    rw [hmoment a ha, hmoment b hb]
    exact hbefore
  rw [keys_insert]
  split
  next => exact hkept
  next hnew =>
    refine List.pairwise_append.mpr ⟨hkept, List.pairwise_singleton _ _, fun a ha b hb => ?_⟩
    have hfresh : key ∉ insertions.map Prod.fst := mt (h.mem_keys key).mpr hnew
    rw [List.mem_singleton.mp hb]
    unfold FirstBefore
    rw [hmoment a ha, List.map_append, List.idxOf_append_of_notMem hfresh]
    exact Nat.lt_add_right _ (List.idxOf_lt_length_iff.mpr ((h.mem_keys a).mp ha))

/-- An insertion is recorded. -/
theorem Records.insert (h : Records insertions o) :
    Records (insertions ++ [(key, value)]) (o.insert key value) := by
  refine ⟨fun k => ?_, h.ordered_concat, fun k v => ?_⟩
  · rw [keys_insert, List.map_append, List.mem_append, ← h.mem_keys k]
    split
    next hmem =>
      refine (or_iff_left_of_imp fun hk => ?_).symm
      rw [List.mem_singleton.mp hk]
      exact hmem
    next => exact List.mem_append
  · rw [mem_entries_insert h.nodup_keys, latest_concat_iff (k, v), h.latest]

/-- The table after these insertions into an empty one. -/
def inserted (insertions : List (String × OptionValue)) : Options :=
  insertions.foldl (fun o entry => o.insert entry.1 entry.2) empty

theorem records_inserted (insertions : List (String × OptionValue)) :
    Records insertions (inserted insertions) := by
  induction insertions using List.reverseRecOn with
  | nil =>
    refine ⟨fun key => Iff.rfl, List.Pairwise.nil, fun key value => ?_⟩
    refine iff_of_false List.not_mem_nil ?_
    rintro ⟨front, back, hsplit, -⟩
    exact absurd hsplit (by simp)
  | append_singleton insertions entry ih =>
    have hlast : inserted (insertions ++ [entry]) =
        (inserted insertions).insert entry.1 entry.2 := List.foldl_concat ..
    rw [hlast]
    exact ih.insert

/-! ## What is found -/

/-- A table that lists no key twice finds what it lists. -/
theorem get?_eq_some_iff (hnodup : o.keys.Nodup) :
    o.get? key = some value ↔ (key, value) ∈ o.entries := by
  unfold get?
  unfold keys at hnodup
  rw [List.lookup_eq_some_iff]
  constructor
  · rintro ⟨front, back, hsplit, -⟩
    rw [hsplit]
    exact List.mem_append_right front List.mem_cons_self
  · intro hmem
    obtain ⟨front, back, hsplit⟩ := List.append_of_mem hmem
    refine ⟨front, back, hsplit, fun entry hentry => bne_iff_ne.mpr fun heq => ?_⟩
    rw [hsplit, List.map_append, List.map_cons] at hnodup
    exact (List.nodup_append.mp hnodup).2.2 entry.1 (List.mem_map_of_mem hentry) key
      List.mem_cons_self heq.symm

theorem text?_eq_some_iff : o.text? key = some s ↔ o.get? key = some (.text s) := by
  unfold text?
  cases o.get? key with
  | none => simp
  | some value => cases value <;> simp

theorem contains_iff : o.contains key = true ↔ key ∈ o.keys := by
  unfold contains get? keys
  cases hget : o.entries.lookup key with
  | none =>
    refine iff_of_false Bool.false_ne_true fun hkey => ?_
    obtain ⟨entry, hentry, rfl⟩ := List.mem_map.mp hkey
    simpa using List.lookup_eq_none_iff.mp hget entry hentry
  | some value =>
    obtain ⟨front, back, hsplit, -⟩ := List.lookup_eq_some_iff.mp hget
    refine iff_of_true rfl ?_
    rw [hsplit]
    simp

/-! ## Handlers of faults -/

section Faults

variable {code : QName} {h : Handler}

theorem faultHandler?_eq_some_iff :
    o.faultHandler? code = some h ↔ o.get? (FaultCode.key code) = some (.handler h) := by
  unfold faultHandler?
  cases o.get? (FaultCode.key code) with
  | none => simp
  | some value => cases value <;> simp

/-- A descriptor puts up the handler of the option, or its own where the option holds a
text. -/
theorem registeredFor?_eq_some_iff {d : Descriptor} :
    d.registeredFor? code = some h ↔
      d.options.get? (FaultCode.key code) = some (.handler h) ∨
        d.handler = h ∧ ∃ s, d.options.get? (FaultCode.key code) = some (.text s) := by
  unfold Descriptor.registeredFor?
  cases d.options.get? (FaultCode.key code) with
  | none => simp
  | some value => cases value <;> simp

end Faults

/-- After any insertions the keys are listed once each, in the order in which they were first
inserted and with the values inserted last, and everything is found as it is listed.  The
handlers of a fault are found in the entry under the local part of its code: a handler
there by both lookups, and a text there by that of descriptors only, which put up their
own handler for it. -/
theorem inserted_ordered_map (insertions : List (String × OptionValue)) :
    (inserted insertions).keys.Nodup ∧
      Records insertions (inserted insertions) ∧
      (∀ key value, (inserted insertions).get? key = some value ↔
        (key, value) ∈ (inserted insertions).entries) ∧
      (∀ key s, (inserted insertions).text? key = some s ↔
        (key, .text s) ∈ (inserted insertions).entries) ∧
      (∀ key, (inserted insertions).contains key = true ↔ key ∈ (inserted insertions).keys) ∧
      (inserted insertions).size = (inserted insertions).keys.length ∧
      (∀ code h, (inserted insertions).faultHandler? code = some h ↔
        ("fault-" ++ code.localPart, .handler h) ∈ (inserted insertions).entries) ∧
      ∀ name own rule code h,
        (Descriptor.mk name own (inserted insertions) rule).registeredFor? code = some h ↔
          ("fault-" ++ code.localPart, .handler h) ∈ (inserted insertions).entries ∨
            own = h ∧
              ∃ s, ("fault-" ++ code.localPart, .text s) ∈ (inserted insertions).entries := by
  have hrecords := records_inserted insertions
  have hfound : ∀ key value, (inserted insertions).get? key = some value ↔
      (key, value) ∈ (inserted insertions).entries :=
    fun key value => get?_eq_some_iff hrecords.nodup_keys
  refine ⟨hrecords.nodup_keys, hrecords, hfound, fun key s => ?_, fun key => contains_iff,
    (List.length_map Prod.fst).symm, fun code h => ?_, fun name own rule code h => ?_⟩
  · rw [text?_eq_some_iff, hfound]
  · rw [faultHandler?_eq_some_iff, hfound]
    rfl
  · simp only [registeredFor?_eq_some_iff, hfound]
    rfl

example : (inserted [("a", .text "1"), ("b", .text "2"), ("a", .text "3")]).entries =
    [("a", .text "3"), ("b", .text "2")] := by
  rfl

end Options

end SoapPipeline
