/-
  SoapPipeline.Proofs.Registry.Calls

  Registries over whole sequences of calls.

  What a registry lists is said here by the calls alone.  Under a name it has what was
  inserted last, unless the name was removed since.  A name has arrived when it was
  inserted while it was absent, and names stand in the order in which they arrived last:
  one that is replaced keeps its place, and one that is removed and inserted again goes
  to the end.

  A registry may also be kept in two structures, a map from names and a list of names,
  which change one after the other.  Such a catalogue answers every call as the registry
  does.

  Main results:
    * `Lists.call`: what one call does to what is listed;
    * `lists_after`: what is listed after any calls;
    * `Mirrors.call`, `mirrors_after`: catalogues are registries.
-/
import Mathlib.Data.List.Forall2
import Mathlib.Data.List.Induction
import Mathlib.Logic.Function.Basic
import SoapPipeline.Proofs.Registry

namespace SoapPipeline

variable {α : Type}

namespace Registry

/-! ## Calls -/

/-- What is done to a registry. -/
inductive Call (α : Type) where
  | insert (name : QName) (item : α)
  | remove (name : QName)
  /-- All names are removed, the last one first. -/
  | shutdownAll

/-- What a call gives back, and the registry after it. -/
def call (r : Registry α) : Call α → Option α × Registry α
  | .insert name item => r.insert name item
  | .remove name => r.remove name
  | .shutdownAll => (none, r.removeNames r.names.reverse)

/-- The registry after these calls on it. -/
def callAll (r : Registry α) (calls : List (Call α)) : Registry α :=
  calls.foldl (fun r c => (r.call c).2) r

/-- The registry after these calls on an empty one. -/
def after (calls : List (Call α)) : Registry α := empty.callAll calls

theorem after_append (calls calls' : List (Call α)) :
    after (calls ++ calls') = (after calls).callAll calls' :=
  List.foldl_append

/-! ## What the calls say -/

/-- The call is about this name. -/
def Call.Touches (name : QName) : Call α → Prop
  | .insert other _ => other = name
  | .remove other => other = name
  | .shutdownAll => True

/-- The item was inserted last under the name, and the name was not removed since. -/
def Latest (calls : List (Call α)) (name : QName) (item : α) : Prop :=
  ∃ front back, calls = front ++ .insert name item :: back ∧ ∀ c ∈ back, ¬ c.Touches name

/-- Nothing was inserted under the name, or it was removed since. -/
def Absent (calls : List (Call α)) (name : QName) : Prop :=
  ∀ item, ¬ Latest calls name item

/-- At this moment the name was inserted while it was absent. -/
def ArrivedAt (calls : List (Call α)) (name : QName) (moment : Nat) : Prop :=
  ∃ item, calls[moment]? = some (.insert name item) ∧ Absent (calls.take moment) name

/-- At this moment the name was inserted while it was absent, and never again. -/
structure Arrival (calls : List (Call α)) (name : QName) (moment : Nat) : Prop where
  arrived : ArrivedAt calls name moment
  last : ∀ later, ArrivedAt calls name later → later ≤ moment

/-- The last arrival of one name was before that of another. -/
def Earlier (calls : List (Call α)) (name other : QName) : Prop :=
  ∀ moment moment', Arrival calls name moment → Arrival calls other moment' → moment < moment'

/-! ### One more call -/

section Concat

variable {calls : List (Call α)} {c : Call α} {name other : QName} {item : α} {moment : Nat}

/-- A further call inserts the item, or leaves the name alone. -/
theorem latest_concat_iff :
    Latest (calls ++ [c]) name item ↔
      c = .insert name item ∨ ¬ c.Touches name ∧ Latest calls name item := by
  constructor
  · intro h
    obtain ⟨front, back, hsplit, hback⟩ := h
    rcases List.eq_nil_or_concat back with rfl | ⟨back, last, rfl⟩
    · exact Or.inl (List.singleton_inj.mp (List.append_inj' hsplit rfl).2)
    · rw [List.concat_eq_append] at hsplit hback
      rw [← List.cons_append, ← List.append_assoc] at hsplit
      obtain ⟨rfl, hlast⟩ := List.append_inj' hsplit rfl
      obtain rfl := List.singleton_inj.mp hlast
      refine Or.inr ⟨hback c (List.mem_append_right _ List.mem_cons_self), front, back, rfl, ?_⟩
      exact fun c hc => hback c (List.mem_append_left _ hc)
  · intro h
    rcases h with rfl | ⟨hspared, front, back, rfl, hback⟩
    · exact ⟨calls, [], rfl, fun c hc => absurd hc List.not_mem_nil⟩
    · refine ⟨front, back ++ [c], by simp, fun c' hc' => ?_⟩
      rcases List.mem_append.mp hc' with hc' | hc'
      · exact hback c' hc'
      · rw [List.mem_singleton.mp hc']
        exact hspared

/-- A name may arrive with a further call. -/
theorem arrivedAt_concat_iff :
    ArrivedAt (calls ++ [c]) name moment ↔
      ArrivedAt calls name moment ∨
        moment = calls.length ∧ Absent calls name ∧ ∃ item, c = .insert name item := by
  unfold ArrivedAt
  rcases Nat.lt_trichotomy moment calls.length with hearly | rfl | hlate
  · rw [List.getElem?_append_left hearly, List.take_append_of_le_length (Nat.le_of_lt hearly)]
    constructor
    · exact Or.inl
    · intro h
      rcases h with h | ⟨rfl, -⟩
      · exact h
      · exact absurd hearly (Nat.lt_irrefl _)
  · rw [List.getElem?_concat_length, List.take_left, List.getElem?_eq_none (Nat.le_refl _)]
    constructor
    · intro h
      obtain ⟨item, hc, habsent⟩ := h
      exact Or.inr ⟨rfl, habsent, item, Option.some.inj hc⟩
    · intro h
      rcases h with ⟨item, hnone, -⟩ | ⟨-, habsent, item, rfl⟩
      · cases hnone
      · exact ⟨item, rfl, habsent⟩
  · have hlate' : (calls ++ [c]).length ≤ moment := by
      rw [List.length_append]
      exact hlate
    rw [List.getElem?_eq_none hlate', List.getElem?_eq_none (Nat.le_of_lt hlate)]
    constructor
    · intro h
      obtain ⟨item, hnone, -⟩ := h
      cases hnone
    · intro h
      rcases h with ⟨item, hnone, -⟩ | ⟨rfl, -⟩
      · cases hnone
      · exact absurd hlate (Nat.lt_irrefl _)

theorem ArrivedAt.lt_length (h : ArrivedAt calls name moment) : moment < calls.length := by
  obtain ⟨item, hitem, -⟩ := h
  exact (List.getElem?_eq_some_iff.mp hitem).1

/-- A name that is there keeps its arrival. -/
theorem arrival_concat_iff (hpresent : ¬ Absent calls name) :
    Arrival (calls ++ [c]) name moment ↔ Arrival calls name moment := by
  have hsame : ∀ moment, ArrivedAt (calls ++ [c]) name moment ↔ ArrivedAt calls name moment := by
    intro moment
    rw [arrivedAt_concat_iff, or_iff_left]
    intro h
    exact hpresent h.2.1
  constructor
  · intro h
    exact ⟨(hsame _).mp h.arrived, fun later hlater => h.last later ((hsame _).mpr hlater)⟩
  · intro h
    exact ⟨(hsame _).mpr h.arrived, fun later hlater => h.last later ((hsame _).mp hlater)⟩

/-- A name that arrives with the last call has that for its arrival. -/
theorem arrival_concat_of_absent (habsent : Absent calls name) :
    Arrival (calls ++ [.insert name item]) name moment ↔ moment = calls.length := by
  have hnow : ArrivedAt (calls ++ [.insert name item]) name calls.length :=
    arrivedAt_concat_iff.mpr (Or.inr ⟨rfl, habsent, item, rfl⟩)
  have hlast : ∀ later, ArrivedAt (calls ++ [.insert name item]) name later →
      later ≤ calls.length := by
    intro later hlater
    have := hlater.lt_length
    rw [List.length_append, List.length_singleton] at this
    omega
  constructor
  · intro harrival
    exact Nat.le_antisymm (hlast moment harrival.arrived) (harrival.last _ hnow)
  · intro hmoment
    rw [hmoment]
    exact ⟨hnow, hlast⟩

end Concat

/-! ## What is listed -/

/-- The names are those under which something is registered, each once and in the order in which
they arrived last, and the items are the latest ones of the names. -/
structure InOrder (calls : List (Call α)) (names : List QName) (items : List α) : Prop where
  nodup : names.Nodup
  registered : ∀ name, name ∈ names ↔ ∃ item, Latest calls name item
  arrived : ∀ name ∈ names, ∃ moment, Arrival calls name moment
  ordered : names.Pairwise (Earlier calls)
  latest : List.Forall₂ (Latest calls) names items

/-- The registry finds the latest items, and has its names in order. -/
structure Lists (calls : List (Call α)) (r : Registry α) : Prop where
  nodup : r.names.Nodup
  found : ∀ name item, r.get? name = some item ↔ Latest calls name item
  arrived : ∀ name ∈ r.names, ∃ moment, Arrival calls name moment
  ordered : r.names.Pairwise (Earlier calls)

namespace Lists

variable {calls : List (Call α)} {c : Call α} {r : Registry α} {name : QName} {item : α}

theorem empty : Lists [] (.empty : Registry α) := by
  refine ⟨List.nodup_nil, ?_, ?_, List.Pairwise.nil⟩
  · intro name item
    constructor
    · intro h
      cases h
    · intro h
      obtain ⟨front, back, hsplit, -⟩ := h
      cases front <;> cases hsplit
  · intro name hname
    exact absurd hname List.not_mem_nil

theorem registered (h : Lists calls r) : name ∈ r.names ↔ ∃ item, Latest calls name item := by
  rw [mem_names_iff]
  exact exists_congr fun item => h.found name item

theorem absent_iff (h : Lists calls r) : Absent calls name ↔ name ∉ r.names := by
  rw [h.registered, not_exists]
  rfl

/-- Whatever is called, the names that are there keep their arrivals, and so their order. -/
theorem kept (h : Lists calls r) (c : Call α) :
    (∀ name ∈ r.names, ∃ moment, Arrival (calls ++ [c]) name moment) ∧
      r.names.Pairwise (Earlier (calls ++ [c])) := by
  have hsame : ∀ name ∈ r.names, ∀ moment,
      Arrival (calls ++ [c]) name moment ↔ Arrival calls name moment := by
    intro name hname moment
    exact arrival_concat_iff fun habsent => h.absent_iff.mp habsent hname
  constructor
  · intro name hname
    obtain ⟨moment, harrival⟩ := h.arrived name hname
    exact ⟨moment, (hsame name hname moment).mpr harrival⟩
  · refine h.ordered.imp_of_mem ?_
    intro name other hname hother hearlier moment moment' harrival harrival'
    exact hearlier moment moment' ((hsame name hname moment).mp harrival)
      ((hsame other hother moment').mp harrival')

/-! ### One call -/

theorem found_insert (h : Lists calls r) (name : QName) (item : α) (other : QName) (found : α) :
    (r.insert name item).2.get? other = some found ↔
      Latest (calls ++ [.insert name item]) other found := by
  rw [get?_insert, latest_concat_iff]
  by_cases heq : other = name
  · rw [if_pos heq, heq]
    constructor
    · intro hfound
      rw [Option.some.inj hfound]
      exact Or.inl rfl
    · intro hlatest
      rcases hlatest with hcall | ⟨hspared, -⟩
      · rw [(Call.insert.inj hcall).2]
      · exact absurd rfl hspared
  · rw [if_neg heq, h.found]
    constructor
    · intro hlatest
      exact Or.inr ⟨fun htouches => heq htouches.symm, hlatest⟩
    · intro hlatest
      rcases hlatest with hcall | ⟨-, hlatest⟩
      · exact absurd (Call.insert.inj hcall).1.symm heq
      · exact hlatest

/-- Only a name that was absent is new in the list, and it arrives behind all others. -/
theorem listed_insert (h : Lists calls r) (name : QName) (item : α) :
    (∀ other ∈ (r.insert name item).2.names,
      ∃ moment, Arrival (calls ++ [.insert name item]) other moment) ∧
    (r.insert name item).2.names.Pairwise (Earlier (calls ++ [.insert name item])) := by
  rw [names_insert]
  split
  next => exact h.kept _
  next hname =>
    have habsent : Absent calls name := h.absent_iff.mpr hname
    obtain ⟨harrived, hordered⟩ := h.kept (.insert name item)
    constructor
    · intro other hother
      rcases List.mem_append.mp hother with hother | hother
      · exact harrived other hother
      · rw [List.mem_singleton.mp hother]
        exact ⟨calls.length, (arrival_concat_of_absent habsent).mpr rfl⟩
    · refine List.pairwise_append.mpr ⟨hordered, List.pairwise_singleton _ _, ?_⟩
      intro other hother last hlast moment moment' harrival harrival'
      rw [List.mem_singleton.mp hlast, arrival_concat_of_absent habsent] at harrival'
      rw [arrival_concat_iff fun habsent => h.absent_iff.mp habsent hother] at harrival
      rw [harrival']
      exact harrival.arrived.lt_length

theorem insert (h : Lists calls r) (name : QName) (item : α) :
    Lists (calls ++ [.insert name item]) (r.insert name item).2 :=
  ⟨nodup_names_insert h.nodup, h.found_insert name item, (h.listed_insert name item).1,
    (h.listed_insert name item).2⟩

theorem remove (h : Lists calls r) (name : QName) :
    Lists (calls ++ [.remove name]) (r.remove name).2 := by
  obtain ⟨harrived, hordered⟩ := h.kept (.remove name)
  refine ⟨nodup_names_remove h.nodup, ?_, ?_, ?_⟩
  · intro other found
    rw [get?_remove, latest_concat_iff, or_iff_right (by simp)]
    by_cases heq : other = name
    · rw [if_pos heq]
      exact iff_of_false (by simp) fun hlatest => hlatest.1 heq.symm
    · rw [if_neg heq, h.found]
      exact (and_iff_right fun htouches : name = other => heq htouches.symm).symm
  · intro other hother
    rw [names_remove] at hother
    exact harrived other (List.mem_of_mem_filter hother)
  · rw [names_remove]
    exact hordered.filter _

theorem shutdownAll : Lists (calls ++ [.shutdownAll]) (.empty : Registry α) := by
  refine ⟨List.nodup_nil, ?_, ?_, List.Pairwise.nil⟩
  · intro name item
    rw [latest_concat_iff, or_iff_right (by simp)]
    refine iff_of_false ?_ fun hlatest => hlatest.1 trivial
    intro h
    cases h
  · intro name hname
    exact absurd hname List.not_mem_nil

/-- What one call does to what is listed. -/
theorem call (h : Lists calls r) (c : Call α) : Lists (calls ++ [c]) (r.call c).2 := by
  cases c with
  | insert name item => exact h.insert name item
  | remove name => exact h.remove name
  | shutdownAll =>
    show Lists _ (r.removeNames r.names.reverse)
    rw [removeNames_names]
    exact shutdownAll

theorem inOrder (h : Lists calls r) : InOrder calls r.names r.items := by
  refine ⟨h.nodup, fun name => h.registered, h.arrived, h.ordered, ?_⟩
  unfold names items
  rw [List.forall₂_map_left_iff, List.forall₂_map_right_iff, List.forall₂_same]
  intro entry hentry
  exact (h.found entry.1 entry.2).mp (get?_of_mem_entries h.nodup hentry)

end Lists

/-- What is listed after any calls. -/
theorem lists_after (calls : List (Call α)) : Lists calls (after calls) := by
  induction calls using List.reverseRecOn with
  | nil => exact Lists.empty
  | append_singleton calls c ih =>
    rw [after_append]
    exact ih.call c

end Registry

/-! ## Two structures -/

/-- What is registered as a map from names, and next to it the names in order. -/
structure Catalogue (α : Type) where
  byName : QName → Option α
  order : List QName

namespace Catalogue

def empty : Catalogue α := ⟨fun _ => none, []⟩

/-- What is registered under the names, in their order. -/
def items (c : Catalogue α) : List α := c.order.filterMap c.byName

/-- Sets what is under the name, and puts the name at the end if nothing was displaced. -/
def insert (c : Catalogue α) (name : QName) (item : α) : Option α × Catalogue α :=
  let previous := c.byName name
  (previous, {
    byName := Function.update c.byName name (some item)
    order := if previous.isNone then c.order ++ [name] else c.order })

/-- Takes out what is under the name; the order is touched only if there was something. -/
def remove (c : Catalogue α) (name : QName) : Option α × Catalogue α :=
  match c.byName name with
  | none => (none, c)
  | some item => (some item, {
      byName := Function.update c.byName name none
      order := c.order.filter fun n => n ≠ name })

/-- Removes these names, one after the other. -/
def removeNames (c : Catalogue α) : List QName → Catalogue α
  | [] => c
  | name :: rest => (c.remove name).2.removeNames rest

/-- What a call gives back, and the catalogue after it. -/
def call (c : Catalogue α) : Registry.Call α → Option α × Catalogue α
  | .insert name item => c.insert name item
  | .remove name => c.remove name
  | .shutdownAll => (none, c.removeNames c.order.reverse)

/-- The catalogue after these calls. -/
def after (calls : List (Registry.Call α)) : Catalogue α :=
  calls.foldl (fun c call => (c.call call).2) .empty

/-- The catalogue says the same as the registry. -/
structure Mirrors (c : Catalogue α) (r : Registry α) : Prop where
  byName : c.byName = r.get?
  order : c.order = r.names

namespace Mirrors

variable {c : Catalogue α} {r : Registry α}

theorem insert (h : Mirrors c r) (name : QName) (item : α) :
    (c.insert name item).1 = (r.insert name item).1 ∧
      Mirrors (c.insert name item).2 (r.insert name item).2 := by
  refine ⟨congrFun h.byName name, ?_, ?_⟩
  · funext other
    show Function.update c.byName name (some item) other = _
    rw [h.byName, Registry.get?_insert, Function.update_apply]
  · show (if (c.byName name).isNone then c.order ++ [name] else c.order) = _
    rw [h.byName, h.order, Registry.names_insert]
    -- A name is in the order exactly if there is something under it.
    have hmem : name ∈ r.names ↔ ∃ old, r.get? name = some old := Registry.mem_names_iff
    cases hget : r.get? name with
    | none =>
      rw [hget] at hmem
      rw [if_neg (show name ∉ r.names by simp [hmem])]
      rfl
    | some old =>
      rw [hget] at hmem
      rw [if_pos (show name ∈ r.names by simp [hmem])]
      rfl

theorem remove (h : Mirrors c r) (name : QName) :
    (c.remove name).1 = (r.remove name).1 ∧ Mirrors (c.remove name).2 (r.remove name).2 := by
  cases hget : r.get? name with
  | none =>
    have hremove : c.remove name = (none, c) := by
      unfold Catalogue.remove
      rw [h.byName, hget]
    rw [hremove, Registry.remove_of_get?_eq_none hget]
    exact ⟨hget.symm, h⟩
  | some item =>
    have hremove : c.remove name = (some item,
        ⟨Function.update c.byName name none, c.order.filter fun n => n ≠ name⟩) := by
      unfold Catalogue.remove
      rw [h.byName, hget]
    rw [hremove]
    refine ⟨hget.symm, ?_, ?_⟩
    · funext other
      show Function.update c.byName name none other = _
      rw [h.byName, Registry.get?_remove, Function.update_apply]
    · show c.order.filter _ = _
      rw [Registry.names_remove, h.order]

theorem removeNames (h : Mirrors c r) (names : List QName) :
    Mirrors (c.removeNames names) (r.removeNames names) := by
  induction names generalizing c r with
  | nil => exact h
  | cons name rest ih => exact ih (h.remove name).2

/-- A call gives back the same, and leaves both saying the same. -/
theorem call (h : Mirrors c r) (k : Registry.Call α) :
    (c.call k).1 = (r.call k).1 ∧ Mirrors (c.call k).2 (r.call k).2 := by
  cases k with
  | insert name item => exact h.insert name item
  | remove name => exact h.remove name
  | shutdownAll =>
    refine ⟨rfl, ?_⟩
    show Mirrors (c.removeNames c.order.reverse) (r.removeNames r.names.reverse)
    rw [h.order]
    exact h.removeNames _

/-- Both list the same items. -/
theorem items (h : Mirrors c r) (hnodup : r.names.Nodup) : c.items = r.items := by
  unfold Catalogue.items Registry.names Registry.items at *
  rw [h.order, h.byName]
  unfold Registry.names
  rw [List.filterMap_map, ← List.filterMap_eq_map]
  refine List.filterMap_congr ?_
  intro entry hentry
  exact Registry.get?_of_mem_entries hnodup hentry

end Mirrors

/-- After any calls a catalogue says what the registry says. -/
theorem mirrors_after (calls : List (Registry.Call α)) : Mirrors (after calls) (.after calls) := by
  induction calls using List.reverseRecOn with
  | nil => exact ⟨rfl, rfl⟩
  | append_singleton calls c ih =>
    unfold after
    rw [Registry.after_append, List.foldl_append]
    exact (ih.call c).2

end Catalogue

end SoapPipeline
