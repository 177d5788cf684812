/-
  SoapPipeline.Proofs.Engine.Holdings

  Who holds the deployments that live.

  The holds on deployments are listed with repetition, one entry for each
  holder.  The numbers that the deployments carry are the counts of that list,
  and what is listed lives: so letting go of one hold takes nothing away from
  whoever still holds a deployment.

  Main results:
    * `Accounted.add`, `Accounted.retain`, `Accounted.release`,
      `Accounted.modify`: every operation keeps the account;
    * `find?_release`: what is still held stays as it is.
-/
import Mathlib.Data.List.Basic
import Mathlib.Data.List.Count
import SoapPipeline.Deployment

namespace SoapPipeline

namespace Deployments

variable {ds : Deployments} {holds : List Nat} {id id' : Nat}

/-! ## Finding deployments -/

theorem find?_eq_some {d : Deployment} (h : ds.find? id = some d) :
    ∃ holding ∈ ds.living, holding.id = id ∧ holding.deployment = d := by
  unfold find? at h
  obtain ⟨holding, hfound, hd⟩ := Option.map_eq_some_iff.mp h
  exact ⟨holding, List.mem_of_find?_eq_some hfound, by simpa using List.find?_some hfound, hd⟩

theorem find?_eq_none_iff : ds.find? id = none ↔ ∀ holding ∈ ds.living, holding.id ≠ id := by
  unfold find?
  rw [Option.map_eq_none_iff, List.find?_eq_none]
  simp

/-- Changing holdings without touching their ids changes what is found in the same way. -/
theorem find?_map_living {change : Holding → Holding}
    (hid : ∀ holding, (change holding).id = holding.id) :
    (ds.living.map change).find? (fun holding => holding.id = id) =
      (ds.living.find? fun holding => holding.id = id).map change := by
  rw [List.find?_map]
  congr 2
  funext holding
  show decide ((change holding).id = id) = decide (holding.id = id)
  rw [hid]

theorem find?_modify_self (change : Deployment → Deployment) :
    (ds.modify id change).find? id = (ds.find? id).map change := by
  unfold modify find?
  rw [find?_map_living (by intro holding; split <;> rfl), Option.map_map, Option.map_map]
  cases hfound : ds.living.find? fun holding => holding.id = id with
  | none => rfl
  | some holding =>
    have hid : holding.id = id := by simpa using List.find?_some hfound
    simp [hid]

theorem find?_modify_of_ne (change : Deployment → Deployment) (hne : id' ≠ id) :
    (ds.modify id change).find? id' = ds.find? id' := by
  unfold modify find?
  rw [find?_map_living (by intro holding; split <;> rfl), Option.map_map]
  cases hfound : ds.living.find? fun holding => holding.id = id' with
  | none => rfl
  | some holding =>
    have hid : holding.id = id' := by simpa using List.find?_some hfound
    simp [hid, hne]

/-- Changing the holders only changes nothing of what is found. -/
theorem find?_map_holders {change : Holding → Holding}
    (hid : ∀ holding, (change holding).id = holding.id)
    (hdeployment : ∀ holding, (change holding).deployment = holding.deployment) :
    find? { ds with living := ds.living.map change } id = ds.find? id := by
  unfold find?
  rw [find?_map_living hid, Option.map_map]
  congr 1
  funext holding
  exact hdeployment holding

/-- Taking one deployment away leaves the others. -/
theorem find?_filter_of_ne (hne : id' ≠ id) :
    find? { ds with living := ds.living.filter fun holding => holding.id ≠ id } id' =
      ds.find? id' := by
  unfold find?
  rw [List.find?_filter]
  congr 2
  funext holding
  by_cases heq : holding.id = id'
  · simp [heq, hne]
  · simp [heq]

theorem find?_retain : (ds.retain id).find? id' = ds.find? id' :=
  find?_map_holders (fun holding => by split <;> rfl) (fun holding => by split <;> rfl)

theorem find?_add_of_some {d d' : Deployment} (h : ds.find? id = some d') :
    (ds.add d).2.find? id = some d' := by
  unfold find? at h
  obtain ⟨holding, hfound, hd⟩ := Option.map_eq_some_iff.mp h
  show ((ds.living ++ [_]).find? _).map _ = _
  rw [List.find?_append, hfound]
  exact congrArg some hd

theorem find?_modify_cases {change : Deployment → Deployment} {d : Deployment}
    (h : (ds.modify id change).find? id' = some d) :
    ∃ old, ds.find? id' = some old ∧ (id' = id ∧ d = change old ∨ id' ≠ id ∧ d = old) := by
  by_cases heq : id' = id
  · rw [heq, find?_modify_self] at h
    obtain ⟨old, hold, hd⟩ := Option.map_eq_some_iff.mp h
    exact ⟨old, by rw [heq]; exact hold, Or.inl ⟨heq, hd.symm⟩⟩
  · rw [find?_modify_of_ne change heq] at h
    exact ⟨d, h, Or.inr ⟨heq, rfl⟩⟩

theorem find?_add_cases {d d' : Deployment} (h : (ds.add d).2.find? id = some d') :
    id = (ds.add d).1 ∧ d' = d ∨ ds.find? id = some d' := by
  change ((ds.living ++ [_]).find? _).map _ = _ at h
  rw [List.find?_append] at h
  unfold find?
  cases hfound : ds.living.find? fun holding => holding.id = id with
  | some holding =>
    rw [hfound] at h
    exact Or.inr h
  | none =>
    rw [hfound] at h
    by_cases heq : ds.nextId = id
    · simp only [Option.none_or, List.find?_cons, heq, decide_true] at h
      exact Or.inl ⟨heq.symm, (Option.some.inj h).symm⟩
    · simp [heq] at h

theorem find?_of_find?_release {d : Deployment} (h : (ds.release id).2.find? id' = some d) :
    ds.find? id' = some d := by
  unfold release at h
  split at h
  next => exact h
  next holding hfound =>
    split at h
    next =>
      -- Nothing of this id is left, and everything else is found as before.
      obtain ⟨other, hother, hid, -⟩ := find?_eq_some h
      have hne : id' ≠ id := by
        rw [← hid]
        exact of_decide_eq_true (List.mem_filter.mp hother).2
      rwa [find?_filter_of_ne hne] at h
    next =>
      rwa [find?_map_holders (fun other => by split <;> rfl) (fun other => by split <;> rfl)] at h

/-! ## The account of holds -/

/-- The numbers of holders are the counts of the holds, and exactly what is held lives. -/
structure Accounted (ds : Deployments) (holds : List Nat) : Prop where
  nodup : (ds.living.map Holding.id).Nodup
  fresh : ∀ holding ∈ ds.living, holding.id < ds.nextId
  holders : ∀ holding ∈ ds.living, holding.holders = holds.count holding.id
  lives : ∀ id ∈ holds, ∃ holding ∈ ds.living, holding.id = id
  held : ∀ holding ∈ ds.living, holding.id ∈ holds

namespace Accounted

theorem empty : Accounted .empty [] := by
  refine ⟨List.nodup_nil, ?_, ?_, ?_, ?_⟩
  · exact fun holding h => absurd h List.not_mem_nil
  · exact fun holding h => absurd h List.not_mem_nil
  · exact fun id h => absurd h List.not_mem_nil
  · exact fun holding h => absurd h List.not_mem_nil

theorem perm {holds' : List Nat} (h : Accounted ds holds) (hperm : holds.Perm holds') :
    Accounted ds holds' := by
  refine ⟨h.nodup, h.fresh, ?_, ?_, ?_⟩
  · intro holding hmem
    rw [h.holders holding hmem, hperm.count_eq]
  · exact fun id hid => h.lives id (hperm.mem_iff.mpr hid)
  · exact fun holding hmem => hperm.mem_iff.mp (h.held holding hmem)

theorem exists_find? (h : Accounted ds holds) (hid : id ∈ holds) : ∃ d, ds.find? id = some d := by
  obtain ⟨holding, hmem, heq⟩ := h.lives id hid
  cases hfound : ds.find? id with
  | some d => exact ⟨d, rfl⟩
  | none => exact absurd heq (find?_eq_none_iff.mp hfound holding hmem)

theorem mem_of_find? (h : Accounted ds holds) {d : Deployment} (hfound : ds.find? id = some d) :
    id ∈ holds := by
  obtain ⟨holding, hmem, rfl, -⟩ := find?_eq_some hfound
  exact h.held holding hmem

theorem lt_nextId (h : Accounted ds holds) (hid : id ∈ holds) : id < ds.nextId := by
  obtain ⟨holding, hmem, rfl⟩ := h.lives id hid
  exact h.fresh holding hmem

theorem find?_add_self (h : Accounted ds holds) (d : Deployment) :
    (ds.add d).2.find? (ds.add d).1 = some d := by
  have hnone : ds.living.find? (fun holding : Holding => holding.id = ds.nextId) = none := by
    rw [List.find?_eq_none]
    intro holding hmem
    have := h.fresh holding hmem
    simp only [decide_eq_true_eq]
    omega
  show ((ds.living ++ [_]).find? (fun holding : Holding => holding.id = ds.nextId)).map _ = _
  rw [List.find?_append, hnone]
  simp

/-- Changing deployments or holders only, id by id, keeps what does not count holders. -/
theorem map {holds' : List Nat} {change : Holding → Holding} (h : Accounted ds holds)
    (hid : ∀ holding, (change holding).id = holding.id)
    (hcount : ∀ holding ∈ ds.living, (change holding).holders = holds'.count holding.id)
    (hmem_iff : ∀ id, id ∈ holds' ↔ id ∈ holds) :
    Accounted { ds with living := ds.living.map change } holds' := by
  refine ⟨?_, ?_, ?_, ?_, ?_⟩
  · show ((ds.living.map change).map Holding.id).Nodup
    rw [List.map_map, show Holding.id ∘ change = Holding.id from funext hid]
    exact h.nodup
  · intro holding hmem
    obtain ⟨old, hold, rfl⟩ := List.mem_map.mp hmem
    rw [hid]
    exact h.fresh old hold
  · intro holding hmem
    obtain ⟨old, hold, rfl⟩ := List.mem_map.mp hmem
    rw [hid, hcount old hold]
  · intro id hmem
    obtain ⟨old, hold, rfl⟩ := h.lives id ((hmem_iff id).mp hmem)
    exact ⟨change old, List.mem_map_of_mem hold, hid old⟩
  · intro holding hmem
    obtain ⟨old, hold, rfl⟩ := List.mem_map.mp hmem
    rw [hid]
    exact (hmem_iff old.id).mpr (h.held old hold)

theorem modify (h : Accounted ds holds) (id : Nat) (change : Deployment → Deployment) :
    Accounted (ds.modify id change) holds := by
  refine h.map (fun holding => by split <;> rfl) ?_ fun id => Iff.rfl
  intro holding hmem
  rw [← h.holders holding hmem]
  split <;> rfl

theorem retain (h : Accounted ds holds) (hid : id ∈ holds) :
    Accounted (ds.retain id) (id :: holds) := by
  refine h.map (fun holding => by split <;> rfl) ?_ ?_
  · intro holding hmem
    rw [List.count_cons, ← h.holders holding hmem]
    by_cases heq : holding.id = id
    · simp [heq]
    · simp [heq, Ne.symm heq]
  · intro id'
    rw [List.mem_cons]
    constructor
    · intro hid'
      rcases hid' with heq | hmem
      · rw [heq]
        exact hid
      · exact hmem
    · exact Or.inr

theorem add (h : Accounted ds holds) (d : Deployment) :
    Accounted (ds.add d).2 ((ds.add d).1 :: holds) := by
  have hnew : ∀ holding ∈ ds.living, holding.id ≠ ds.nextId := by
    intro holding hmem
    have := h.fresh holding hmem
    omega
  refine ⟨?_, ?_, ?_, ?_, ?_⟩
  · show ((ds.living ++ [_]).map Holding.id).Nodup
    rw [List.map_append, List.nodup_append]
    refine ⟨h.nodup, List.pairwise_singleton _ _, ?_⟩
    intro id hid id' hid'
    obtain ⟨holding, hmem, rfl⟩ := List.mem_map.mp hid
    rw [List.mem_singleton.mp hid']
    exact hnew holding hmem
  · intro holding hmem
    show holding.id < ds.nextId + 1
    rcases List.mem_append.mp hmem with hold | hadded
    · have := h.fresh holding hold
      omega
    · rw [List.mem_singleton.mp hadded]
      exact Nat.lt_succ_self ds.nextId
  · intro holding hmem
    show holding.holders = (ds.nextId :: holds).count holding.id
    rw [List.count_cons]
    rcases List.mem_append.mp hmem with hold | hadded
    · rw [← h.holders holding hold]
      simp [Ne.symm (hnew holding hold)]
    · -- The id is new, so that the hold of whoever adds the deployment is its only one.
      have hzero : holds.count ds.nextId = 0 := by
        rw [List.count_eq_zero]
        intro hheld
        have := h.lt_nextId hheld
        omega
      rw [List.mem_singleton.mp hadded]
      simp [hzero]
  · intro id hid
    rcases List.mem_cons.mp hid with rfl | hheld
    · exact ⟨_, List.mem_append_right _ (List.mem_singleton_self _), rfl⟩
    · obtain ⟨holding, hmem, heq⟩ := h.lives id hheld
      exact ⟨holding, List.mem_append_left _ hmem, heq⟩
  · intro holding hmem
    rcases List.mem_append.mp hmem with hold | hadded
    · exact List.mem_cons_of_mem _ (h.held holding hold)
    · rw [List.mem_singleton.mp hadded]
      exact List.mem_cons_self

/-! ### Letting go -/

/-- Letting go of the last hold. -/
theorem release_last {holding : Holding}
    (hfound : ds.living.find? (fun holding => holding.id = id) = some holding)
    (hlast : holding.holders ≤ 1) :
    ds.release id = (holding.deployment.leftovers,
      { ds with living := ds.living.filter fun holding => holding.id ≠ id }) := by
  unfold Deployments.release
  rw [hfound]
  exact if_pos hlast

/-- Letting go of a hold that is not the last one. -/
theorem release_more {holding : Holding}
    (hfound : ds.living.find? (fun holding => holding.id = id) = some holding)
    (hmore : ¬ holding.holders ≤ 1) :
    ds.release id = ([], { ds with living := ds.living.map fun holding =>
      if holding.id = id then { holding with holders := holding.holders - 1 } else holding }) := by
  unfold Deployments.release
  rw [hfound]
  exact if_neg hmore

/-- A deployment that is held is found with the number of its holders. -/
theorem exists_holding (h : Accounted ds holds) (hid : id ∈ holds) :
    ∃ holding, ds.living.find? (fun holding => holding.id = id) = some holding ∧
      holding.holders = holds.count id := by
  obtain ⟨d, hd⟩ := h.exists_find? hid
  unfold find? at hd
  obtain ⟨holding, hfound, -⟩ := Option.map_eq_some_iff.mp hd
  have heq : holding.id = id := by simpa using List.find?_some hfound
  refine ⟨holding, hfound, ?_⟩
  rw [h.holders holding (List.mem_of_find?_eq_some hfound), heq]

/-- After the last hold has gone nothing holds the deployment. -/
theorem not_mem_erase_of_last (hlast : holds.count id ≤ 1) :
    id ∉ holds.erase id := by
  intro hmem
  have hpos := List.count_pos_iff.mpr hmem
  rw [List.count_erase_self] at hpos
  omega

theorem release (h : Accounted ds holds) (hid : id ∈ holds) :
    Accounted (ds.release id).2 (holds.erase id) := by
  obtain ⟨holding, hfound, hcount⟩ := h.exists_holding hid
  by_cases hlast : holding.holders ≤ 1
  · -- The deployment goes with its last hold, and no other hold is on it.
    rw [release_last hfound hlast]
    rw [hcount] at hlast
    have hgone := not_mem_erase_of_last hlast
    refine ⟨?_, ?_, ?_, ?_, ?_⟩
    · exact h.nodup.sublist (List.filter_sublist.map Holding.id)
    · exact fun other hmem => h.fresh other (List.mem_of_mem_filter hmem)
    · intro other hmem
      obtain ⟨hmem, hne⟩ := List.mem_filter.mp hmem
      rw [h.holders other hmem, List.count_erase_of_ne (of_decide_eq_true hne)]
    · intro id' hid'
      obtain ⟨other, hmem, rfl⟩ := h.lives id' (List.mem_of_mem_erase hid')
      refine ⟨other, List.mem_filter.mpr ⟨hmem, decide_eq_true ?_⟩, rfl⟩
      intro heq
      rw [heq] at hid'
      exact hgone hid'
    · intro other hmem
      obtain ⟨hmem, hne⟩ := List.mem_filter.mp hmem
      exact (List.mem_erase_of_ne (of_decide_eq_true hne)).mpr (h.held other hmem)
  · rw [release_more hfound hlast]
    refine h.map (fun other => by split <;> rfl) ?_ ?_
    · intro other hmem
      by_cases heq : other.id = id
      · rw [if_pos heq, heq, List.count_erase_self, ← heq, ← h.holders other hmem]
      · rw [if_neg heq, List.count_erase_of_ne heq, h.holders other hmem]
    · intro id'
      by_cases heq : id' = id
      · -- One hold goes, and at least one other stays.
        rw [heq, ← List.count_pos_iff, List.count_erase_self]
        constructor
        · exact fun _ => hid
        · intro _
          omega
      · exact List.mem_erase_of_ne heq

theorem release_head (h : Accounted ds (id :: holds)) : Accounted (ds.release id).2 holds := by
  have hreleased := h.release List.mem_cons_self
  rwa [List.erase_cons_head] at hreleased

/-- What is still held stays as it is. -/
theorem find?_release (h : Accounted ds holds) (hid : id ∈ holds) (hheld : id' ∈ holds.erase id) :
    (ds.release id).2.find? id' = ds.find? id' := by
  obtain ⟨holding, hfound, hcount⟩ := h.exists_holding hid
  by_cases hlast : holding.holders ≤ 1
  · rw [release_last hfound hlast]
    rw [hcount] at hlast
    -- The deployment that goes is held by nobody else.
    have hne : id' ≠ id := by
      intro heq
      rw [heq] at hheld
      exact not_mem_erase_of_last hlast hheld
    exact find?_filter_of_ne hne
  · rw [release_more hfound hlast]
    exact find?_map_holders (fun other => by split <;> rfl) (fun other => by split <;> rfl)

theorem find?_release_head (h : Accounted ds (id :: holds)) (hheld : id' ∈ holds) :
    (ds.release id).2.find? id' = ds.find? id' := by
  refine h.find?_release List.mem_cons_self ?_
  rwa [List.erase_cons_head]

end Accounted

end Deployments

end SoapPipeline
