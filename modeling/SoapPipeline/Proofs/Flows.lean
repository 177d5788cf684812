/-
  SoapPipeline.Proofs.Flows

  The instances among descriptors.

  Descriptors of all directions may share instances.  Going in and out of use is
  counted by instance, so what matters is that each of them is listed exactly
  once, however many descriptors stand for it.

  Main results:
    * `mem_handlers_iff`: the instances are those of the descriptors;
    * `nodup_handlers`: each is listed once;
    * `handlers_eq_firstSeen`: they are in the order in which they come first;
    * `mem_handlers_push`: a further descriptor adds its own instance.
-/
import Mathlib.Data.List.Nodup
import SoapPipeline.Flows

namespace SoapPipeline

namespace Flows

variable {f : Flows} {h : Handler}

theorem mem_instancesBeyond_iff {seen : List Handler} {descriptors : List Descriptor} :
    h ∈ (instancesBeyond seen descriptors).map Prod.snd ↔
      h ∉ seen ∧ ∃ d ∈ descriptors, d.handler = h := by
  induction descriptors generalizing seen with
  | nil => simp [instancesBeyond]
  | cons d rest ih =>
    unfold instancesBeyond
    by_cases hseen : d.handler ∈ seen
    · rw [if_pos hseen, ih]
      constructor
      · rintro ⟨hnew, d', hd', rfl⟩
        exact ⟨hnew, d', List.mem_cons_of_mem d hd', rfl⟩
      · rintro ⟨hnew, d', hd', rfl⟩
        rcases List.mem_cons.mp hd' with rfl | hd'
        · exact absurd hseen hnew
        · exact ⟨hnew, d', hd', rfl⟩
    · rw [if_neg hseen, List.map_cons, List.mem_cons, ih]
      constructor
      · rintro (rfl | ⟨hnew, d', hd', rfl⟩)
        · exact ⟨hseen, d, List.mem_cons_self, rfl⟩
        · exact ⟨fun hmem => hnew (List.mem_cons_of_mem _ hmem), d',
            List.mem_cons_of_mem d hd', rfl⟩
      · rintro ⟨hnew, d', hd', rfl⟩
        by_cases hsame : d'.handler = d.handler
        · exact Or.inl hsame
        · rcases List.mem_cons.mp hd' with rfl | hd'
          · exact absurd rfl hsame
          · exact Or.inr ⟨by simp [hsame, hnew], d', hd', rfl⟩

theorem nodup_instancesBeyond {seen : List Handler} {descriptors : List Descriptor} :
    ((instancesBeyond seen descriptors).map Prod.snd).Nodup := by
  induction descriptors generalizing seen with
  | nil => exact List.nodup_nil
  | cons d rest ih =>
    unfold instancesBeyond
    by_cases hseen : d.handler ∈ seen
    · rw [if_pos hseen]
      exact ih
    · rw [if_neg hseen, List.map_cons, List.nodup_cons]
      refine ⟨?_, ih⟩
      -- From here on the instance counts as seen.
      intro hmem
      exact (mem_instancesBeyond_iff.mp hmem).1 List.mem_cons_self

theorem mem_handlers_iff : h ∈ f.handlers ↔ ∃ d ∈ f.all, d.handler = h := by
  unfold handlers instances
  rw [mem_instancesBeyond_iff]
  simp

theorem nodup_handlers : f.handlers.Nodup := nodup_instancesBeyond

/-- The instances beyond those seen, each where it comes first. -/
theorem instancesBeyond_eq_eraseDups {seen : List Handler} {descriptors : List Descriptor} :
    (instancesBeyond seen descriptors).map Prod.snd =
      ((descriptors.map Descriptor.handler).filter fun h => h ∉ seen).eraseDups := by
  induction descriptors generalizing seen with
  | nil => rfl
  | cons d rest ih =>
    unfold instancesBeyond
    rw [List.map_cons]
    by_cases hseen : d.handler ∈ seen
    · rw [if_pos hseen, List.filter_cons_of_neg (by simpa using hseen), ih]
    · rw [if_neg hseen, List.filter_cons_of_pos (by simpa using hseen), List.map_cons, ih,
        List.eraseDups_cons, List.filter_filter]
      -- What is not seen from here on is neither this instance nor one seen before.
      refine congrArg _ (congrArg _ (List.filter_congr ?_))
      intro h _
      by_cases hsame : h = d.handler <;> simp [hsame]

/-- The instances going in, then out, then through faults, each where it comes first. -/
def firstSeen (f : Flows) : List Handler :=
  ((f.inbound ++ f.outbound ++ f.fault).map Descriptor.handler).eraseDups

theorem handlers_eq_firstSeen : f.handlers = f.firstSeen := by
  unfold handlers instances firstSeen all
  rw [instancesBeyond_eq_eraseDups]
  simp

theorem count_handlers : f.handlers.count h = if h ∈ f.handlers then 1 else 0 :=
  nodup_handlers.count

theorem mem_all_iff {d : Descriptor} : d ∈ f.all ↔ ∃ flow, d ∈ f.forFlow flow := by
  unfold all
  rw [List.mem_append, List.mem_append]
  constructor
  · rintro ((hd | hd) | hd)
    · exact ⟨.inbound, hd⟩
    · exact ⟨.outbound, hd⟩
    · exact ⟨.fault, hd⟩
  · rintro ⟨flow, hd⟩
    cases flow with
    | inbound => exact Or.inl (Or.inl hd)
    | outbound => exact Or.inl (Or.inr hd)
    | fault => exact Or.inr hd

theorem mem_all_push {flow : Flow} {d d' : Descriptor} :
    d' ∈ (f.push flow d).all ↔ d' ∈ f.all ∨ d' = d := by
  unfold all
  cases flow <;> simp [push] <;> grind

theorem mem_handlers_push {flow : Flow} {d : Descriptor} :
    h ∈ (f.push flow d).handlers ↔ h ∈ f.handlers ∨ h = d.handler := by
  rw [mem_handlers_iff, mem_handlers_iff]
  constructor
  · rintro ⟨d', hd', rfl⟩
    rcases mem_all_push.mp hd' with hd' | rfl
    · exact Or.inl ⟨d', hd', rfl⟩
    · exact Or.inr rfl
  · rintro (⟨d', hd', rfl⟩ | rfl)
    · exact ⟨d', mem_all_push.mpr (Or.inl hd'), rfl⟩
    · exact ⟨d, mem_all_push.mpr (Or.inr rfl), rfl⟩

theorem handlers_empty : empty.handlers = [] := rfl

end Flows

end SoapPipeline
