/-
  SoapPipeline.Proofs.Phase.Insertion

  What becomes of a phase when one more handler is declared.

  The new handler is declared last, so it is picked only when nothing else is
  ready.  By then exactly those handlers are left that every order has behind it.
  What stands in front of it therefore does not depend on the sequence in which
  the others were declared, but what stands behind it may: a phase that is resolved
  again starts from the sequence in which its handlers run, and keeps it.

  Main results:
    * `mem_back_iff`, `mem_front_iff`: behind the new handler stand those that are
      forced there, and in front of it all others;
    * `front_eq`, `back_eq`: both parts keep the sequence that they had;
    * `declared_eq_of_ahead`, `ahead_of_ends`: when the handler moves nobody;
    * `withHandler_or_resolve`: both ways accept the same handlers, and what their
      phases have in common.
-/
import SoapPipeline.Proofs.Phase.Picking

namespace SoapPipeline

namespace Phase

variable {name : String} {candidates declared order front back : List Descriptor}
  {d : Descriptor}

/-- Every order that satisfies the rules has `e` behind `d`. -/
def Forced (candidates : List Descriptor) (d e : Descriptor) : Prop :=
  ∀ order, Admissible candidates order → Ahead order d e

theorem Forced.of_perm {candidates' : List Descriptor} {e : Descriptor}
    (h : Forced candidates d e) (hperm : candidates.Perm candidates') :
    Forced candidates' d e :=
  fun order horder => h order (horder.of_perm hperm.symm)

theorem perm_filter_mem {part : List Descriptor} (hnodup : declared.Nodup) (hpart : part.Nodup)
    (hsub : part ⊆ declared) : (declared.filter (· ∈ part)).Perm part := by
  refine (List.perm_ext_iff_of_nodup (hnodup.filter _) hpart).mpr fun e => ?_
  rw [List.mem_filter, decide_eq_true_iff]
  exact ⟨fun he => he.2, fun he => ⟨hsub he, he⟩⟩

/-! ## Orders with a handler declared last -/

/-- An order picked from a declaration that ends with `d`, cut where `d` stands. -/
structure Insertion (declared : List Descriptor) (d : Descriptor)
    (front back : List Descriptor) : Prop where
  nodup : (declared ++ [d]).Nodup
  admissible : Admissible (declared ++ [d]) (front ++ d :: back)
  picks : Picks (declared ++ [d]) (front ++ d :: back)

namespace Insertion

variable (h : Insertion declared d front back)

include h

theorem nodup_order : (front ++ d :: back).Nodup := h.admissible.nodup h.nodup

theorem perm : (front ++ back).Perm declared := by
  have hperm := h.admissible.perm
  have hfront : (front ++ d :: back).Perm (d :: (front ++ back)) := List.perm_middle
  have hback : (declared ++ [d]).Perm (d :: declared) := List.perm_append_singleton d declared
  exact (List.perm_cons d).mp (hfront.symm.trans (hperm.trans hback))

theorem not_mem_declared : d ∉ declared := by
  intro hd
  exact (List.nodup_append.mp h.nodup).2.2 d hd d (List.mem_singleton_self d) rfl

theorem nodup_declared : declared.Nodup := (List.nodup_append.mp h.nodup).1

theorem front_subset : front ⊆ declared :=
  fun _ he => h.perm.mem_iff.mp (List.mem_append_left back he)

theorem back_subset : back ⊆ declared :=
  fun _ he => h.perm.mem_iff.mp (List.mem_append_right front he)

theorem not_mem_back {e : Descriptor} (he : e ∈ front) : e ∉ back := fun hback =>
  (List.nodup_append.mp h.nodup_order).2.2 e he e (List.mem_cons_of_mem d hback) rfl

theorem nodup_front : front.Nodup := (List.nodup_append.mp h.nodup_order).1

theorem nodup_back : back.Nodup :=
  (List.nodup_cons.mp (List.nodup_append.mp h.nodup_order).2.1).2

/-- Without the handler the order satisfies the rules of the others. -/
theorem admissible_rest : Admissible declared (front ++ back) := by
  refine ⟨h.perm, ?_⟩
  intro x hx y hy hmust
  have hmem : ∀ z ∈ front ++ back, z ∈ front ++ d :: back ∧ z ≠ d := by
    intro z hz
    refine ⟨mem_of_cut rfl hz, ?_⟩
    exact fun heq => h.not_mem_declared (h.perm.mem_iff.mp (heq ▸ hz))
  obtain ⟨hx, hx_ne⟩ := hmem x hx
  obtain ⟨hy, hy_ne⟩ := hmem y hy
  have hahead := h.admissible.obeys x hx y hy hmust
  rw [Ahead.append_iff, Ahead.cons_iff, List.mem_cons] at hahead
  rw [Ahead.append_iff]
  rcases hahead with hahead | ⟨hfront, heq | hback⟩ | ⟨heq, -⟩ | hahead
  · exact Or.inl hahead
  · exact absurd heq hy_ne
  · exact Or.inr (Or.inl ⟨hfront, hback⟩)
  · exact absurd heq hx_ne
  · exact Or.inr (Or.inr hahead)

/-- Behind the handler stand only those that it must precede and those that such a handler must
precede in turn: any other was ready earlier, and declared earlier. -/
theorem back_induction {motive : Descriptor → Prop}
    (hdirect : ∀ e ∈ back, MustPrecede d e → motive e)
    (hstep : ∀ c ∈ back, ∀ e ∈ back, MustPrecede c e → motive c → motive e) :
    ∀ e ∈ back, motive e := by
  have hpicks := h.picks.of_append
  -- The induction is on how much of the back has been gone through.
  have hprefix : ∀ left right, back = left ++ right → ∀ e ∈ left, motive e := by
    intro left
    induction left using List.reverseRecOn with
    | nil => exact fun _ _ e he => absurd he List.not_mem_nil
    | append_singleton left x ih =>
      intro right hcut e he
      rw [List.append_assoc, List.singleton_append] at hcut
      have hleft := ih (x :: right) hcut
      rcases List.mem_append.mp he with he | he
      · exact hleft e he
      · obtain rfl := List.mem_singleton.mp he
        have he_back : e ∈ back := hcut ▸ List.mem_append_right left List.mem_cons_self
        -- The handler is declared last, hence ahead of nobody.
        have hnot : ¬ Ready (d :: back) e := fun hready =>
          List.not_mem_nil ((ahead_cut_iff h.nodup).mp (hpicks.2.1 e he_back hready))
        unfold Ready at hnot
        push Not at hnot
        obtain ⟨c, hc, hmust⟩ := hnot
        rcases List.mem_cons.mp hc with rfl | hc
        · exact hdirect e he_back hmust
        · refine hstep c hc e he_back hmust (hleft c ?_)
          -- Whoever must precede it has been gone through.
          rw [hcut] at hc
          rcases List.mem_append.mp hc with hc | hc
          · exact hc
          · have hrest := hpicks.2.2
            rw [hcut] at hrest
            exact absurd hmust (hrest.of_append.1 c hc)
  exact hprefix back [] (List.append_nil back).symm

/-- Behind the handler stand those that are forced there. -/
theorem mem_back_iff {e : Descriptor} : e ∈ back ↔ Forced (declared ++ [d]) d e := by
  constructor
  · intro he
    refine h.back_induction (motive := Forced (declared ++ [d]) d) ?_ ?_ e he
    · intro x hx hmust run hrun
      have hmem := hrun.perm.trans h.admissible.perm.symm
      exact hrun.obeys d (hmem.mem_iff.mpr (by simp)) x (hmem.mem_iff.mpr (by simp [hx])) hmust
    · intro c hc x hx hmust hforced run hrun
      have hmem := hrun.perm.trans h.admissible.perm.symm
      have hahead := hrun.obeys c (hmem.mem_iff.mpr (by simp [hc])) x
        (hmem.mem_iff.mpr (by simp [hx])) hmust
      exact (hforced run hrun).trans (hrun.nodup h.nodup) hahead
  · intro hforced
    exact (ahead_cut_iff h.nodup_order).mp (hforced _ h.admissible)

/-- In front of it stand all others. -/
theorem mem_front_iff {e : Descriptor} :
    e ∈ front ↔ e ∈ declared ∧ ¬ Forced (declared ++ [d]) d e := by
  rw [← h.mem_back_iff]
  constructor
  · intro he
    exact ⟨h.front_subset he, h.not_mem_back he⟩
  · intro ⟨he, hback⟩
    exact (List.mem_append.mp (h.perm.mem_iff.mpr he)).resolve_right hback

theorem perm_back {declared' front' back' : List Descriptor}
    (h' : Insertion declared' d front' back') (hperm : declared.Perm declared') :
    back.Perm back' := by
  refine (List.perm_ext_iff_of_nodup h.nodup_back h'.nodup_back).mpr fun e => ?_
  have hperm := hperm.append_right [d]
  rw [h.mem_back_iff, h'.mem_back_iff]
  exact ⟨fun hforced => hforced.of_perm hperm, fun hforced => hforced.of_perm hperm.symm⟩

/-! ## What becomes of the order that there was -/

/-- Nobody behind the cut must precede somebody in front of it. -/
theorem mem_front_of_mustPrecede {c e : Descriptor} (hc : c ∈ front ++ d :: back)
    (he : e ∈ front) (hmust : MustPrecede c e) : c ∈ front :=
  mem_front_of_ahead h.nodup_order
    (h.admissible.obeys c hc e (List.mem_append_left _ he) hmust) he

theorem picks_front : Picks declared front := by
  have hpicks : Picks (declared ++ [d]) ((front ++ d :: back).filter (· ∈ front)) :=
    h.picks.filter fun c hc e _ he hmust =>
      decide_eq_true (h.mem_front_of_mustPrecede hc (of_decide_eq_true he) hmust)
  have hkept : (front ++ d :: back).filter (· ∈ front) = front := by
    have hapart := (List.nodup_append.mp h.nodup_order).2.2
    rw [List.filter_append, List.filter_eq_self.mpr (by simp), List.filter_eq_nil_iff.mpr,
      List.append_nil]
    intro e he hfront
    exact hapart e (of_decide_eq_true hfront) e he rfl
  rw [hkept] at hpicks
  exact hpicks.of_declared_append h.front_subset h.nodup

theorem picks_self (hself : Admissible declared declared) : Picks declared declared :=
  hself.picks_of_sublist h.nodup_declared (List.Sublist.refl _) (List.Sublist.refl _)

theorem picks_back : Picks declared back :=
  h.picks.of_append.2.2.of_declared_append h.back_subset h.nodup

/-- In front of the handler the others stand as they did. -/
theorem front_eq {run : List Descriptor} (hrun : Admissible declared run)
    (hpicks : Picks declared run) : run.filter (· ∈ front) = front := by
  refine Picks.eq_of_perm h.nodup_declared ?_ h.picks_front ?_
  · refine hpicks.filter fun c hc e _ he hmust => ?_
    have hmem : c ∈ front ++ d :: back :=
      mem_of_cut rfl ((hrun.perm.trans h.perm.symm).mem_iff.mp hc)
    exact decide_eq_true (h.mem_front_of_mustPrecede hmem (of_decide_eq_true he) hmust)
  · exact perm_filter_mem (hrun.nodup h.nodup_declared) h.nodup_front
      fun e he => hrun.perm.mem_iff.mpr (h.front_subset he)

/-- So it does not matter for the front whether the others are declared as they were or as they
stand. -/
theorem front_eq_of_run {run front' back' : List Descriptor} (h' : Insertion run d front' back')
    (hrun : Admissible declared run) (hpicks : Picks declared run) : front' = front := by
  have hself : Admissible run run := hrun.of_perm hrun.perm.symm
  rw [← h'.front_eq hself (h'.picks_self hself), ← h.front_eq hrun hpicks]
  refine List.filter_congr fun e he => ?_
  have hback := (h.perm_back h' hrun.perm.symm).mem_iff (a := e)
  rw [decide_eq_decide, h'.mem_front_iff, h.mem_front_iff, ← h'.mem_back_iff, ← h.mem_back_iff,
    hback, hrun.perm.mem_iff]

/-- Behind it they stand as they did if they were declared in that order. -/
theorem back_eq (hrun : Admissible declared declared) : declared.filter (· ∈ back) = back := by
  refine Picks.eq_of_perm h.nodup_declared ?_ h.picks_back ?_
  · exact hrun.picks_of_sublist h.nodup_declared List.filter_sublist List.filter_sublist
  · exact perm_filter_mem h.nodup_declared h.nodup_back h.back_subset

/-- If those forced behind the handler made up the end of the order, they stand as they did
however they were declared. -/
theorem back_eq_of_end {back' : List Descriptor} (hpicks : Picks declared (front ++ back'))
    (hrun : Admissible declared (front ++ back')) : back' = back :=
  Picks.eq_of_perm h.nodup_declared hpicks.of_append h.picks_back
    ((List.perm_append_left_iff front).mp (hrun.perm.trans h.perm.symm))

/-- A handler that moves nobody is put in between. -/
theorem declared_eq_of_sublist (hsub : declared.Sublist (front ++ d :: back)) :
    declared = front ++ back := by
  have hfront : d ∉ front := fun hd => h.not_mem_declared (h.front_subset hd)
  have hrest := hsub.erase d
  rw [List.erase_of_not_mem h.not_mem_declared, List.erase_append_right _ hfront,
    List.erase_cons_head] at hrest
  exact hrest.eq_of_length h.perm.length_eq.symm

/-- It moves nobody if those forced behind it stood behind all others. -/
theorem declared_eq_of_ahead (hself : Admissible declared declared)
    (hahead : ∀ a ∈ front, ∀ b ∈ back, Ahead declared a b) : declared = front ++ back := by
  have hcover : ∀ e ∈ declared, e ∈ front ∨ e ∈ back := fun e he =>
    List.mem_append.mp (h.perm.mem_iff.mpr he)
  have hcut : declared =
      declared.filter (· ∈ front) ++ declared.filter fun e => !decide (e ∈ front) := by
    refine eq_filter_append_filter h.nodup_declared ?_
    intro a _ b hb ha hb_front
    refine hahead a (of_decide_eq_true ha) b ?_
    exact (hcover b hb).resolve_left (of_decide_eq_false hb_front)
  have hside : ∀ e ∈ declared, (!decide (e ∈ front)) = decide (e ∈ back) := by
    intro e he
    rw [← decide_not, decide_eq_decide]
    exact ⟨(hcover e he).resolve_left, fun hback hfront => h.not_mem_back hfront hback⟩
  rwa [h.front_eq hself (h.picks_self hself), List.filter_congr hside, h.back_eq hself] at hcut

/-! ## Handlers that leave the others as they stand -/

/-- In front of a first handler stand first ones only. -/
theorem first_of_mem_front (hd : d.rule.first = true) : ∀ a ∈ front, a.rule.first = true := by
  intro a ha
  by_contra hnot
  have hmust : MustPrecede d a := .first hd (Bool.not_eq_true _ ▸ hnot)
  have hmem := h.mem_front_of_mustPrecede (by simp) ha hmust
  exact h.not_mem_declared (h.front_subset hmem)

/-- Behind a last handler stand last ones only, and so they do behind one that is not first and
names nobody to stand in front of. -/
theorem last_of_mem_back (hwf : WellFormed name declared)
    (hwf' : WellFormed name (declared ++ [d]))
    (hrule : d.rule.last = true ∨ (d.rule.before = none ∧ d.rule.first = false)) :
    ∀ b ∈ back, b.rule.last = true := by
  have hmem : ∀ b ∈ back, b ∈ front ++ d :: back := fun b hb => by simp [hb]
  refine h.back_induction (motive := fun b => b.rule.last = true) ?_ ?_
  · intro b hb hmust
    rcases hrule with hlast | ⟨hbefore, hfirst⟩
    · by_contra hnot
      exact h.admissible.asymm h.nodup (by simp) (hmem b hb) hmust
        (.last (Bool.not_eq_true _ ▸ hnot) hlast)
    · cases hmust with
      | after hafter =>
        -- The others refer to each other only.
        obtain ⟨e, he, hname⟩ :=
          hwf.references b (h.back_subset hb) d.localName (Or.inr hafter)
        have heq : e = d := eq_of_localName hwf'.names (by simp [he]) (by simp) hname
        exact absurd (heq ▸ he) h.not_mem_declared
      | before hbefore' => exact absurd (hbefore.symm.trans hbefore') (by simp)
      | first hfirst' _ => exact absurd (hfirst.symm.trans hfirst') (by simp)
      | last _ hlast => exact hlast
  · intro c hc b hb hmust hlast
    by_contra hnot
    exact h.admissible.asymm h.nodup (hmem c hc) (hmem b hb) hmust
      (.last (Bool.not_eq_true _ ▸ hnot) hlast)

theorem ends_of_rule (hwf : WellFormed name declared) (hwf' : WellFormed name (declared ++ [d]))
    (hrule : d.rule.before = none ∨ d.rule.first = true ∨ d.rule.last = true) :
    (∀ a ∈ front, a.rule.first = true) ∨ ∀ b ∈ back, b.rule.last = true := by
  by_cases hfirst : d.rule.first = true
  · exact Or.inl (h.first_of_mem_front hfirst)
  · refine Or.inr (h.last_of_mem_back hwf hwf' ?_)
    rcases hrule with hbefore | hfirst' | hlast
    · exact Or.inr ⟨hbefore, Bool.not_eq_true _ ▸ hfirst⟩
    · exact absurd hfirst' hfirst
    · exact Or.inl hlast

/-- Where an end is not left to choice, the others have its handlers in this sequence as well. -/
theorem ahead_of_ends {run : List Descriptor} (hrun : Admissible declared run)
    (hfirsts : AgreeOn declared (·.rule.first)) (hlasts : AgreeOn declared (·.rule.last))
    (hends : (∀ a ∈ front, a.rule.first = true) ∨ ∀ b ∈ back, b.rule.last = true) :
    ∀ a ∈ front, ∀ b ∈ back, Ahead run a b := by
  intro a ha b hb
  have hahead : Ahead (front ++ back) a b := Ahead.append_iff.mpr (Or.inr (Or.inl ⟨ha, hb⟩))
  have ha_run := hrun.perm.mem_iff.mpr (h.front_subset ha)
  have hb_run := hrun.perm.mem_iff.mpr (h.back_subset hb)
  rcases hends with hends | hends
  · by_cases hb_first : b.rule.first = true
    · exact hfirsts.ahead h.admissible_rest hrun (hends a ha) hb_first hahead
    · exact hrun.obeys a ha_run b hb_run (.first (hends a ha) (Bool.not_eq_true _ ▸ hb_first))
  · by_cases ha_last : a.rule.last = true
    · exact hlasts.ahead h.admissible_rest hrun ha_last (hends b hb) hahead
    · exact hrun.obeys a ha_run b hb_run (.last (Bool.not_eq_true _ ▸ ha_last) (hends b hb))

end Insertion

/-! ## Adding and resolving anew -/

/-- Cut where the handler stands that was declared last. -/
theorem exists_insertion {q : Phase} (h : resolve name (declared ++ [d]) = .ok q) :
    ∃ front back, q = ⟨name, front ++ d :: back⟩ ∧ Insertion declared d front back := by
  have hnodup := nodup_of_names (wellFormed_of_resolve h).names
  have hadmissible := admissible_of_resolve h
  have hpicks := picks_of_resolve h
  have hname := name_of_resolve h
  obtain ⟨name', handlers⟩ := q
  obtain rfl : name' = name := hname
  have hd : d ∈ handlers := hadmissible.perm.mem_iff.mpr (by simp)
  obtain ⟨front, back, rfl⟩ := List.append_of_mem hd
  exact ⟨front, back, rfl, hnodup, hadmissible, hpicks⟩

section WithHandler

variable {p q r : Phase} (h : resolve name declared = .ok p)

include h

/-- A phase takes one more handler exactly when its handlers resolve with it as they were
declared. -/
theorem exists_withHandler_iff :
    (∃ q, p.withHandler d = .ok q) ↔ ∃ r, resolve name (declared ++ [d]) = .ok r := by
  unfold withHandler
  rw [name_of_resolve h, exists_resolve_iff, exists_resolve_iff]
  have hperm := (admissible_of_resolve h).perm.append_right [d]
  exact ⟨fun hall => hall.of_perm hperm, fun hall => hall.of_perm hperm.symm⟩

/-- The two ways of adding a handler put it behind the same handlers, in the same sequence, and
in front of the same ones.  These are in the same sequence too if the handler moves nobody, as one
does that is first or last or names nobody to stand in front of. -/
theorem withHandler_or_resolve (hq : p.withHandler d = .ok q)
    (hr : resolve name (declared ++ [d]) = .ok r) :
    ∃ front back back', q = ⟨name, front ++ d :: back⟩ ∧ r = ⟨name, front ++ d :: back'⟩ ∧
      back.Perm back' ∧
      (p.handlers.Sublist q.handlers ∨ d.rule.before = none ∨ d.rule.first = true ∨
        d.rule.last = true → q = r) := by
  unfold withHandler at hq
  rw [name_of_resolve h] at hq
  obtain ⟨front, back, rfl, hadd⟩ := exists_insertion hq
  obtain ⟨front', back', rfl, hbatch⟩ := exists_insertion hr
  have hrun := admissible_of_resolve h
  have hself : Admissible p.handlers p.handlers := hrun.of_perm hrun.perm.symm
  have hpicks := picks_of_resolve h
  obtain rfl : front = front' := hbatch.front_eq_of_run hadd hrun hpicks
  refine ⟨front, back, back', rfl, rfl, hadd.perm_back hbatch hrun.perm, fun hcase => ?_⟩
  -- The new handler is put in between the others as they stood.
  have hcut : p.handlers = front ++ back := by
    rcases hcase with hsub | hrule
    · exact hadd.declared_eq_of_sublist hsub
    · have hold := (exists_resolve_iff.mp ⟨p, h⟩).of_perm hrun.perm.symm
      have hends := hadd.ends_of_rule hold.wellFormed (wellFormed_of_resolve hq) hrule
      exact hadd.declared_eq_of_ahead hself
        (hadd.ahead_of_ends hself hold.firsts hold.lasts hends)
  have heq : back = back' := by
    rw [hcut] at hrun hpicks
    exact hbatch.back_eq_of_end hpicks hrun
  rw [heq]

end WithHandler

end Phase

end SoapPipeline
