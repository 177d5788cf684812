/-
  SoapPipeline.Proofs.Phase.Resolution

  Which candidates are resolved, and what the errors mean.

  Resolution looks at one order only.  It refuses the head or the tail of the
  phase if no walk leads between two neighbours there.  Such neighbours may be
  exchanged, which gives a second order that satisfies the rules; and if walks
  lead between all neighbours, every order has them as they are.  So the test
  of the one order speaks for all of them.

  Main results:
    * `IsEnd.isChain_iff`: the test of an end holds exactly when all admissible
      orders agree on it;
    * `resolve_ok_iff_and_errors`: acceptance, and the kind of every refusal.
-/
import SoapPipeline.Proofs.Phase.Stages

namespace SoapPipeline

namespace Phase

open Relation

variable {phase : String} {candidates : List Descriptor} {g : Graph} {order : List Nat}

/-- All admissible orders have the selected handlers in the same sequence. -/
def AgreeOn (candidates : List Descriptor) (select : Descriptor → Bool) : Prop :=
  ∀ order order', Admissible candidates order → Admissible candidates order' →
    order.filter select = order'.filter select

/-! ## The order found -/

namespace Found

theorem nodup (h : Found phase candidates g order) : candidates.Nodup :=
  nodup_of_names h.wellFormed.names

/-- The handlers at the places found stand in an admissible order. -/
theorem admissible (h : Found phase candidates g order) :
    Admissible candidates (seats candidates order) :=
  (admissible_seats_iff h.nodup h.size h.edge h.perm).mpr h.greedy.forward

end Found

/-! ## One end of the phase -/

/-- The test at one end: a selection of handlers, as it is read at places, that makes up one end
of the order and within which only declared constraints matter. -/
structure IsEnd (candidates : List Descriptor) (select : Descriptor → Bool)
    (selectAt : Nat → Bool) : Prop where
  at_iff : ∀ i d, candidates[i]? = some d → selectAt i = select d
  together : ∀ order, Admissible candidates order →
    ∃ front back, order = front ++ order.filter select ++ back
  declares : ∀ d ∈ candidates, ∀ e ∈ candidates, d ≠ e → select d = true → select e = true →
    MustPrecede d e → Declares d e

theorem isEnd_first (hwf : WellFormed phase candidates) :
    IsEnd candidates (·.rule.first) (isFirst candidates) := by
  refine ⟨fun i d hd => isFirst_of_getElem? hd, ?_, ?_⟩
  · intro order h
    exact ⟨[], _, h.eq_firsts_append (nodup_of_names hwf.names)⟩
  · intro d hd e he hne hfirst_d hfirst_e hmust
    cases hmust with
    | after h => exact Or.inl h
    | before h => exact Or.inr h
    | first _ hnot => exact absurd (hnot.symm.trans hfirst_e) (by simp)
    | last _ hlast =>
      exact absurd ⟨hfirst_e, hlast⟩ (not_first_and_last hwf he hd (Ne.symm hne))

theorem isEnd_last (hwf : WellFormed phase candidates) :
    IsEnd candidates (·.rule.last) (isLast candidates) := by
  refine ⟨fun i d hd => isLast_of_getElem? hd, ?_, ?_⟩
  · intro order h
    refine ⟨order.filter fun d => !d.rule.last, [], ?_⟩
    rw [List.append_nil]
    exact h.eq_append_lasts (nodup_of_names hwf.names)
  · intro d hd e he hne hlast_d hlast_e hmust
    cases hmust with
    | after h => exact Or.inl h
    | before h => exact Or.inr h
    | first hfirst _ => exact absurd ⟨hfirst, hlast_d⟩ (not_first_and_last hwf hd he hne)
    | last hnot _ => exact absurd (hnot.symm.trans hlast_d) (by simp)

namespace IsEnd

variable {select : Descriptor → Bool} {selectAt : Nat → Bool}

theorem filter_seats (hend : IsEnd candidates select selectAt) (order : List Nat) :
    (seats candidates order).filter select = seats candidates (order.filter selectAt) := by
  unfold seats
  induction order with
  | nil => rfl
  | cons i rest ih =>
    cases hi : candidates[i]? with
    | none =>
      rw [List.filterMap_cons_none hi, ih, List.filter_cons]
      split
      · rw [List.filterMap_cons_none hi]
      · rfl
    | some d =>
      rw [List.filterMap_cons_some hi, List.filter_cons, List.filter_cons, hend.at_iff i d hi, ih]
      split
      · rw [List.filterMap_cons_some hi]
      · rfl

/-- Handlers between which walks lead stand alike in every admissible order. -/
theorem agree_of_isChain (hend : IsEnd candidates select selectAt)
    (h : Found phase candidates g order) (hchain : g.isChain (order.filter selectAt) = true)
    {other : List Descriptor} (hother : Admissible candidates other) :
    other.filter select = (seats candidates order).filter select := by
  have hnodup := h.nodup
  have hperm : other.Perm (seats candidates order) := hother.perm.trans h.admissible.perm.symm
  -- Both sequences are sorted by the same order, which settles the matter.
  refine eq_of_perm_of_ahead (hother.nodup hnodup) (hperm.filter select)
    ((Ahead.pairwise other).sublist List.filter_sublist) ?_
  rw [hend.filter_seats]
  have hwalks := Graph.isChain_iff_pairwise.mp hchain
  have hplaces : (order.filter selectAt).Nodup :=
    (h.perm.nodup_iff.mpr List.nodup_range).filter _
  refine List.Pairwise.filterMap _ ?_ (hwalks.and hplaces)
  intro i j ⟨hreaches, hne⟩ d hd e he
  have hwalk : TransGen g.Edge i j := by
    rcases reflTransGen_iff_eq_or_transGen.mp (Graph.reaches_iff.mp hreaches) with heq | hwalk
    · exact absurd heq.symm hne
    · exact hwalk
  exact hother.ahead_of_walk hnodup h.edge hwalk hd he

/-- Neighbours between which no walk leads may be exchanged. -/
theorem exists_disagreeing (hend : IsEnd candidates select selectAt)
    (h : Found phase candidates g order) (hchain : g.isChain (order.filter selectAt) = false) :
    ∃ other, Admissible candidates other ∧
      other.filter select ≠ (seats candidates order).filter select := by
  obtain ⟨front, i, j, back, hsplit, hgap⟩ := Graph.exists_gap_of_not_isChain hchain
  have hmem : ∀ k ∈ order.filter selectAt, ∃ d, candidates[k]? = some d ∧ select d = true := by
    intro k hk
    obtain ⟨hk, hselect⟩ := List.mem_filter.mp hk
    have hlt := List.mem_range.mp (h.perm.mem_iff.mp hk)
    have hget := List.getElem?_eq_getElem hlt
    exact ⟨_, hget, (hend.at_iff k _ hget).symm.trans hselect⟩
  obtain ⟨d, hd, hselect_d⟩ := hmem i (by rw [hsplit]; simp)
  obtain ⟨e, he, hselect_e⟩ := hmem j (by rw [hsplit]; simp)
  have hwalk : ¬ ReflTransGen g.Edge i j := by
    rw [← Graph.reaches_iff, hgap]
    exact Bool.false_ne_true
  have hne : d ≠ e := by
    intro heq
    rw [← heq] at he
    obtain rfl := place_unique h.nodup hd he
    exact hwalk ReflTransGen.refl
  -- Within an end only declared constraints order handlers, and those are edges.
  have hfree : ¬ MustPrecede d e := by
    intro hmust
    have hdeclares := hend.declares d (List.mem_of_getElem? hd) e (List.mem_of_getElem? he) hne
      hselect_d hselect_e hmust
    exact hwalk (ReflTransGen.single ((h.edge i j).mpr ⟨d, e, hd, he, hdeclares⟩))
  have hselected : (seats candidates order).filter select =
      seats candidates front ++ d :: e :: seats candidates back := by
    rw [hend.filter_seats, hsplit]
    unfold seats
    rw [List.filterMap_append, List.filterMap_cons_some hd, List.filterMap_cons_some he]
  -- The end is one piece of the order, so that they are neighbours in the whole as well.
  obtain ⟨left, right, htogether⟩ := hend.together _ h.admissible
  have hwhole : seats candidates order =
      (left ++ seats candidates front) ++ d :: e :: (seats candidates back ++ right) := by
    rw [htogether, hselected]
    simp
  have hadmissible := h.admissible
  rw [hwhole] at hadmissible
  refine ⟨_, hadmissible.swap hfree, ?_⟩
  rw [hwhole]
  simp [List.filter_append, hselect_d, hselect_e, Ne.symm hne]

/-- The test of one order speaks for all of them. -/
theorem isChain_iff (hend : IsEnd candidates select selectAt)
    (h : Found phase candidates g order) :
    g.isChain (order.filter selectAt) = true ↔ AgreeOn candidates select := by
  constructor
  · intro hchain first second hfirst hsecond
    rw [hend.agree_of_isChain h hchain hfirst, hend.agree_of_isChain h hchain hsecond]
  · intro hagree
    by_contra hchain
    obtain ⟨other, hother, hdiffers⟩ := hend.exists_disagreeing h (Bool.not_eq_true _ ▸ hchain)
    exact hdiffers (hagree other _ hother h.admissible)

end IsEnd

/-! ## Acceptance and refusal -/

/-- What the test of the ends says of an order that was found. -/
theorem Found.testEnds_cases (h : Found phase candidates g order) :
    (testEnds phase candidates g order = .ok order ∧
      AgreeOn candidates (·.rule.first) ∧ AgreeOn candidates (·.rule.last)) ∨
    ((∃ names, testEnds phase candidates g order = .error (.ambiguousFirst phase names)) ∧
      ¬ AgreeOn candidates (·.rule.first)) ∨
    ((∃ names, testEnds phase candidates g order = .error (.ambiguousLast phase names)) ∧
      AgreeOn candidates (·.rule.first) ∧ ¬ AgreeOn candidates (·.rule.last)) := by
  rw [← (isEnd_first h.wellFormed).isChain_iff h, ← (isEnd_last h.wellFormed).isChain_iff h]
  unfold testEnds
  cases hfirst : g.isChain (order.filter (isFirst candidates)) with
  | false => exact Or.inr (Or.inl ⟨⟨_, rfl⟩, by simp⟩)
  | true =>
    cases hlast : g.isChain (order.filter (isLast candidates)) with
    | false => exact Or.inr (Or.inr ⟨⟨_, rfl⟩, by simp⟩)
    | true => exact Or.inl ⟨rfl, by simp⟩

theorem resolve_eq (phase : String) (candidates : List Descriptor) :
    resolve phase candidates =
      (resolveOrder phase candidates).map fun order => ⟨phase, seats candidates order⟩ := by
  unfold resolve seats
  cases resolveOrder phase candidates <;> rfl

/-- Resolution stage by stage, each with its result. -/
theorem resolve_of_stages (hcheck : checkAll phase candidates = .ok ())
    (hgraph : declaredGraph phase candidates = .ok g) (hcycle : g.findCycle? = none)
    (horder : (withFlags candidates g).order? = some order)
    (hends : testEnds phase candidates g order = .ok order) :
    resolve phase candidates = .ok ⟨phase, seats candidates order⟩ := by
  rw [resolve_eq, resolveOrder_eq, hcheck, hgraph]
  simp only [Except.bind, hcycle, horder, hends]
  rfl

/-- Exactly the well-formed candidates are resolved whose rules can be satisfied and leave neither
end of the phase to choice.  Of well-formed candidates those are refused for a conflict of rules
or a cycle that no order satisfies, and those for an ambiguous end for which there are orders
that differ there, the head being tested ahead of the tail. -/
theorem resolve_ok_iff_and_errors (phase : String) (candidates : List Descriptor) :
    ((∃ p, resolve phase candidates = .ok p) ↔
      WellFormed phase candidates ∧ (∃ order, Admissible candidates order) ∧
        AgreeOn candidates (·.rule.first) ∧ AgreeOn candidates (·.rule.last)) ∧
    (WellFormed phase candidates →
      (((∃ handler conflict, resolve phase candidates = .error (.ruleConflict handler conflict)) ∨
          ∃ path, resolve phase candidates = .error (.cycle phase path)) ↔
        ¬ ∃ order, Admissible candidates order) ∧
      ((∃ names, resolve phase candidates = .error (.ambiguousFirst phase names)) ↔
        (∃ order, Admissible candidates order) ∧ ¬ AgreeOn candidates (·.rule.first)) ∧
      ((∃ names, resolve phase candidates = .error (.ambiguousLast phase names)) ↔
        (∃ order, Admissible candidates order) ∧ AgreeOn candidates (·.rule.first) ∧
          ¬ AgreeOn candidates (·.rule.last))) := by
  rw [resolve_eq]
  -- The stage that resolution got to decides both sides of every equivalence.
  have hstage := resolveOrder_stages phase candidates
  generalize resolveOrder phase candidates = outcome at hstage
  cases hstage with
  | malformed h => simp [Except.map, h]
  | conflict hwf hnone => simp [Except.map, hwf, hnone]
  | cycle hwf hnone => simp [Except.map, hwf, hnone]
  | found h =>
    have hwf := h.wellFormed
    have hsome : ∃ order, Admissible candidates order := ⟨_, h.admissible⟩
    rcases h.testEnds_cases with ⟨heq, hfirst, hlast⟩ | ⟨⟨names, heq⟩, hfirst⟩ |
      ⟨⟨names, heq⟩, hfirst, hlast⟩
    · rw [heq]
      simp [Except.map, hwf, hsome, hfirst, hlast]
    · rw [heq]
      simp [Except.map, hwf, hsome, hfirst]
    · rw [heq]
      simp [Except.map, hwf, hsome, hfirst, hlast]

end Phase

end SoapPipeline
