/-
  SoapPipeline.Proofs.Chain.Refusals

  Chains that are refused.

  A scope gets no chains when the handlers of one direction do not resolve, and these do
  not resolve when the phases are amiss or when the handlers that target one of them do
  not.  So a refusal can be followed back from the scope to a phase.  A handler that is
  reported as declared twice is followed here: its local name stands twice among the
  handlers that target the phase.

  Main results:
    * `Chains.exists_refused_of_build`: the direction that a refusal comes from;
    * `Phase.twice_of_resolve`, `Chain.twice_of_resolve`: what it means that a handler is
      declared twice.
-/
import SoapPipeline.Proofs.Chain.Partition

namespace SoapPipeline

variable {name : String} {handlers : List Descriptor}

/-! ## Phases -/

namespace Phase

variable {phase phase' : String} {candidates : List Descriptor}

/-- A rule by itself is refused for a conflict. -/
theorem exists_conflict_of_check {r : Rule} {handler : String} {e : ResolutionError}
    (h : r.check handler = .error e) : ∃ conflict, e = .ruleConflict handler conflict := by
  unfold Rule.check at h
  split_ifs at h <;> cases h <;> exact ⟨_, rfl⟩

/-- A candidate is reported when its name has been seen. -/
theorem twice_of_checkFrom {count : Nat} {seen : List String} {rest : List Descriptor}
    (h : checkFrom phase count seen rest = .error (.duplicateHandler phase' name)) :
    phase' = phase ∧ 2 ≤ (seen ++ rest.map Descriptor.localName).count name := by
  induction rest generalizing seen with
  | nil => cases h
  | cons d rest ih =>
    rw [checkFrom_cons] at h
    cases hrule : d.rule.check d.localName with
    | error e =>
      obtain ⟨conflict, rfl⟩ := exists_conflict_of_check hrule
      rw [hrule] at h
      cases h
    | ok u =>
      rw [hrule] at h
      simp only [Except.bind] at h
      split_ifs at h with htarget hseen hsole
      · cases h
      · cases h
        refine ⟨rfl, ?_⟩
        have := List.count_pos_iff.mpr hseen
        rw [List.map_cons, List.count_append, List.count_cons_self]
        omega
      · cases h
      · obtain ⟨rfl, htwice⟩ := ih h
        refine ⟨rfl, ?_⟩
        rw [List.map_cons, List.perm_middle.count_eq]
        exact htwice

theorem testEnds_ne_duplicate {g : Graph} {order : List Nat} :
    testEnds phase candidates g order ≠ .error (.duplicateHandler phase' name) := by
  unfold testEnds
  split_ifs <;> exact fun h => by cases h

/-- A handler that is declared twice in a phase has the local name of another candidate. -/
theorem twice_of_resolve
    (h : resolve phase candidates = .error (.duplicateHandler phase' name)) :
    phase' = phase ∧ 2 ≤ (candidates.map Descriptor.localName).count name := by
  rw [resolve_eq, resolveOrder_eq] at h
  cases hcheck : checkAll phase candidates with
  | error e =>
    rw [hcheck] at h
    cases h
    exact twice_of_checkFrom hcheck
  | ok u =>
    -- Once the names are known to be distinct, nothing that follows reports a duplicate.
    obtain ⟨-, -, hnames, -⟩ := checkAll_eq_ok_iff.mp hcheck
    rw [hcheck] at h
    rcases declaredGraph_cases phase hnames with
      ⟨g, hgraph, -⟩ | ⟨handler, reference, hgraph, -⟩ | ⟨handler, c, hgraph, -⟩
    · rw [hgraph] at h
      simp only [Except.bind] at h
      split at h
      · cases h
      · split at h
        · cases h
        · next order _ =>
          cases hends : testEnds phase candidates g order with
          | error e =>
            rw [hends] at h
            cases h
            exact absurd hends testEnds_ne_duplicate
          | ok _ =>
            rw [hends] at h
            cases h
    · rw [hgraph] at h
      cases h
    · rw [hgraph] at h
      cases h

end Phase

/-! ## Chains -/

/-- An error of results that are collected is one of an element. -/
theorem exists_of_mapM_eq_error {α β ε : Type} {f : α → Except ε β} {l : List α} {e : ε}
    (h : l.mapM f = .error e) : ∃ a ∈ l, f a = .error e := by
  induction l with
  | nil => cases h
  | cons a rest ih =>
    rw [List.mapM_cons] at h
    cases ha : f a with
    | error first =>
      rw [ha] at h
      cases h
      exact ⟨a, List.mem_cons_self, ha⟩
    | ok b =>
      cases hrest : rest.mapM f with
      | error later =>
        rw [ha, hrest] at h
        cases h
        obtain ⟨a', ha', hf⟩ := ih hrest
        exact ⟨a', List.mem_cons_of_mem a ha', hf⟩
      | ok bs =>
        rw [ha, hrest] at h
        cases h

namespace Chain

variable {flow : Flow} {scope : Scope} {order : List String} {phase : String}

theorem exists_duplicatePhase_of_checkOrder {seen : List String} {e : ResolutionError}
    (h : checkOrder seen order = .error e) : ∃ name, e = .duplicatePhase name := by
  induction order generalizing seen with
  | nil => cases h
  | cons name rest ih =>
    unfold checkOrder at h
    split_ifs at h
    · cases h
      exact ⟨name, rfl⟩
    · exact ih h

/-- A handler that is declared twice has the local name of another one that targets the phase. -/
theorem twice_of_resolve
    (h : resolve flow scope order handlers = .error (.duplicateHandler phase name)) :
    2 ≤ ((targeting phase handlers).map Descriptor.localName).count name := by
  unfold resolve at h
  cases hcheck : checkOrder [] order with
  | error e =>
    obtain ⟨repeated, rfl⟩ := exists_duplicatePhase_of_checkOrder hcheck
    rw [hcheck] at h
    cases h
  | ok u =>
    rw [hcheck] at h
    simp only [Bind.bind, Except.bind] at h
    split at h
    · cases h
    · cases hphases : order.mapM fun name => Phase.resolve name (targeting name handlers) with
      | error e =>
        rw [hphases] at h
        cases h
        obtain ⟨target, -, hresolve⟩ := exists_of_mapM_eq_error hphases
        obtain ⟨rfl, htwice⟩ := Phase.twice_of_resolve hresolve
        exact htwice
      | ok phases =>
        rw [hphases] at h
        cases h

end Chain

/-! ## The chains of a scope -/

namespace Chains

variable {order : PhaseOrder} {scope : Scope} {globals own : Flows} {error : DeployError}

theorem exists_refused_of_buildFlow {flow : Flow}
    (h : buildFlow order scope globals own flow = .error error) :
    ∃ source, error = .resolution scope flow source ∧
      Chain.build order flow scope (globals.forFlow flow ++ own.forFlow flow) = .error source := by
  unfold buildFlow at h
  split at h
  next => cases h
  next source hsource => exact ⟨source, (Except.error.inj h).symm, hsource⟩

/-- A scope is refused its chains because the handlers of one direction do not resolve. -/
theorem exists_refused_of_build (h : build order scope globals own = .error error) :
    ∃ flow source, error = .resolution scope flow source ∧
      Chain.build order flow scope (globals.forFlow flow ++ own.forFlow flow) = .error source := by
  unfold build at h
  -- The first direction whose chain does not resolve gives the error.
  cases hin : buildFlow order scope globals own .inbound with
  | error e =>
    rw [hin] at h
    obtain rfl := Except.error.inj h
    exact ⟨_, exists_refused_of_buildFlow hin⟩
  | ok inbound =>
    cases hout : buildFlow order scope globals own .outbound with
    | error e =>
      rw [hin, hout] at h
      obtain rfl := Except.error.inj h
      exact ⟨_, exists_refused_of_buildFlow hout⟩
    | ok outbound =>
      cases hfault : buildFlow order scope globals own .fault with
      | error e =>
        rw [hin, hout, hfault] at h
        obtain rfl := Except.error.inj h
        exact ⟨_, exists_refused_of_buildFlow hfault⟩
      | ok fault =>
        rw [hin, hout, hfault] at h
        cases h

end Chains

end SoapPipeline
