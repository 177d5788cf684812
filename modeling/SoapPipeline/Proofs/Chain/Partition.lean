/-
  SoapPipeline.Proofs.Chain.Partition

  How handlers are put into the phases of a chain.

  A chain has one phase for every name of the order.  Each phase is resolved from
  the handlers that target its name, and from nothing else, so that phases neither
  share handlers nor lose any, and none of them depends on what the others hold.

  Main results:
    * `resolve_eq_ok_iff`: which handlers resolve, and to which phases;
    * `perm_flatMap_targeting`: names that are not repeated and cover all targets
      cut a list of handlers into parts;
    * `resolve_partitions`: acceptance phase by phase, and what a chain is made of;
    * `handlers_perm_of_build`: what the chains of a scope are made of.
-/
import Mathlib.Data.List.Forall2
import SoapPipeline.Flows
import SoapPipeline.Proofs.Phase.LeastOrder

namespace SoapPipeline

/-- Results are collected when every element gives one. -/
theorem mapM_eq_ok_iff {α β ε : Type} {f : α → Except ε β} {l : List α} {out : List β} :
    l.mapM f = .ok out ↔ List.Forall₂ (fun a b => f a = .ok b) l out := by
  induction l generalizing out with
  | nil =>
    rw [List.mapM_nil, List.forall₂_nil_left_iff]
    constructor
    · exact fun h => (Except.ok.inj h).symm
    · exact fun h => congrArg Except.ok h.symm
  | cons a rest ih =>
    rw [List.mapM_cons, List.forall₂_cons_left_iff]
    constructor
    · intro h
      cases ha : f a with
      | error error =>
        rw [ha] at h
        cases h
      | ok b =>
        cases hrest : rest.mapM f with
        | error error =>
          rw [ha, hrest] at h
          cases h
        | ok others =>
          rw [ha, hrest] at h
          obtain rfl := Except.ok.inj h
          exact ⟨b, others, rfl, ih.mp hrest, rfl⟩
    · rintro ⟨b, others, hb, hothers, rfl⟩
      rw [hb, ih.mpr hothers]
      rfl

namespace Chain

variable {flow : Flow} {scope : Scope} {order : List String} {handlers : List Descriptor}
  {name : String} {c : Chain}

/-! ## Which handlers resolve -/

theorem checkOrder_eq_ok_iff {seen : List String} :
    checkOrder seen order = .ok () ↔ order.Nodup ∧ ∀ name ∈ order, name ∉ seen := by
  induction order generalizing seen with
  | nil => simp [checkOrder]
  | cons name rest ih =>
    unfold checkOrder
    by_cases hseen : name ∈ seen
    · simp [hseen]
    · rw [if_neg hseen, ih, List.nodup_cons, List.forall_mem_cons]
      constructor
      · rintro ⟨hnodup, hfresh⟩
        refine ⟨⟨?_, hnodup⟩, hseen, fun other hother hmem => ?_⟩
        · exact fun hname => hfresh name hname List.mem_cons_self
        · exact hfresh other hother (List.mem_cons_of_mem name hmem)
      · rintro ⟨⟨hname, hnodup⟩, -, hfresh⟩
        refine ⟨hnodup, fun other hother hmem => ?_⟩
        rcases List.mem_cons.mp hmem with rfl | hmem
        · exact hname hother
        · exact hfresh other hother hmem

/-- The phases are those that the handlers targeting each name resolve to. -/
def Resolved (order : List String) (handlers : List Descriptor) (phases : List Phase) : Prop :=
  List.Forall₂ (fun name p => Phase.resolve name (targeting name handlers) = .ok p) order phases

/-- A chain comes of an order that repeats no name and covers all targets, if the phases resolve
one by one. -/
theorem resolve_eq_ok_iff :
    resolve flow scope order handlers = .ok c ↔
      order.Nodup ∧ (∀ d ∈ handlers, d.rule.phase ∈ order) ∧
        Resolved order handlers c.phases ∧ c.flow = flow ∧ c.scope = scope := by
  unfold resolve Resolved
  rw [← mapM_eq_ok_iff]
  cases hcheck : checkOrder [] order with
  | error error =>
    have hrepeats : ¬ order.Nodup := by
      intro hnodup
      rw [checkOrder_eq_ok_iff.mpr ⟨hnodup, fun _ _ => List.not_mem_nil⟩] at hcheck
      cases hcheck
    simp [hrepeats, Bind.bind, Except.bind]
  | ok u =>
    have hnodup : order.Nodup := (checkOrder_eq_ok_iff.mp hcheck).1
    cases hstray : handlers.find? fun d => d.rule.phase ∉ order with
    | some stray =>
      have hmem := List.mem_of_find?_eq_some hstray
      have houtside : stray.rule.phase ∉ order := by simpa using List.find?_some hstray
      constructor
      · intro h
        cases h
      · intro h
        exact absurd (h.2.1 stray hmem) houtside
    | none =>
      have hcovers : ∀ d ∈ handlers, d.rule.phase ∈ order := by
        simpa using List.find?_eq_none.mp hstray
      show ((order.mapM fun name => Phase.resolve name (targeting name handlers)) >>=
        fun phases => pure (mk flow scope phases)) = Except.ok c ↔ _
      cases hphases : order.mapM fun name => Phase.resolve name (targeting name handlers) with
      | error error => simp [hnodup, Bind.bind, Except.bind]
      | ok phases =>
        obtain ⟨flow', scope', phases'⟩ := c
        simp only [Bind.bind, Except.bind, pure, Except.pure, Except.ok.injEq, mk.injEq, hnodup,
          true_and]
        constructor
        · rintro ⟨rfl, rfl, rfl⟩
          exact ⟨hcovers, rfl, rfl, rfl⟩
        · rintro ⟨-, rfl, rfl, rfl⟩
          exact ⟨rfl, rfl, rfl⟩

/-! ## Parts of a list of handlers -/

/-- Names that are not repeated and cover all targets cut the handlers into parts. -/
theorem perm_flatMap_targeting (hnodup : order.Nodup)
    (hcovers : ∀ d ∈ handlers, d.rule.phase ∈ order) :
    (order.flatMap fun name => targeting name handlers).Perm handlers := by
  induction order generalizing handlers with
  | nil =>
    have hnone : handlers = [] := by
      rw [List.eq_nil_iff_forall_not_mem]
      exact fun d hd => List.not_mem_nil (hcovers d hd)
    rw [hnone]
    exact List.Perm.nil
  | cons name rest ih =>
    obtain ⟨hname, hnodup⟩ := List.nodup_cons.mp hnodup
    -- The handlers of the first name are taken out, and the other names cut the rest.
    have hcovers' : ∀ d ∈ handlers.filter fun d => !decide (d.rule.phase = name),
        d.rule.phase ∈ rest := by
      intro d hd
      obtain ⟨hd, hne⟩ := List.mem_filter.mp hd
      exact (List.mem_cons.mp (hcovers d hd)).resolve_left (by simpa using hne)
    have hothers := ih hnodup hcovers'
    have hsame : (rest.flatMap fun other =>
          targeting other (handlers.filter fun d => !decide (d.rule.phase = name))) =
        rest.flatMap fun other => targeting other handlers := by
      refine List.flatMap_congr fun other hother => ?_
      have hne : other ≠ name := fun heq => hname (heq ▸ hother)
      unfold targeting
      rw [List.filter_filter]
      refine List.filter_congr fun d _ => ?_
      by_cases heq : d.rule.phase = other
      · simp [heq, hne]
      · simp [heq]
    rw [hsame] at hothers
    rw [List.flatMap_cons]
    exact (hothers.append_left _).trans (List.filter_append_perm _ handlers)

namespace Resolved

variable {phases : List Phase} {p : Phase}

/-- The phases have the names of the order. -/
theorem names (h : Resolved order handlers phases) : phases.map Phase.name = order := by
  induction h with
  | nil => rfl
  | cons hp _ ih => exact congrArg₂ _ (Phase.name_of_resolve hp) ih

theorem handlers_perm (h : Resolved order handlers phases) :
    (phases.flatMap Phase.handlers).Perm (order.flatMap fun name => targeting name handlers) := by
  induction h with
  | nil => exact List.Perm.nil
  | cons hp _ ih =>
    rw [List.flatMap_cons, List.flatMap_cons]
    exact (Phase.admissible_of_resolve hp).perm.append ih

/-- Every phase comes of the handlers that target its name. -/
theorem resolve_of_mem (h : Resolved order handlers phases) (hp : p ∈ phases) :
    Phase.resolve p.name (targeting p.name handlers) = .ok p := by
  induction h with
  | nil => exact absurd hp List.not_mem_nil
  | cons hfirst _ ih =>
    rcases List.mem_cons.mp hp with rfl | hp
    · have hname := Phase.name_of_resolve hfirst
      rw [hname]
      exact hfirst
    · exact ih hp

/-- Every name of the order has the phase that the handlers targeting it resolve to. -/
theorem exists_mem (h : Resolved order handlers phases) (hname : name ∈ order) :
    ∃ p ∈ phases, Phase.resolve name (targeting name handlers) = .ok p := by
  induction h with
  | nil => exact absurd hname List.not_mem_nil
  | cons hfirst _ ih =>
    rcases List.mem_cons.mp hname with rfl | hname
    · exact ⟨_, List.mem_cons_self, hfirst⟩
    · obtain ⟨p, hp, hresolve⟩ := ih hname
      exact ⟨p, List.mem_cons_of_mem _ hp, hresolve⟩

end Resolved

theorem exists_resolved_iff :
    (∃ phases, Resolved order handlers phases) ↔
      ∀ name ∈ order, ∃ p, Phase.resolve name (targeting name handlers) = .ok p := by
  unfold Resolved
  induction order with
  | nil => simp
  | cons name rest ih =>
    rw [List.forall_mem_cons, ← ih]
    constructor
    · rintro ⟨phases, h⟩
      cases h with
      | cons hp hrest => exact ⟨⟨_, hp⟩, _, hrest⟩
    · rintro ⟨⟨p, hp⟩, phases, hrest⟩
      exact ⟨p :: phases, .cons hp hrest⟩

/-- A chain of one phase holds that phase. -/
theorem resolve_singleton {p : Phase} (htargets : ∀ d ∈ handlers, d.rule.phase = name)
    (h : Phase.resolve name handlers = .ok p) :
    resolve flow scope [name] handlers = .ok ⟨flow, scope, [p]⟩ := by
  have hall : targeting name handlers = handlers :=
    List.filter_eq_self.mpr fun d hd => decide_eq_true (htargets d hd)
  refine resolve_eq_ok_iff.mpr ⟨List.nodup_singleton name, ?_, .cons ?_ .nil, rfl, rfl⟩
  · exact fun d hd => List.mem_singleton.mpr (htargets d hd)
  · rwa [hall]

/-! ## Chains that are resolved -/

section Resolves

variable (h : resolve flow scope order handlers = .ok c)

include h

/-- The phase of a name is what the handlers targeting it resolve to. -/
theorem phase?_eq_some_iff {p : Phase} :
    c.phase? name = some p ↔
      name ∈ order ∧ Phase.resolve name (targeting name handlers) = .ok p := by
  obtain ⟨-, -, hresolved, -, -⟩ := resolve_eq_ok_iff.mp h
  have hsound : ∀ q, c.phase? name = some q →
      name ∈ order ∧ Phase.resolve name (targeting name handlers) = .ok q := by
    intro q hfound
    have hq := List.mem_of_find?_eq_some hfound
    obtain rfl : q.name = name := by simpa using List.find?_some hfound
    refine ⟨?_, hresolved.resolve_of_mem hq⟩
    rw [← hresolved.names]
    exact List.mem_map_of_mem hq
  constructor
  · exact hsound p
  · rintro ⟨hname, hresolve⟩
    cases hfound : c.phase? name with
    | none =>
      obtain ⟨q, hq, hresolve'⟩ := hresolved.exists_mem hname
      have hnot := List.find?_eq_none.mp hfound q hq
      exact absurd (Phase.name_of_resolve hresolve') (by simpa using hnot)
    | some q =>
      -- A name has one phase, since resolution is a function.
      exact congrArg some (Except.ok.inj ((hsound q hfound).2.symm.trans hresolve))

theorem handlers_perm_of_resolve : c.handlers.Perm handlers := by
  obtain ⟨hnodup, hcovers, hresolved, -, -⟩ := resolve_eq_ok_iff.mp h
  exact hresolved.handlers_perm.trans (perm_flatMap_targeting hnodup hcovers)

/-- No handler is declared twice. -/
theorem nodup_of_resolve : handlers.Nodup := by
  obtain ⟨-, hcovers, hresolved, -, -⟩ := resolve_eq_ok_iff.mp h
  rw [List.nodup_iff_count_le_one]
  intro d
  by_cases hd : d ∈ handlers
  · -- All places where it might stand are among those that target its phase.
    obtain ⟨p, -, hresolve⟩ := hresolved.exists_mem (hcovers d hd)
    have hnodup := Phase.nodup_of_names (Phase.wellFormed_of_resolve hresolve).names
    have hcount := List.nodup_iff_count_le_one.mp hnodup d
    unfold targeting at hcount
    rwa [List.count_filter (by simp)] at hcount
  · rw [List.count_eq_zero.mpr hd]
    exact Nat.zero_le 1

end Resolves

/-- Handlers resolve to a chain exactly when the order repeats no name and covers all targets and
the handlers targeting each name resolve to a phase.  The chain then has these phases in the order
given, also empty ones; it holds every handler exactly once, in the phase that its rule targets;
and a phase is the same in every chain over the order whose handlers targeting it are the same. -/
theorem resolve_partitions (flow : Flow) (scope : Scope) (order : List String) :
    (∀ handlers, (∃ c, resolve flow scope order handlers = .ok c) ↔
      order.Nodup ∧ (∀ d ∈ handlers, d.rule.phase ∈ order) ∧
        ∀ name ∈ order, ∃ p, Phase.resolve name (targeting name handlers) = .ok p) ∧
    ∀ handlers c, resolve flow scope order handlers = .ok c →
      c.phaseNames = order ∧ c.handlers.Perm handlers ∧ c.handlers.Nodup ∧
      (∀ p ∈ c.phases, p.handlers.Perm (targeting p.name handlers)) ∧
      ∀ handlers' c' name, resolve flow scope order handlers' = .ok c' →
        targeting name handlers' = targeting name handlers → c'.phase? name = c.phase? name := by
  constructor
  · intro handlers
    rw [← exists_resolved_iff]
    constructor
    · rintro ⟨c, h⟩
      obtain ⟨hnodup, hcovers, hresolved, -, -⟩ := resolve_eq_ok_iff.mp h
      exact ⟨hnodup, hcovers, _, hresolved⟩
    · rintro ⟨hnodup, hcovers, phases, hresolved⟩
      exact ⟨⟨flow, scope, phases⟩,
        resolve_eq_ok_iff.mpr ⟨hnodup, hcovers, hresolved, rfl, rfl⟩⟩
  · intro handlers c h
    obtain ⟨-, -, hresolved, -, -⟩ := resolve_eq_ok_iff.mp h
    have hperm := handlers_perm_of_resolve h
    refine ⟨hresolved.names, hperm, hperm.nodup_iff.mpr (nodup_of_resolve h), ?_, ?_⟩
    · intro p hp
      exact (Phase.admissible_of_resolve (hresolved.resolve_of_mem hp)).perm
    · intro handlers' c' name h' hsame
      refine Option.ext fun p => ?_
      rw [phase?_eq_some_iff h, phase?_eq_some_iff h', hsame]

end Chain

/-! ## The chains of a scope -/

namespace Chains

variable {order : PhaseOrder} {scope : Scope} {globals own : Flows} {c : Chains}

theorem buildFlow_of_build (hbuild : Chains.build order scope globals own = .ok c) (flow : Flow) :
    buildFlow order scope globals own flow = .ok (c.forFlow flow) := by
  unfold Chains.build at hbuild
  cases hin : buildFlow order scope globals own .inbound with
  | error error =>
    rw [hin] at hbuild
    cases hbuild
  | ok inbound =>
    cases hout : buildFlow order scope globals own .outbound with
    | error error =>
      rw [hin, hout] at hbuild
      cases hbuild
    | ok outbound =>
      cases hfault : buildFlow order scope globals own .fault with
      | error error =>
        rw [hin, hout, hfault] at hbuild
        cases hbuild
      | ok fault =>
        rw [hin, hout, hfault] at hbuild
        obtain rfl := Except.ok.inj hbuild
        cases flow
        · exact hin
        · exact hout
        · exact hfault

/-- The chain of every direction holds the global handlers and the scope's own, each once. -/
theorem handlers_perm_of_build (hbuild : Chains.build order scope globals own = .ok c)
    (flow : Flow) :
    (c.forFlow flow).handlers.Perm (globals.forFlow flow ++ own.forFlow flow) := by
  have hflow := buildFlow_of_build hbuild flow
  unfold buildFlow at hflow
  split at hflow
  next chain hchain =>
    obtain rfl := Except.ok.inj hflow
    exact Chain.handlers_perm_of_resolve hchain
  next => cases hflow

end Chains

end SoapPipeline
