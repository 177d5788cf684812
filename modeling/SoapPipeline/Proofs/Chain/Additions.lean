/-
  SoapPipeline.Proofs.Chain.Additions

  Adding a handler to a phase or a chain disturbs nothing that it need not.

  A phase is resolved again from the sequence in which its handlers run, and the
  new handler is declared behind them.  Their sequence satisfies their rules, so
  that by itself it is picked once more; with the new handler only those leave
  their place whom every order puts behind it, and these follow it as they stood.
  A chain is changed in place, in one phase or not at all.

  Main results:
    * `resolve_self`: the handlers of a phase resolve to the phase;
    * `handlers_of_withHandler`: where the new handler and the others stand;
    * `add_cases`: what becomes of a chain;
    * `addHandler_eq_of_add`: adding in place is adding to a copy;
    * `additions_stable`: all of it, for every phase that has been resolved.
-/
import SoapPipeline.Proofs.Chain.Extension

namespace SoapPipeline

namespace Phase

variable {name : String} {candidates : List Descriptor} {p q : Phase} {d : Descriptor}

/-! ## Phases that have been resolved -/

/-- The phase has come from resolution, or from adding handlers to one that has. -/
inductive Obtained : Phase → Prop where
  | resolve {name : String} {candidates : List Descriptor} {p : Phase}
      (h : Phase.resolve name candidates = .ok p) : Obtained p
  | withHandler {p q : Phase} {d : Descriptor} (hp : Obtained p) (h : p.withHandler d = .ok q) :
      Obtained q

theorem Obtained.exists_resolve (h : Obtained p) :
    ∃ candidates, Phase.resolve p.name candidates = .ok p := by
  cases h with
  | resolve h =>
    rw [name_of_resolve h]
    exact ⟨_, h⟩
  | withHandler _ h =>
    unfold Phase.withHandler at h
    rw [name_of_resolve h]
    exact ⟨_, h⟩

/-- The handlers of a phase satisfy their own rules as they stand. -/
theorem admissible_self (h : resolve name candidates = .ok p) :
    Admissible p.handlers p.handlers := by
  have hrun := admissible_of_resolve h
  exact hrun.of_perm hrun.perm.symm

/-- The handlers of a phase, declared in the sequence in which they run, run in this sequence. -/
theorem resolve_self (h : resolve name candidates = .ok p) :
    resolve p.name p.handlers = .ok p := by
  have hrun := admissible_of_resolve h
  have hname := name_of_resolve h
  have hnodup : p.handlers.Nodup := hrun.nodup (nodup_of_names (wellFormed_of_resolve h).names)
  -- They resolve in whatever sequence they are declared, and the one they have is picked.
  have hagain := (exists_resolve_iff.mp ⟨p, h⟩).of_perm hrun.perm.symm
  obtain ⟨q, hq⟩ := exists_resolve_iff.mpr hagain
  have hpicks : Picks p.handlers p.handlers :=
    (admissible_self h).picks_of_sublist hnodup (List.Sublist.refl _) (List.Sublist.refl _)
  have hhandlers : q.handlers = p.handlers :=
    Picks.eq_of_perm hnodup (picks_of_resolve hq) hpicks (admissible_of_resolve hq).perm
  have hsame : q = p := congrArg₂ Phase.mk ((name_of_resolve hq).trans hname.symm) hhandlers
  rw [hname, hq, hsame]

/-! ## One more handler -/

open Classical in
/-- In front of the new handler stand those that are not forced behind it, and behind it those
that are, each as they stood. -/
theorem handlers_of_withHandler (h : resolve name candidates = .ok p)
    (hq : p.withHandler d = .ok q) :
    q = ⟨p.name, p.handlers.filter (fun e => ¬ Forced (p.handlers ++ [d]) d e) ++
      d :: p.handlers.filter (fun e => Forced (p.handlers ++ [d]) d e)⟩ := by
  have hself := admissible_self h
  obtain ⟨front, back, rfl, hins⟩ := exists_insertion hq
  have hback : p.handlers.filter (fun e => Forced (p.handlers ++ [d]) d e) = back := by
    rw [← hins.back_eq hself]
    refine List.filter_congr fun e _ => ?_
    rw [decide_eq_decide, hins.mem_back_iff]
  have hfront : p.handlers.filter (fun e => ¬ Forced (p.handlers ++ [d]) d e) = front := by
    rw [← hins.front_eq hself (hins.picks_self hself)]
    refine List.filter_congr fun e he => ?_
    rw [decide_eq_decide, hins.mem_front_iff]
    exact ⟨fun hnot => ⟨he, hnot⟩, fun hall => hall.2⟩
  rw [hfront, hback]

end Phase

namespace Chain

variable {phases : List Phase} {c c' : Chain} {d : Descriptor}

/-! ## Adding in place -/

/-- What becomes of phases and how this is answered: the first one of the name takes the handler
or does not, or there is none of the name. -/
inductive Added (d : Descriptor) (phases : List Phase) :
    Except ResolutionError Unit × List Phase → Prop where
  | taken {left right : List Phase} {p q : Phase} (hcut : phases = left ++ p :: right)
      (hfirst : ∀ r ∈ left, r.name ≠ d.rule.phase) (hname : p.name = d.rule.phase)
      (hq : p.withHandler d = .ok q) : Added d phases (.ok (), left ++ q :: right)
  | refused {left right : List Phase} {p : Phase} {e : ResolutionError}
      (hcut : phases = left ++ p :: right) (hfirst : ∀ r ∈ left, r.name ≠ d.rule.phase)
      (hname : p.name = d.rule.phase) (he : p.withHandler d = .error e) :
      Added d phases (.error e, phases)
  | undeclared (hnone : ∀ r ∈ phases, r.name ≠ d.rule.phase) :
      Added d phases (.error (.undeclaredPhase d.name.text d.rule.phase), phases)

theorem addInPlace_append {left : List Phase} (h : ∀ r ∈ left, r.name ≠ d.rule.phase)
    (rest : List Phase) :
    addInPlace d (left ++ rest) = ((addInPlace d rest).1, left ++ (addInPlace d rest).2) := by
  induction left with
  | nil => rfl
  | cons p left ih =>
    obtain ⟨hp, hleft⟩ := List.forall_mem_cons.mp h
    rw [List.cons_append, addInPlace, if_neg hp, ih hleft]
    rfl

theorem addInPlace_cons_of_eq {p : Phase} (hname : p.name = d.rule.phase) (right : List Phase) :
    addInPlace d (p :: right) = match p.withHandler d with
      | .ok q => (.ok (), q :: right)
      | .error e => (.error e, p :: right) := by
  rw [addInPlace]
  exact if_pos hname

theorem addInPlace_cases (d : Descriptor) (phases : List Phase) :
    Added d phases (addInPlace d phases) := by
  cases hfind : phases.find? fun p => p.name = d.rule.phase with
  | none =>
    have hnone : ∀ r ∈ phases, r.name ≠ d.rule.phase := by
      intro r hr
      simpa using List.find?_eq_none.mp hfind r hr
    have hall := addInPlace_append hnone []
    rw [List.append_nil] at hall
    rw [hall, addInPlace, List.append_nil]
    exact .undeclared hnone
  | some p =>
    obtain ⟨hname, left, right, rfl, hleft⟩ := List.find?_eq_some_iff_append.mp hfind
    have hname : p.name = d.rule.phase := of_decide_eq_true hname
    have hfirst : ∀ r ∈ left, r.name ≠ d.rule.phase := by
      intro r hr
      simpa using hleft r hr
    rw [addInPlace_append hfirst, addInPlace_cons_of_eq hname]
    cases hq : p.withHandler d with
    | ok q => exact .taken rfl hfirst hname hq
    | error e => exact .refused rfl hfirst hname hq

/-- A chain changes in its phases only, and in these as said. -/
theorem add_cases (c : Chain) (d : Descriptor) :
    ∃ phases', (c.add d).2 = { c with phases := phases' } ∧
      Added d c.phases ((c.add d).1, phases') :=
  ⟨_, rfl, addInPlace_cases d c.phases⟩

/-- Adding in place gives the chain or the error that adding to a copy gives. -/
theorem addHandler_eq_of_add (c : Chain) (d : Descriptor) :
    c.addHandler d = (c.add d).1.map fun _ => (c.add d).2 := by
  have hphases : ∀ phases : List Phase,
      addToPhases d phases = (addInPlace d phases).1.map fun _ => (addInPlace d phases).2 := by
    intro phases
    induction phases with
    | nil => rfl
    | cons p rest ih =>
      rw [addToPhases_cons, addInPlace]
      split
      · cases p.withHandler d <;> rfl
      · rw [ih]
        generalize addInPlace d rest = result
        obtain ⟨outcome, others⟩ := result
        cases outcome <;> rfl
  rw [addHandler_eq, hphases]
  show ((addInPlace d c.phases).1.map _).map _ = _
  unfold add
  generalize addInPlace d c.phases = result
  obtain ⟨outcome, others⟩ := result
  cases outcome <;> rfl

/-! ## Stability -/

open Classical in
/-- The handlers of a resolved phase resolve to what they are.  A handler that the phase takes is
put behind all that are not forced behind it, and in front of those that are, and either part keeps
its sequence.  A chain that takes the handler changes in the first phase of the name that the rule
gives, and a chain that does not take it does not change. -/
theorem additions_stable :
    (∀ p, Phase.Obtained p → Phase.resolve p.name p.handlers = .ok p ∧
      ∀ d q, p.withHandler d = .ok q →
        q = ⟨p.name, p.handlers.filter (fun e => ¬ Phase.Forced (p.handlers ++ [d]) d e) ++
          d :: p.handlers.filter (fun e => Phase.Forced (p.handlers ++ [d]) d e)⟩) ∧
    (∀ (c c' : Chain) (d : Descriptor), c.add d = (.ok (), c') ↔
      ∃ left p right q, c.phases = left ++ p :: right ∧ (∀ r ∈ left, r.name ≠ d.rule.phase) ∧
        p.name = d.rule.phase ∧ p.withHandler d = .ok q ∧
        c' = { c with phases := left ++ q :: right }) ∧
    ∀ (c c' : Chain) (d : Descriptor) (e : ResolutionError), c.add d = (.error e, c') → c' = c := by
  refine ⟨?_, ?_, ?_⟩
  · intro p hp
    obtain ⟨candidates, h⟩ := hp.exists_resolve
    exact ⟨Phase.resolve_self h, fun d q hq => Phase.handlers_of_withHandler h hq⟩
  · intro c c' d
    constructor
    · intro h
      obtain ⟨phases', hphases, hadded⟩ := add_cases c d
      rw [h] at hphases hadded
      cases hadded with
      | taken hcut hfirst hname hq => exact ⟨_, _, _, _, hcut, hfirst, hname, hq, hphases⟩
    · intro h
      obtain ⟨left, p, right, q, hcut, hfirst, hname, hq, rfl⟩ := h
      unfold add
      rw [hcut, addInPlace_append hfirst, addInPlace_cons_of_eq hname, hq]
  · intro c c' d e h
    obtain ⟨phases', hphases, hadded⟩ := add_cases c d
    rw [h] at hphases hadded
    cases hadded with
    | refused => exact hphases
    | undeclared => exact hphases

/-- It dates what is verified, so that it runs ahead of the verification. -/
def stamp : Descriptor :=
  ⟨⟨"", "stamp"⟩, ⟨5, []⟩, .empty, ⟨"Security", some "verify", none, false, false⟩⟩

/-- Of the four handlers two are forced behind it: the verification, and the audit that runs after
the verification. -/
theorem stamp_stable :
    Phase.Obtained ⟨"Security", Phase.seats Phase.fourHandlers [2, 1, 3, 0]⟩ ∧
      ∃ q, Phase.withHandler ⟨"Security", Phase.seats Phase.fourHandlers [2, 1, 3, 0]⟩ stamp = .ok q ∧
        q.handlerNames = ["decrypt", "log", "stamp", "verify", "audit"] ∧
        Phase.resolve "Security" q.handlers = .ok q := by
  have hcycle : Graph.findCycle? [[], [], [3], [0]] = none := by cbv
  have hobtained : Phase.Obtained ⟨"Security", Phase.seats Phase.fourHandlers [2, 1, 3, 0]⟩ :=
    .resolve (Phase.resolve_of_stages rfl rfl hcycle rfl rfl)
  have hcycle : Graph.findCycle? [[2], [], [3], [], [2]] = none := by cbv
  have hadd : Phase.withHandler ⟨"Security", Phase.seats Phase.fourHandlers [2, 1, 3, 0]⟩ stamp =
      .ok ⟨"Security", Phase.seats (Phase.seats Phase.fourHandlers [2, 1, 3, 0] ++ [stamp])
        [0, 1, 4, 2, 3]⟩ :=
    Phase.resolve_of_stages rfl rfl hcycle rfl rfl
  exact ⟨hobtained, _, hadd, rfl, (additions_stable.1 _ (hobtained.withHandler hadd)).1⟩

end Chain

end SoapPipeline
