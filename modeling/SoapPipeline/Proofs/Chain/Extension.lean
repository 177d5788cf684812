/-
  SoapPipeline.Proofs.Chain.Extension

  Adding a handler to a chain, and resolving the chain anew with that handler.

  Either way one phase changes, the one that the handler targets.  Adding resolves
  it from the sequence in which its handlers run, resolving anew from the one in
  which they were declared, and nothing of the latter is kept in a chain.  The two
  accept the same handlers and put the new one at the same place, but those that
  have to stand behind it may follow it in different sequences.

  Main results:
    * `exists_cut`: the phase that changes, and that the others do not;
    * `addHandler_or_resolve`: when both ways succeed, what their chains share, and
      when these are the same;
    * `addHandler_reorders`: a handler for which they differ.
-/
import SoapPipeline.Proofs.Chain.Partition
import SoapPipeline.Proofs.Phase.Insertion

namespace SoapPipeline

theorem map_eq_ok_iff {α β ε : Type} {f : α → β} {x : Except ε α} {b : β} :
    x.map f = .ok b ↔ ∃ a, x = .ok a ∧ b = f a := by
  cases x with
  | error error => simp [Except.map]
  | ok a => simp [Except.map, eq_comm]

namespace Chain

variable {flow : Flow} {scope : Scope} {order : List String} {handlers : List Descriptor}
  {phases : List Phase} {name : String} {c : Chain} {d : Descriptor}

/-! ## The phase that changes -/

theorem targeting_append_self (handlers : List Descriptor) (d : Descriptor) :
    targeting d.rule.phase (handlers ++ [d]) = targeting d.rule.phase handlers ++ [d] := by
  simp [targeting]

theorem targeting_append_of_ne (handlers : List Descriptor) (h : d.rule.phase ≠ name) :
    targeting name (handlers ++ [d]) = targeting name handlers := by
  simp [targeting, h]

theorem addToPhases_cons (d : Descriptor) (p : Phase) (rest : List Phase) :
    addToPhases d (p :: rest) =
      if p.name = d.rule.phase then (p.withHandler d).map (· :: rest)
      else (addToPhases d rest).map (p :: ·) := by
  rw [addToPhases]
  split
  · cases p.withHandler d <;> rfl
  · cases addToPhases d rest <;> rfl

theorem addHandler_eq (c : Chain) (d : Descriptor) :
    c.addHandler d = (addToPhases d c.phases).map fun phases => { c with phases } := by
  unfold addHandler
  cases addToPhases d c.phases <;> rfl

namespace Resolved

theorem unique {phases' : List Phase} (h : Resolved order handlers phases)
    (h' : Resolved order handlers phases') : phases = phases' := by
  refine List.right_unique_forall₂' ?_ h h'
  intro name p q hp hq
  exact Except.ok.inj (hp.symm.trans hq)

/-- A handler that targets none of the phases makes no difference to them. -/
theorem append_iff (hother : d.rule.phase ∉ order) :
    Resolved order (handlers ++ [d]) phases ↔ Resolved order handlers phases := by
  have hsame : ∀ name ∈ order, targeting name (handlers ++ [d]) = targeting name handlers :=
    fun name hname => targeting_append_of_ne handlers fun heq => hother (heq ▸ hname)
  unfold Resolved
  induction order generalizing phases with
  | nil => rw [List.forall₂_nil_left_iff, List.forall₂_nil_left_iff]
  | cons name rest ih =>
    obtain ⟨hname, hrest⟩ := List.forall_mem_cons.mp hsame
    have hother' := fun hmem => hother (List.mem_cons_of_mem name hmem)
    simp only [List.forall₂_cons_left_iff, hname, ih hother' hrest]

/-- Adding a handler and resolving anew change the phase that the handler targets, and this one
only. -/
theorem exists_cut (h : Resolved order handlers phases) (hnodup : order.Nodup)
    (htarget : d.rule.phase ∈ order) :
    ∃ left p right, phases = left ++ p :: right ∧
      Phase.resolve d.rule.phase (targeting d.rule.phase handlers) = .ok p ∧
      (∀ phases', addToPhases d phases = .ok phases' ↔
        ∃ q, p.withHandler d = .ok q ∧ phases' = left ++ q :: right) ∧
      ∀ phases', Resolved order (handlers ++ [d]) phases' ↔
        ∃ r, Phase.resolve d.rule.phase (targeting d.rule.phase handlers ++ [d]) = .ok r ∧
          phases' = left ++ r :: right := by
  induction h with
  | nil => exact absurd htarget List.not_mem_nil
  | @cons name p rest others hp hothers ih =>
    obtain ⟨hname, hnodup⟩ := List.nodup_cons.mp hnodup
    by_cases heq : d.rule.phase = name
    · subst heq
      refine ⟨[], p, others, rfl, hp, ?_, ?_⟩
      · intro phases'
        rw [addToPhases_cons, if_pos (Phase.name_of_resolve hp), map_eq_ok_iff]
        rfl
      · intro phases'
        unfold Resolved
        rw [List.forall₂_cons_left_iff, targeting_append_self]
        constructor
        · rintro ⟨r, others', hr, hothers', rfl⟩
          have hothers' := (append_iff hname).mp hothers'
          exact ⟨r, hr, congrArg (r :: ·) (hothers'.unique hothers)⟩
        · rintro ⟨r, hr, rfl⟩
          exact ⟨r, others, hr, (append_iff hname).mpr hothers, rfl⟩
    · have hrest : d.rule.phase ∈ rest := (List.mem_cons.mp htarget).resolve_left heq
      obtain ⟨left, p', right, hcut, hp', hadd, hbatch⟩ := ih hnodup hrest
      refine ⟨p :: left, p', right, congrArg (p :: ·) hcut, hp', ?_, ?_⟩
      · intro phases'
        have hne : p.name ≠ d.rule.phase := by
          rw [Phase.name_of_resolve hp]
          exact Ne.symm heq
        rw [addToPhases_cons, if_neg hne, map_eq_ok_iff]
        constructor
        · rintro ⟨others', hothers', rfl⟩
          obtain ⟨q, hq, rfl⟩ := (hadd others').mp hothers'
          exact ⟨q, hq, rfl⟩
        · rintro ⟨q, hq, rfl⟩
          exact ⟨_, (hadd _).mpr ⟨q, hq, rfl⟩, rfl⟩
      · intro phases'
        unfold Resolved
        rw [List.forall₂_cons_left_iff, targeting_append_of_ne handlers heq]
        constructor
        · rintro ⟨p'', others', hp'', hothers', rfl⟩
          obtain ⟨r, hr, rfl⟩ := (hbatch others').mp hothers'
          obtain rfl := Except.ok.inj (hp''.symm.trans hp)
          exact ⟨r, hr, rfl⟩
        · rintro ⟨r, hr, rfl⟩
          exact ⟨p, _, hp, (hbatch _).mpr ⟨r, hr, rfl⟩, rfl⟩

end Resolved

/-! ## Adding and resolving anew -/

theorem addToPhases_ne_ok (h : ∀ p ∈ phases, p.name ≠ d.rule.phase) (phases' : List Phase) :
    addToPhases d phases ≠ .ok phases' := by
  induction phases generalizing phases' with
  | nil => exact fun heq => nomatch heq
  | cons p rest ih =>
    obtain ⟨hp, hrest⟩ := List.forall_mem_cons.mp h
    rw [addToPhases_cons, if_neg hp, Ne, map_eq_ok_iff]
    rintro ⟨rest', hok, -⟩
    exact ih hrest rest' hok

section Resolves

variable (h : resolve flow scope order handlers = .ok c)

include h

/-- Neither way takes a handler that targets no phase of the chain. -/
theorem not_added_of_stray (hstray : d.rule.phase ∉ order) (c' : Chain) :
    c.addHandler d ≠ .ok c' ∧ resolve flow scope order (handlers ++ [d]) ≠ .ok c' := by
  obtain ⟨-, -, hresolved, -, -⟩ := resolve_eq_ok_iff.mp h
  constructor
  · rw [addHandler_eq, Ne, map_eq_ok_iff]
    rintro ⟨phases', hok, -⟩
    refine addToPhases_ne_ok (fun p hp heq => hstray ?_) phases' hok
    rw [← heq, ← hresolved.names]
    exact List.mem_map_of_mem hp
  · intro hok
    exact hstray ((resolve_eq_ok_iff.mp hok).2.1 d (by simp))

/-- Either way one phase is put in the place of the one that the handler targets. -/
theorem exists_cut (htarget : d.rule.phase ∈ order) :
    ∃ left p right, c.phases = left ++ p :: right ∧
      Phase.resolve d.rule.phase (targeting d.rule.phase handlers) = .ok p ∧
      (∀ c', c.addHandler d = .ok c' ↔
        ∃ q, p.withHandler d = .ok q ∧ c' = { c with phases := left ++ q :: right }) ∧
      ∀ c', resolve flow scope order (handlers ++ [d]) = .ok c' ↔
        ∃ r, Phase.resolve d.rule.phase (targeting d.rule.phase handlers ++ [d]) = .ok r ∧
          c' = { c with phases := left ++ r :: right } := by
  obtain ⟨hnodup, hcovers, hresolved, rfl, rfl⟩ := resolve_eq_ok_iff.mp h
  obtain ⟨left, p, right, hcut, hp, hadd, hbatch⟩ := hresolved.exists_cut hnodup htarget
  refine ⟨left, p, right, hcut, hp, fun c' => ?_, fun c' => ?_⟩
  · rw [addHandler_eq, map_eq_ok_iff]
    constructor
    · rintro ⟨phases', hok, rfl⟩
      obtain ⟨q, hq, rfl⟩ := (hadd phases').mp hok
      exact ⟨q, hq, rfl⟩
    · rintro ⟨q, hq, rfl⟩
      exact ⟨_, (hadd _).mpr ⟨q, hq, rfl⟩, rfl⟩
  · rw [resolve_eq_ok_iff, hbatch]
    constructor
    · rintro ⟨-, -, ⟨r, hr, hphases⟩, hflow, hscope⟩
      obtain ⟨flow', scope', phases'⟩ := c'
      obtain rfl : flow' = c.flow := hflow
      obtain rfl : scope' = c.scope := hscope
      obtain rfl : phases' = left ++ r :: right := hphases
      exact ⟨r, hr, rfl⟩
    · rintro ⟨r, hr, rfl⟩
      refine ⟨hnodup, fun e he => ?_, ⟨r, hr, rfl⟩, rfl, rfl⟩
      rcases List.mem_append.mp he with he | he
      · exact hcovers e he
      · exact List.mem_singleton.mp he ▸ htarget

/-- Adding a handler to a chain succeeds exactly when its handlers resolve anew with that one
declared last.  All phases but one are then those that the chain had; in the one that the handler
targets the same handlers stand ahead of it, in the same sequence, and the same ones behind it.
The chains are the same if adding moves no other handler, and also if the new one names no handler
to run ahead of, or is to run first or last. -/
theorem addHandler_or_resolve (d : Descriptor) :
    ((∃ added, c.addHandler d = .ok added) ↔
      ∃ batch, resolve flow scope order (handlers ++ [d]) = .ok batch) ∧
    ∀ added batch, c.addHandler d = .ok added →
      resolve flow scope order (handlers ++ [d]) = .ok batch →
      (∃ left old right front back back', c.phases = left ++ ⟨d.rule.phase, old⟩ :: right ∧
        added = { c with phases := left ++ ⟨d.rule.phase, front ++ d :: back⟩ :: right } ∧
        batch = { c with phases := left ++ ⟨d.rule.phase, front ++ d :: back'⟩ :: right } ∧
        back.Perm back') ∧
      (c.handlers.Sublist added.handlers ∨ d.rule.before = none ∨ d.rule.first = true ∨
        d.rule.last = true → added = batch) := by
  by_cases htarget : d.rule.phase ∈ order
  · obtain ⟨left, p, right, hcut, hp, hadd, hbatch⟩ := exists_cut h htarget
    have hname := Phase.name_of_resolve hp
    simp only [hadd, hbatch]
    constructor
    · constructor
      · rintro ⟨-, q, hq, -⟩
        obtain ⟨r, hr⟩ := (Phase.exists_withHandler_iff hp).mp ⟨q, hq⟩
        exact ⟨_, r, hr, rfl⟩
      · rintro ⟨-, r, hr, -⟩
        obtain ⟨q, hq⟩ := (Phase.exists_withHandler_iff hp).mpr ⟨r, hr⟩
        exact ⟨_, q, hq, rfl⟩
    · rintro added batch ⟨q, hq, rfl⟩ ⟨r, hr, rfl⟩
      obtain ⟨front, back, back', rfl, rfl, hback, hsame⟩ :=
        Phase.withHandler_or_resolve hp hq hr
      refine ⟨⟨left, p.handlers, right, front, back, back', ?_, rfl, rfl, hback⟩, fun hcase => ?_⟩
      · rw [hcut, ← hname]
      · rw [hsame (hcase.imp_left fun hsub => ?_)]
        -- The other phases are the same, so that the handlers of this one moved as little.
        unfold Chain.handlers at hsub
        rw [hcut, List.flatMap_append, List.flatMap_append, List.flatMap_cons,
          List.flatMap_cons, List.append_sublist_append_left] at hsub
        exact (List.append_sublist_append_right _).mp hsub
  · have hneither := not_added_of_stray h htarget
    constructor
    · exact iff_of_false (fun ⟨c', hok⟩ => (hneither c').1 hok) fun ⟨c', hok⟩ =>
        (hneither c').2 hok
    · exact fun added _ hok => absurd hok (hneither added).1

end Resolves

/-! ## A handler for which it matters -/

/-- Once decrypted, messages are audited and routed, and audited only after they are stamped.  So
the audit was declared ahead of the routing and runs behind it. -/
def waiting : List Descriptor :=
  [⟨⟨"", "decrypt"⟩, ⟨1, []⟩, .empty, .inPhase "global"⟩,
   ⟨⟨"", "audit"⟩, ⟨2, []⟩, .empty, ⟨"global", none, some "decrypt", false, false⟩⟩,
   ⟨⟨"", "route"⟩, ⟨3, []⟩, .empty, ⟨"global", none, some "decrypt", false, false⟩⟩,
   ⟨⟨"", "stamp"⟩, ⟨4, []⟩, .empty, ⟨"global", some "audit", none, false, false⟩⟩]

def waitingChain : Chain :=
  ⟨.inbound, .engine, [⟨"global", Phase.seats waiting [0, 2, 3, 1]⟩]⟩

/-- It delays the decryption until messages are stamped. -/
def unzip : Descriptor :=
  ⟨⟨"", "unzip"⟩, ⟨5, []⟩, .empty, ⟨"global", some "decrypt", none, false, false⟩⟩

def sign : Descriptor :=
  ⟨⟨"", "sign"⟩, ⟨6, []⟩, .empty, ⟨"global", none, some "audit", false, false⟩⟩

theorem resolve_waiting : resolve .inbound .engine ["global"] waiting = .ok waitingChain := by
  have hcycle : Graph.findCycle? [[1, 2], [], [], [1]] = none := by cbv
  have hphase : Phase.resolve "global" waiting = .ok ⟨"global", Phase.seats waiting [0, 2, 3, 1]⟩ :=
    Phase.resolve_of_stages rfl rfl hcycle rfl rfl
  exact resolve_singleton (by decide) hphase

theorem addHandler_waitingChain {d : Descriptor} {p : Phase} (htarget : d.rule.phase = "global")
    (h : Phase.resolve "global" (Phase.seats waiting [0, 2, 3, 1] ++ [d]) = .ok p) :
    waitingChain.addHandler d = .ok ⟨.inbound, .engine, [p]⟩ := by
  rw [addHandler_eq, waitingChain, addToPhases_cons, if_pos htarget.symm, Phase.withHandler, h]
  rfl

theorem sign_added_or_resolved :
    resolve .inbound .engine ["global"] waiting = .ok waitingChain ∧ sign.rule.before = none ∧
      ∃ added, waitingChain.addHandler sign = .ok added ∧
        resolve .inbound .engine ["global"] (waiting ++ [sign]) = .ok added ∧
        added.handlerNames = ["decrypt", "route", "stamp", "audit", "sign"] := by
  obtain ⟨hiff, hagree⟩ := addHandler_or_resolve resolve_waiting sign
  have hcycle : Graph.findCycle? [[1, 3], [], [3], [4], []] = none := by cbv
  have hphase : Phase.resolve "global" (Phase.seats waiting [0, 2, 3, 1] ++ [sign]) =
      .ok ⟨"global", Phase.seats (Phase.seats waiting [0, 2, 3, 1] ++ [sign]) [0, 1, 2, 3, 4]⟩ :=
    Phase.resolve_of_stages rfl rfl hcycle rfl rfl
  have hadd := addHandler_waitingChain rfl hphase
  obtain ⟨batch, hbatch⟩ := hiff.mp ⟨_, hadd⟩
  have hsame := (hagree _ batch hadd hbatch).2 (Or.inr (Or.inl rfl))
  exact ⟨resolve_waiting, rfl, _, hadd, hsame ▸ hbatch, rfl⟩

/-- When the decryption is delayed the audit need not wait any longer than the routing, so that
the sequence of their declaration would decide; but a chain knows only that it ran behind. -/
theorem addHandler_reorders :
    resolve .inbound .engine ["global"] waiting = .ok waitingChain ∧
      ∃ added batch, waitingChain.addHandler unzip = .ok added ∧
        resolve .inbound .engine ["global"] (waiting ++ [unzip]) = .ok batch ∧
        added.handlerNames = ["stamp", "unzip", "decrypt", "route", "audit"] ∧
        batch.handlerNames = ["stamp", "unzip", "decrypt", "audit", "route"] ∧
        added ≠ batch := by
  have hcycle : Graph.findCycle? [[1, 3], [], [3], [], [0]] = none := by cbv
  have hadded : Phase.resolve "global" (Phase.seats waiting [0, 2, 3, 1] ++ [unzip]) =
      .ok ⟨"global", Phase.seats (Phase.seats waiting [0, 2, 3, 1] ++ [unzip]) [2, 4, 0, 1, 3]⟩ :=
    Phase.resolve_of_stages rfl rfl hcycle rfl rfl
  have hcycle : Graph.findCycle? [[1, 2], [], [], [1], [0]] = none := by cbv
  have hbatch : Phase.resolve "global" (waiting ++ [unzip]) =
      .ok ⟨"global", Phase.seats (waiting ++ [unzip]) [3, 4, 0, 1, 2]⟩ :=
    Phase.resolve_of_stages rfl rfl hcycle rfl rfl
  have hresolved : resolve .inbound .engine ["global"] (waiting ++ [unzip]) =
      .ok ⟨.inbound, .engine,
        [⟨"global", Phase.seats (waiting ++ [unzip]) [3, 4, 0, 1, 2]⟩]⟩ :=
    resolve_singleton (by decide) hbatch
  exact ⟨resolve_waiting, _, _, addHandler_waitingChain rfl hadded, hresolved, rfl, rfl, by decide⟩

end Chain

end SoapPipeline
