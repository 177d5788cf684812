/-
  SoapPipeline.Proofs.Chain.Compensation

  What running a chain asks of its handlers.

  The handlers of all phases are invoked one after the other, each on the message
  that the one before left.  The first one that does not let the chain go on ends
  it.  If it raised a fault, those ahead of it undo their work, the nearest one
  first, across phases, and the fault is returned with the handler that raised it.

  All statements are about runs, so they hold whatever the handlers do to the
  message, also for instances that stand at several places.

  Main results:
    * `run_unwind_iff`: what undoing asks;
    * `run_runSteps_iff`: what the steps of a chain ask, with handlers that ran before;
    * `exists_place_of_split`, `Place.exists_split`: the places of a chain, phase by phase;
    * `execute_compensates`: what running a chain asks, and that it comes to an end.
-/
import SoapPipeline.Execution
import SoapPipeline.Proofs.Program.Runs

namespace SoapPipeline

open Program

/-- A question to handlers or to the engine, with its answer. -/
abbrev ExchangeEvent : Type := Event Exchange.interface

namespace Chain

/-! ## Calls in a row -/

/-- The handlers are invoked one after the other, each on the message that the one before left, and
all of them let the chain go on. -/
inductive Proceeds : List Handler → Context → List ExchangeEvent → Context → Prop
  | nil (ctx : Context) : Proceeds [] ctx [] ctx
  | cons {h : Handler} {rest : List Handler} {ctx left final : Context}
      {events : List ExchangeEvent} (hrest : Proceeds rest left events final) :
      Proceeds (h :: rest) ctx (⟨.invoke h ctx, (.ok .proceed, left)⟩ :: events) final

/-- The handlers undo their work one after the other, each on the message that the one before
left. -/
inductive Unwound : List Handler → Context → List ExchangeEvent → Context → Prop
  | nil (ctx : Context) : Unwound [] ctx [] ctx
  | cons {h : Handler} {rest : List Handler} {ctx left final : Context}
      {events : List ExchangeEvent} (hrest : Unwound rest left events final) :
      Unwound (h :: rest) ctx (⟨.undo h ctx, left⟩ :: events) final

theorem run_unwind_iff {handlers : List Handler} {ctx final : Context}
    {events : List ExchangeEvent} :
    Run (unwind handlers ctx) events final ↔ Unwound handlers ctx events final := by
  constructor
  · intro hrun
    induction handlers generalizing ctx events with
    | nil =>
      obtain ⟨rfl, rfl⟩ := Run.pure_iff.mp hrun
      exact Unwound.nil final
    | cons h rest ih =>
      obtain ⟨left, events', rfl, hrest⟩ := Run.question_bind_iff.mp hrun
      exact Unwound.cons (ih hrest)
  · intro hunwound
    induction hunwound with
    | nil ctx => exact Run.done ctx
    | cons _ ih => exact Run.ask ih

/-! ## Steps -/

/-- How steps of a chain end when some handlers ran before them, the last one listed first. -/
inductive Ended (steps : List (String × Descriptor)) (ran : List Handler) (ctx : Context) :
    List ExchangeEvent → Except ChainFault ChainOutcome → Context → Prop
  | completed {events : List ExchangeEvent} {final : Context}
      (hproceeds : Proceeds (steps.map fun step => step.2.handler) ctx events final) :
      Ended steps ran ctx events (.ok .completed) final
  | shortCircuited {front back : List (String × Descriptor)} {phase : String} {d : Descriptor}
      {events : List ExchangeEvent} {left final : Context}
      (hsplit : steps = front ++ (phase, d) :: back)
      (hproceeds : Proceeds (front.map fun step => step.2.handler) ctx events left) :
      Ended steps ran ctx (events ++ [⟨.invoke d.handler left, (.ok .finish, final)⟩])
        (.ok (.shortCircuited d.name)) final
  | failed {front back : List (String × Descriptor)} {phase : String} {d : Descriptor}
      {events undone : List ExchangeEvent} {left faulty final : Context} {fault : Fault}
      (hsplit : steps = front ++ (phase, d) :: back)
      (hproceeds : Proceeds (front.map fun step => step.2.handler) ctx events left)
      (hundone : Unwound ((front.map fun step => step.2.handler).reverse ++ ran) faulty undone
        final) :
      Ended steps ran ctx (events ++ ⟨.invoke d.handler left, (.error fault, faulty)⟩ :: undone)
        (.error ⟨fault, d, phase⟩) final

/-- A step that lets the chain go on is the first of those that ran before the others. -/
theorem Ended.cons {steps : List (String × Descriptor)} {ran : List Handler} {phase : String}
    {d : Descriptor} {ctx left final : Context} {events : List ExchangeEvent}
    {result : Except ChainFault ChainOutcome}
    (h : Ended steps (d.handler :: ran) left events result final) :
    Ended ((phase, d) :: steps) ran ctx (⟨.invoke d.handler ctx, (.ok .proceed, left)⟩ :: events)
      result final := by
  cases h with
  | completed hproceeds => exact Ended.completed (Proceeds.cons hproceeds)
  | @shortCircuited front back _ d' _ _ _ hsplit hproceeds =>
    rw [hsplit]
    exact Ended.shortCircuited List.cons_append.symm (Proceeds.cons hproceeds)
  | @failed front back _ d' _ _ _ _ _ _ hsplit hproceeds hundone =>
    rw [hsplit]
    refine Ended.failed List.cons_append.symm (Proceeds.cons hproceeds) ?_
    rw [List.map_cons, List.reverse_cons, List.append_assoc]
    exact hundone

theorem ended_of_run {steps : List (String × Descriptor)} {ran : List Handler}
    {ctx final : Context} {events : List ExchangeEvent} {result : Except ChainFault ChainOutcome}
    (hrun : Run (runSteps steps ran ctx) events (result, final)) :
    Ended steps ran ctx events result final := by
  induction steps generalizing ran ctx events with
  | nil =>
    obtain ⟨rfl, rfl, rfl⟩ := Run.pure_pair_iff.mp hrun
    exact Ended.completed (Proceeds.nil _)
  | cons step rest ih =>
    obtain ⟨phase, d⟩ := step
    obtain ⟨⟨answer, left⟩, events', rfl, hrest⟩ := Run.question_bind_iff.mp hrun
    cases answer with
    | ok verdict =>
      cases verdict with
      | proceed => exact (ih hrest).cons
      | finish =>
        obtain ⟨rfl, rfl, rfl⟩ := Run.pure_pair_iff.mp hrest
        exact Ended.shortCircuited (List.nil_append _).symm (Proceeds.nil ctx)
    | error fault =>
      obtain ⟨undone, left', back, rfl, hunwind, hdone⟩ := Run.bind_iff.mp hrest
      obtain ⟨rfl, rfl, rfl⟩ := Run.pure_pair_iff.mp hdone
      rw [List.append_nil]
      exact Ended.failed (List.nil_append _).symm (Proceeds.nil ctx)
        (run_unwind_iff.mp hunwind)

/-- Steps that proceed are followed by the run of those behind them. -/
theorem run_append {front back : List (String × Descriptor)} {ran : List Handler}
    {ctx left : Context} {events events' : List ExchangeEvent}
    {result : Except ChainFault ChainOutcome × Context}
    (hproceeds : Proceeds (front.map fun step => step.2.handler) ctx events left)
    (hrun : Run (runSteps back ((front.map fun step => step.2.handler).reverse ++ ran) left) events'
      result) :
    Run (runSteps (front ++ back) ran ctx) (events ++ events') result := by
  induction front generalizing ran ctx events with
  | nil =>
    cases hproceeds with
    | nil => exact hrun
  | cons step rest ih =>
    obtain ⟨phase, d⟩ := step
    cases hproceeds with
    | cons hrest =>
      refine Run.ask (ih hrest ?_)
      rwa [List.map_cons, List.reverse_cons, List.append_assoc] at hrun

theorem run_runSteps_iff {steps : List (String × Descriptor)} {ran : List Handler}
    {ctx final : Context} {events : List ExchangeEvent}
    {result : Except ChainFault ChainOutcome} :
    Run (runSteps steps ran ctx) events (result, final) ↔
      Ended steps ran ctx events result final := by
  constructor
  · exact ended_of_run
  · intro hended
    cases hended with
    | completed hproceeds =>
      rw [← List.append_nil steps, ← List.append_nil events]
      exact run_append hproceeds (Run.done _)
    | shortCircuited hsplit hproceeds =>
      rw [hsplit]
      exact run_append hproceeds (Run.ask (Run.done _))
    | @failed front back phase d _ undone left faulty _ fault hsplit hproceeds hundone =>
      rw [hsplit]
      refine run_append hproceeds (Run.ask ?_)
      have hunwind := run_unwind_iff.mpr hundone
      exact (Run.bind_iff (p := unwind _ faulty)).mpr
        ⟨undone, final, [], (List.append_nil _).symm, hunwind, Run.done _⟩

/-! ## Places -/

/-- A handler at its place in a chain: the handlers ahead of it, the phase that holds it, and the
handlers behind it. -/
inductive Place (c : Chain) : List Descriptor → Phase → Descriptor → List Descriptor → Prop
  | mk {front back : List Phase} {p : Phase} {left right : List Descriptor} {d : Descriptor}
      (hphases : c.phases = front ++ p :: back) (hhandlers : p.handlers = left ++ d :: right) :
      Place c (front.flatMap Phase.handlers ++ left) p d (right ++ back.flatMap Phase.handlers)

/-- The handlers of one phase, each with the name of the phase. -/
def phaseSteps (p : Phase) : List (String × Descriptor) :=
  p.handlers.map fun d => (p.name, d)

theorem steps_eq (c : Chain) : c.steps = c.phases.flatMap phaseSteps := rfl

theorem map_snd_phaseSteps (phases : List Phase) :
    (phases.flatMap phaseSteps).map Prod.snd = phases.flatMap Phase.handlers := by
  rw [List.map_flatMap]
  congr 1
  funext p
  unfold phaseSteps
  rw [List.map_map]
  exact List.map_id p.handlers

theorem map_snd_steps (c : Chain) : c.steps.map Prod.snd = c.handlers :=
  map_snd_phaseSteps c.phases

/-- A step of some phases belongs to one of them, with the handlers of the phases before. -/
theorem exists_phase_of_split {phases : List Phase} {front back : List (String × Descriptor)}
    {phase : String} {d : Descriptor}
    (hsplit : phases.flatMap phaseSteps = front ++ (phase, d) :: back) :
    ∃ before p after left right, phases = before ++ p :: after ∧ p.handlers = left ++ d :: right ∧
      p.name = phase ∧ front = before.flatMap phaseSteps ++ left.map fun d => (p.name, d) := by
  induction phases generalizing front with
  | nil => simp at hsplit
  | cons p rest ih =>
    rw [List.flatMap_cons] at hsplit
    rcases List.append_eq_append_iff.mp hsplit with ⟨front', rfl, hrest⟩ | ⟨tail, hfront, htail⟩
    · -- The step lies behind this phase.
      obtain ⟨before, q, after, left, right, rfl, hhandlers, hname, rfl⟩ := ih hrest
      refine ⟨p :: before, q, after, left, right, rfl, hhandlers, hname, ?_⟩
      rw [List.flatMap_cons, List.append_assoc]
    · cases tail with
      | nil =>
        -- It is the first one behind this phase.
        have hrest : rest.flatMap phaseSteps = [] ++ (phase, d) :: back := htail.symm
        obtain ⟨before, q, after, left, right, rfl, hhandlers, hname, hnil⟩ := ih hrest
        refine ⟨p :: before, q, after, left, right, rfl, hhandlers, hname, ?_⟩
        rw [List.flatMap_cons, List.append_assoc, ← hnil, hfront, List.append_nil, List.append_nil]
      | cons step tail =>
        obtain ⟨rfl, -⟩ := List.cons_eq_cons.mp htail
        obtain ⟨left, behind, hhandlers, rfl, hbehind⟩ := List.map_eq_append_iff.mp hfront
        obtain ⟨d', right, rfl, hd, -⟩ := List.map_eq_cons_iff.mp hbehind
        obtain ⟨hname, rfl⟩ := Prod.mk.inj hd
        exact ⟨[], p, rest, left, right, rfl, hhandlers, hname, rfl⟩

theorem exists_place_of_split {c : Chain} {front back : List (String × Descriptor)}
    {phase : String} {d : Descriptor} (hsplit : c.steps = front ++ (phase, d) :: back) :
    ∃ p behind, Place c (front.map Prod.snd) p d behind ∧ p.name = phase := by
  obtain ⟨before, p, after, left, right, hphases, hhandlers, hname, rfl⟩ :=
    exists_phase_of_split hsplit
  refine ⟨p, right ++ after.flatMap Phase.handlers, ?_, hname⟩
  have hplace := Place.mk hphases hhandlers
  rw [List.map_append, map_snd_phaseSteps, List.map_map]
  show Place c (_ ++ left.map id) p d _
  rw [List.map_id]
  exact hplace

theorem Place.exists_split {c : Chain} {ahead behind : List Descriptor} {p : Phase}
    {d : Descriptor} (h : Place c ahead p d behind) :
    ∃ front back, c.steps = front ++ (p.name, d) :: back ∧ front.map Prod.snd = ahead := by
  cases h with
  | @mk before after _ left right _ hphases hhandlers =>
    refine ⟨before.flatMap phaseSteps ++ left.map fun d => (p.name, d),
      right.map (fun d => (p.name, d)) ++ after.flatMap phaseSteps, ?_, ?_⟩
    · rw [steps_eq, hphases, List.flatMap_append, List.flatMap_cons]
      show _ ++ (phaseSteps p ++ _) = _
      unfold phaseSteps
      rw [hhandlers]
      simp
    · rw [List.map_append, map_snd_phaseSteps, List.map_map]
      show _ ++ left.map id = _
      rw [List.map_id]

/-! ## Whole chains -/

/-- How running a message through a chain ends. -/
inductive Executed (c : Chain) (ctx : Context) :
    List ExchangeEvent → Except ChainFault ChainOutcome → Context → Prop
  /-- All handlers let the chain go on. -/
  | completed {events : List ExchangeEvent} {final : Context}
      (hproceeds : Proceeds (c.handlers.map Descriptor.handler) ctx events final) :
      Executed c ctx events (.ok .completed) final
  /-- The first handler that does not let the chain go on is done. -/
  | shortCircuited {ahead behind : List Descriptor} {p : Phase} {d : Descriptor}
      {events : List ExchangeEvent} {left final : Context} (hplace : Place c ahead p d behind)
      (hproceeds : Proceeds (ahead.map Descriptor.handler) ctx events left) :
      Executed c ctx (events ++ [⟨.invoke d.handler left, (.ok .finish, final)⟩])
        (.ok (.shortCircuited d.name)) final
  /-- The first handler that does not let the chain go on raises a fault, and those ahead of it
  undo their work backwards. -/
  | compensated {ahead behind : List Descriptor} {p : Phase} {d : Descriptor}
      {events undone : List ExchangeEvent} {left faulty final : Context} {fault : Fault}
      (hplace : Place c ahead p d behind)
      (hproceeds : Proceeds (ahead.map Descriptor.handler) ctx events left)
      (hundone : Unwound (ahead.map Descriptor.handler).reverse faulty undone final) :
      Executed c ctx (events ++ ⟨.invoke d.handler left, (.error fault, faulty)⟩ :: undone)
        (.error ⟨fault, d, p.name⟩) final

theorem map_handler_snd (steps : List (String × Descriptor)) :
    (steps.map fun step => step.2.handler) = (steps.map Prod.snd).map Descriptor.handler := by
  rw [List.map_map]
  rfl

theorem ended_iff_executed {c : Chain} {ctx final : Context} {events : List ExchangeEvent}
    {result : Except ChainFault ChainOutcome} :
    Ended c.steps [] ctx events result final ↔ Executed c ctx events result final := by
  constructor
  · intro hended
    cases hended with
    | completed hproceeds =>
      rw [map_handler_snd, map_snd_steps] at hproceeds
      exact Executed.completed hproceeds
    | shortCircuited hsplit hproceeds =>
      obtain ⟨p, behind, hplace, -⟩ := exists_place_of_split hsplit
      rw [map_handler_snd] at hproceeds
      exact Executed.shortCircuited hplace hproceeds
    | failed hsplit hproceeds hundone =>
      obtain ⟨p, behind, hplace, rfl⟩ := exists_place_of_split hsplit
      rw [map_handler_snd] at hproceeds hundone
      rw [List.append_nil] at hundone
      exact Executed.compensated hplace hproceeds hundone
  · intro hexecuted
    cases hexecuted with
    | completed hproceeds =>
      rw [← map_snd_steps, ← map_handler_snd] at hproceeds
      exact Ended.completed hproceeds
    | shortCircuited hplace hproceeds =>
      obtain ⟨front, back, hsplit, rfl⟩ := hplace.exists_split
      rw [← map_handler_snd] at hproceeds
      exact Ended.shortCircuited hsplit hproceeds
    | compensated hplace hproceeds hundone =>
      obtain ⟨front, back, hsplit, rfl⟩ := hplace.exists_split
      rw [← map_handler_snd] at hproceeds hundone
      rw [← List.append_nil (List.reverse _)] at hundone
      exact Ended.failed hsplit hproceeds hundone

/-- Running a message through a chain asks exactly this: the handlers of all phases are invoked in
order up to the first one that does not let the chain go on, and if that one raised a fault, those
ahead of it undo their work, each once and the nearest one first.  Whatever the handlers do, also
when it depends on all that happened before, there is such a run. -/
theorem execute_compensates (c : Chain) (ctx : Context) :
    (∀ events result final, Run (c.execute ctx) events (result, final) ↔
      Executed c ctx events result final) ∧
    ∀ behave : List ExchangeEvent → (q : Exchange.Question) → Exchange.Question.Answer q,
      ∃ events result final, Executed c ctx events result final ∧ Follows behave [] events := by
  have hexecuted : ∀ events result final, Run (c.execute ctx) events (result, final) ↔
      Executed c ctx events result final := by
    intro events result final
    unfold execute
    rw [run_runSteps_iff, ended_iff_executed]
  refine ⟨hexecuted, ?_⟩
  intro behave
  obtain ⟨events, ⟨result, final⟩, hrun, hfollows⟩ := exists_run behave [] (c.execute ctx)
  exact ⟨events, result, final, (hexecuted events result final).mp hrun, hfollows⟩

end Chain

end SoapPipeline
