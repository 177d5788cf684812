/-
  SoapPipeline.Proofs.Pending.Tasks

  The tasks that end asynchronous calls.

  A call that has been started is pending until somebody ends it, and who has started it
  may have gone: the task that was started with it is the only one that will certainly
  do so.  It completes the call with the result of its work, or gives the call up when
  the wait bound has passed.  Others may give calls up as well, and in between time
  passes, though never beyond the moment at which a live task has to give up.

  Calls are started where tasks can run.  Even so a call can be left without its task in
  two ways.  It is registered first, and its wait bound is computed after that: where no
  duration can hold the bound, the start ends there, and no task is ever started.  And the
  work of a task may break down, since it sends requests over transports of any make; the
  task goes and says nothing to its call.  In both cases the call stays in the table with
  its callback until somebody else gives it up, if anybody does.

  Main results:
    * `Watched.step`: with a bound that a duration can hold, a pending call keeps a task
      of its own for as long as that does not break down;
    * `attended_of_bounded`: that task will end the call, and deliver to its callback, at
      the latest when the bound has passed;
    * `exists_later`: time does pass, whatever is pending;
    * `Stranded.step`, `stranded_of_brokeDown`, `stranded_of_unbounded`: a call without a
      task stays, and both ways lead there;
    * `stranded_call`: there is a configuration with which calls are stranded.
-/
import Mathlib.Data.Finset.Max
import SoapPipeline.Tracking
import SoapPipeline.Proofs.Pending.Delivery

namespace SoapPipeline

/-! ## Calls and tasks -/

/-- A task that runs, and the moment at which it was started.  Moments are counted in
nanoseconds. -/
structure LiveTask where
  task : CallTask
  since : Nat
  deriving DecidableEq

/-- The moment at which the task gives its call up. -/
def LiveTask.due (t : LiveTask) : Nat := t.since + t.task.nanos

/-- The calls of an engine, the tasks that end them, and what callbacks have been told. -/
structure Tracker (κ : Type) where
  now : Nat
  /-- The ids that have been given out. -/
  given : List Nat
  pending : PendingCalls κ
  tasks : List LiveTask
  delivered : List (Delivery κ)

/-- What takes place among calls and tasks. -/
inductive Turn (κ : Type) where
  /-- A call is started, under a fresh id. -/
  | started (call : Nat) (message : MessageId) (callback : κ)
  /-- The work of a task ends like this, and with it the task. -/
  | finished (t : LiveTask) (result : CallResult)
  /-- A task gives its call up. -/
  | gaveUp (t : LiveTask)
  /-- The work of a task breaks down, and with it the task. -/
  | brokeDown (t : LiveTask)
  /-- Somebody else gives a call up after so many nanoseconds. -/
  | expired (call nanos : Nat)
  | elapsed (nanos : Nat)

/-- The task that ends its call. -/
def Turn.task? {κ : Type} : Turn κ → Option LiveTask
  | finished t _ => some t
  | gaveUp t => some t
  | _ => none

namespace Tracker

variable {κ : Type}

/-- No call has been started. -/
def empty : Tracker κ := ⟨0, [], .empty, [], []⟩

/-- The table changes, and what it yields is delivered. -/
def change (s : Tracker κ) (yield : PendingCalls κ × Option (Delivery κ)) : Tracker κ :=
  { s with pending := yield.1, delivered := s.delivered ++ yield.2.toList }

/-- A call is started now. -/
def start (config : Config) (s : Tracker κ) (call : Nat) (message : MessageId) (callback : κ) :
    Tracker κ :=
  let started := config.track s.pending call message callback
  { s.change (started.pending, started.delivery) with
    given := call :: s.given
    tasks := (started.task.map fun task => ⟨task, s.now⟩).toList ++ s.tasks }

/-- A task has ended. -/
def leave (s : Tracker κ) (t : LiveTask) : Tracker κ := { s with tasks := s.tasks.erase t }

/-- One thing takes place. -/
inductive Step (config : Config) : Tracker κ → Turn κ → Tracker κ → Prop
  | start {s : Tracker κ} {call : Nat} (message : MessageId) (callback : κ)
      (hfresh : call ∉ s.given) :
      Step config s (.started call message callback) (s.start config call message callback)
  | finish {s : Tracker κ} {t : LiveTask} (result : CallResult) (hlive : t ∈ s.tasks) :
      Step config s (.finished t result)
        ((s.leave t).change (s.pending.complete t.task.call result))
  | giveUp {s : Tracker κ} {t : LiveTask} (hlive : t ∈ s.tasks) (hdue : t.due ≤ s.now) :
      Step config s (.gaveUp t)
        ((s.leave t).change (s.pending.expire t.task.call t.task.nanos))
  /-- A task that breaks down leaves its call in the table. -/
  | breakDown {s : Tracker κ} {t : LiveTask} (hlive : t ∈ s.tasks) :
      Step config s (.brokeDown t) (s.leave t)
  | expire {s : Tracker κ} (call nanos : Nat) :
      Step config s (.expired call nanos) (s.change (s.pending.expire call nanos))
  /-- Time passes while no task has to give up. -/
  | elapse {s : Tracker κ} {nanos : Nat} (hpatient : ∀ t ∈ s.tasks, s.now + nanos ≤ t.due) :
      Step config s (.elapsed nanos) { s with now := s.now + nanos }

/-- Things take place one after the other. -/
inductive Steps (config : Config) : Tracker κ → List (Turn κ) → Tracker κ → Prop
  | nil {s : Tracker κ} : Steps config s [] s
  | cons {s s' s'' : Tracker κ} {turn : Turn κ} {turns : List (Turn κ)}
      (hstep : s.Step config turn s') (hrest : Steps config s' turns s'') :
      Steps config s (turn :: turns) s''

/-- What an engine of this configuration can come to. -/
def Reachable (config : Config) (s : Tracker κ) : Prop :=
  ∃ turns, Steps config empty turns s

/-- What every step of a run keeps is kept by the run. -/
theorem Steps.keeps {config : Config} {P : Tracker κ → Prop} {s s' : Tracker κ}
    {turns : List (Turn κ)} (hsteps : s.Steps config turns s')
    (hkeeps : ∀ s s', ∀ turn ∈ turns, P s → s.Step config turn s' → P s') (h : P s) : P s' := by
  induction hsteps with
  | nil => exact h
  | cons hstep _ ih =>
    have hnext := hkeeps _ _ _ List.mem_cons_self h hstep
    exact ih (fun s s' turn hturn => hkeeps s s' turn (List.mem_cons_of_mem _ hturn)) hnext

/-- A start adds one task at most, and none where no duration can hold the wait bound. -/
theorem tasks_start (config : Config) (s : Tracker κ) (call : Nat) (message : MessageId)
    (callback : κ) : (s.start config call message callback).tasks =
      (config.waitBound?.map fun bound => ⟨⟨call, bound⟩, s.now⟩).toList ++ s.tasks := by
  simp only [start, Config.track, Option.map_map]
  rfl

theorem mem_tasks_start_iff {config : Config} {s : Tracker κ} {call : Nat} {message : MessageId}
    {callback : κ} {t : LiveTask} : t ∈ (s.start config call message callback).tasks ↔
      (∃ bound, config.waitBound? = some bound ∧ t = ⟨⟨call, bound⟩, s.now⟩) ∨ t ∈ s.tasks := by
  rw [tasks_start]
  simp [eq_comm]

end Tracker

/-! ## What every step keeps -/

/-- Ids are given out once, and no task is late. -/
structure Punctual {κ : Type} (s : Tracker κ) : Prop where
  distinct : s.pending.Distinct
  given : ∀ c ∈ s.pending.calls, c.call ∈ s.given
  single : (s.tasks.map fun t => t.task.call).Nodup
  known : ∀ t ∈ s.tasks, t.task.call ∈ s.given
  timely : ∀ t ∈ s.tasks, s.now ≤ t.due

namespace Punctual

variable {κ : Type} {config : Config} {s s' : Tracker κ} {turn : Turn κ} {turns : List (Turn κ)}

theorem empty : Punctual (Tracker.empty : Tracker κ) where
  distinct := List.nodup_nil
  given := fun _ hc => absurd hc List.not_mem_nil
  single := List.nodup_nil
  known := fun _ ht => absurd ht List.not_mem_nil
  timely := fun _ ht => absurd ht List.not_mem_nil

/-- There is no harm in fewer calls and fewer tasks. -/
theorem fewer {pending : PendingCalls κ} {tasks : List LiveTask} {delivered : List (Delivery κ)}
    (h : Punctual s) (hcalls : pending.calls.Sublist s.pending.calls)
    (htasks : tasks.Sublist s.tasks) : Punctual { s with pending, tasks, delivered } where
  distinct := h.distinct.sublist (hcalls.map _)
  given := fun c hc => h.given c (hcalls.subset hc)
  single := h.single.sublist (htasks.map _)
  known := fun t ht => h.known t (htasks.subset ht)
  timely := fun t ht => h.timely t (htasks.subset ht)

theorem start {call : Nat} (message : MessageId) (callback : κ) (h : Punctual s)
    (hfresh : call ∉ s.given) : Punctual (s.start config call message callback) := by
  constructor
  case distinct =>
    let register := PendingCalls.Step.register call message callback
    show (register.apply s.pending).1.Distinct
    exact h.distinct.apply
  case given =>
    intro c hc
    rcases PendingCalls.mem_register_iff.mp hc with hold | ⟨rfl, -⟩
    · exact List.mem_cons_of_mem _ (h.given c hold)
    · exact List.mem_cons_self
  case single =>
    rw [Tracker.tasks_start]
    cases config.waitBound? with
    | none => exact h.single
    | some bound =>
      refine List.nodup_cons.mpr ⟨?_, h.single⟩
      intro hmem
      obtain ⟨t, ht, hcall⟩ := List.mem_map.mp hmem
      have hgiven : t.task.call ∈ s.given := h.known t ht
      rw [show t.task.call = call from hcall] at hgiven
      exact hfresh hgiven
  case known =>
    intro t ht
    rcases Tracker.mem_tasks_start_iff.mp ht with ⟨bound, -, rfl⟩ | hold
    · exact List.mem_cons_self
    · exact List.mem_cons_of_mem _ (h.known t hold)
  case timely =>
    intro t ht
    rcases Tracker.mem_tasks_start_iff.mp ht with ⟨bound, -, rfl⟩ | hold
    · exact Nat.le_add_right _ _
    · exact h.timely t hold

theorem step (h : Punctual s) (hstep : s.Step config turn s') : Punctual s' := by
  cases hstep with
  | start message callback hfresh => exact h.start message callback hfresh
  | finish result hlive =>
    rw [Tracker.change, PendingCalls.complete_fst]
    exact h.fewer List.filter_sublist List.erase_sublist
  | giveUp hlive hdue =>
    rw [Tracker.change, PendingCalls.expire_fst]
    exact h.fewer List.filter_sublist List.erase_sublist
  | breakDown hlive => exact h.fewer (List.Sublist.refl _) List.erase_sublist
  | expire call nanos =>
    rw [Tracker.change, PendingCalls.expire_fst]
    exact h.fewer List.filter_sublist (List.Sublist.refl _)
  | elapse hpatient => exact ⟨h.distinct, h.given, h.single, h.known, hpatient⟩

theorem steps (h : Punctual s) (hsteps : s.Steps config turns s') : Punctual s' :=
  hsteps.keeps (fun _ _ _ _ h hstep => h.step hstep) h

end Punctual

/-! ## A task for every pending call -/

/-- While the call is pending, it has a task that gives it up after so many milliseconds. -/
def Watched {κ : Type} (bound call : Nat) (s : Tracker κ) : Prop :=
  s.pending.isPending call = true → ∃ t ∈ s.tasks, t.task = ⟨call, bound⟩

namespace Watched

variable {κ : Type} {config : Config} {bound call : Nat} {s s' : Tracker κ} {turn : Turn κ}
  {turns : List (Turn κ)} {t : LiveTask}

theorem empty : Watched bound call (Tracker.empty : Tracker κ) := by
  intro hpending
  cases hpending

/-- The task of another call may go. -/
theorem leave (h : Watched bound call s) (hother : t.task.call ≠ call) :
    Watched bound call (s.leave t) := by
  intro hpending
  obtain ⟨own, hlive, htask⟩ := h hpending
  refine ⟨own, (List.mem_erase_of_ne ?_).mpr hlive, htask⟩
  rintro rfl
  rw [htask] at hother
  exact hother rfl

/-- A task may go with its own call. -/
theorem erase {delivered : List (Delivery κ)} (h : Watched bound call s) :
    Watched bound call
      { s.leave t with pending := s.pending.erase t.task.call, delivered } := by
  intro hpending
  obtain ⟨hpending, hother⟩ := PendingCalls.isPending_erase_iff.mp hpending
  exact h.leave (Ne.symm hother) hpending

/-- Every call that is started gets its task. -/
theorem start {new : Nat} (message : MessageId) (callback : κ)
    (hbound : config.waitBound? = some bound) (h : Watched bound call s) :
    Watched bound call (s.start config new message callback) := by
  intro hpending
  obtain ⟨c, hc, rfl⟩ := PendingCalls.isPending_iff.mp hpending
  rcases PendingCalls.mem_register_iff.mp hc with hold | ⟨rfl, -⟩
  · obtain ⟨t, hlive, htask⟩ := h (PendingCalls.isPending_iff.mpr ⟨c, hold, rfl⟩)
    exact ⟨t, Tracker.mem_tasks_start_iff.mpr (Or.inr hlive), htask⟩
  · exact ⟨_, Tracker.mem_tasks_start_iff.mpr (Or.inl ⟨bound, hbound, rfl⟩), rfl⟩

/-- A task leaves its call in the table only by breaking down. -/
theorem step (hbound : config.waitBound? = some bound) (h : Watched bound call s)
    (hwhole : ∀ t, turn = .brokeDown t → t.task.call ≠ call)
    (hstep : s.Step config turn s') : Watched bound call s' := by
  cases hstep with
  | start message callback hfresh => exact h.start message callback hbound
  | finish result hlive =>
    rw [Tracker.change, PendingCalls.complete_fst]
    exact h.erase
  | giveUp hlive hdue =>
    rw [Tracker.change, PendingCalls.expire_fst]
    exact h.erase
  | breakDown hlive => exact h.leave (hwhole _ rfl)
  | expire other nanos =>
    rw [Tracker.change, PendingCalls.expire_fst]
    intro hpending
    exact h (PendingCalls.isPending_erase_iff.mp hpending).1
  | elapse hpatient => exact h

theorem steps (hbound : config.waitBound? = some bound) (h : Watched bound call s)
    (hwhole : ∀ t, .brokeDown t ∈ turns → t.task.call ≠ call)
    (hsteps : s.Steps config turns s') : Watched bound call s' :=
  hsteps.keeps
    (fun _ _ _ hturn h hstep => h.step hbound (fun t heq => hwhole t (heq ▸ hturn)) hstep) h

end Watched

/-! ## What a task does for its call -/

section Attention

variable {κ : Type} {config : Config} {bound : Nat} {s s' : Tracker κ} {turn : Turn κ}
  {turns : List (Turn κ)} {c : PendingCall κ} {t : LiveTask}

/-- The task ends the call: with the result of its work as soon as there is one, and otherwise when
the wait bound has passed, unless it breaks down before that. -/
structure Attends (config : Config) (s : Tracker κ) (c : PendingCall κ) (t : LiveTask) : Prop where
  live : t ∈ s.tasks
  call : t.task.call = c.call
  bounded : config.waitBound? = some t.task.bound
  timely : s.now ≤ t.due
  completes : ∀ result, ∃ s', s.Step config (.finished t result) s'
  expires : s.now = t.due → ∃ s', s.Step config (.gaveUp t) s'
  ends : ∀ turn s', turn.task? = some t → s.Step config turn s' →
    s'.pending.isPending c.call = false ∧
      ∃ d, d.callback = c.callback ∧ s'.delivered = s.delivered ++ [d]
  prompt : ∀ turns s', s.Steps config turns s' → .brokeDown t ∉ turns → t.due < s'.now →
    s'.pending.isPending c.call = false

/-- Taking a call out of the table leaves it out. -/
theorem isPending_erase (p : PendingCalls κ) (call : Nat) :
    (p.erase call).isPending call = false := by
  rw [← Bool.not_eq_true, PendingCalls.isPending_erase_iff]
  exact fun hpending => hpending.2 rfl

/-- What the table yields is delivered behind the rest. -/
theorem Tracker.delivered_change {yield : PendingCalls κ × Option (Delivery κ)} {d : Delivery κ}
    (hyield : yield.2 = some d) : (s.change yield).delivered = s.delivered ++ [d] := by
  rw [change, hyield]
  rfl

/-- A task that ends its call takes it out of the table and delivers to the callback. -/
theorem delivered_of_end (hdistinct : s.pending.Distinct) (hc : c ∈ s.pending.calls)
    (hcall : t.task.call = c.call) (hturn : turn.task? = some t) (hstep : s.Step config turn s') :
    s'.pending.isPending c.call = false ∧
      ∃ d, d.callback = c.callback ∧ s'.delivered = s.delivered ++ [d] := by
  -- Ids are given out once, so that the table yields this call and no other.
  have hfind : s.pending.find? c.call = some c := hdistinct.find?_iff.mpr ⟨hc, rfl⟩
  cases hstep with
  | start message callback hfresh => cases hturn
  | finish result hlive =>
    obtain rfl := Option.some.inj hturn
    have hyield := (PendingCalls.complete_delivers_iff result _).mpr ⟨c, hfind, rfl⟩
    rw [hcall]
    constructor
    · rw [Tracker.change, PendingCalls.complete_fst]
      exact isPending_erase _ _
    · exact ⟨_, rfl, Tracker.delivered_change hyield⟩
  | @giveUp t' hlive hdue =>
    obtain rfl : t' = t := Option.some.inj hturn
    have hyield := (PendingCalls.expire_delivers_iff t'.task.nanos _).mpr ⟨c, hfind, rfl⟩
    rw [hcall]
    constructor
    · rw [Tracker.change, PendingCalls.expire_fst]
      exact isPending_erase _ _
    · exact ⟨_, rfl, Tracker.delivered_change hyield⟩
  | breakDown hlive => cases hturn
  | expire call nanos => cases hturn
  | elapse hpatient => cases hturn

/-- The task of a call that has been started runs for as long as the call is pending. -/
structure Minds (t : LiveTask) (s : Tracker κ) : Prop where
  given : t.task.call ∈ s.given
  runs : s.pending.isPending t.task.call = true → t ∈ s.tasks

namespace Minds

/-- Another task may go, and so may this one if its call goes with it. -/
theorem erase {other : LiveTask} {delivered : List (Delivery κ)} (h : Minds t s) :
    Minds t { s.leave other with pending := s.pending.erase other.task.call, delivered } := by
  refine ⟨h.given, fun hpending => ?_⟩
  obtain ⟨hpending, hcall⟩ := PendingCalls.isPending_erase_iff.mp hpending
  refine (List.mem_erase_of_ne ?_).mpr (h.runs hpending)
  rintro rfl
  exact hcall rfl

theorem step (h : Minds t s) (hwhole : turn ≠ .brokeDown t) (hstep : s.Step config turn s') :
    Minds t s' := by
  cases hstep with
  | @start call message callback hfresh =>
    refine ⟨List.mem_cons_of_mem _ h.given, fun hpending => ?_⟩
    obtain ⟨c, hc, hcall⟩ := PendingCalls.isPending_iff.mp hpending
    rcases PendingCalls.mem_register_iff.mp hc with hold | ⟨rfl, -⟩
    · have hlive := h.runs (PendingCalls.isPending_iff.mpr ⟨c, hold, hcall⟩)
      exact Tracker.mem_tasks_start_iff.mpr (Or.inr hlive)
    · -- The id of a call that is started now has not been given out before.
      rw [show call = t.task.call from hcall] at hfresh
      exact absurd h.given hfresh
  | finish result hlive =>
    rw [Tracker.change, PendingCalls.complete_fst]
    exact h.erase
  | giveUp hlive hdue =>
    rw [Tracker.change, PendingCalls.expire_fst]
    exact h.erase
  | breakDown hlive =>
    refine ⟨h.given, fun hpending => (List.mem_erase_of_ne ?_).mpr (h.runs hpending)⟩
    rintro rfl
    exact hwhole rfl
  | expire call nanos =>
    rw [Tracker.change, PendingCalls.expire_fst]
    exact ⟨h.given, fun hpending => h.runs (PendingCalls.isPending_erase_iff.mp hpending).1⟩
  | elapse hpatient => exact ⟨h.given, h.runs⟩

theorem steps (h : Minds t s) (hwhole : .brokeDown t ∉ turns)
    (hsteps : s.Steps config turns s') : Minds t s' :=
  hsteps.keeps (fun _ _ _ hturn h hstep => h.step (fun heq => hwhole (heq ▸ hturn)) hstep) h

end Minds

/-- No call stays pending after the moment at which its task gives up, unless that has broken
down. -/
theorem Punctual.prompt (h : Punctual s) (hlive : t ∈ s.tasks) (hsteps : s.Steps config turns s')
    (hwhole : .brokeDown t ∉ turns) (hlate : t.due < s'.now) :
    s'.pending.isPending t.task.call = false := by
  have hminds : Minds t s := ⟨h.known t hlive, fun _ => hlive⟩
  rw [← Bool.not_eq_true]
  intro hpending
  -- The task would still run, and no task that runs is late.
  have hlive' := (hminds.steps hwhole hsteps).runs hpending
  have htimely := (h.steps hsteps).timely t hlive'
  omega

/-- Where a pending call has a task, that task ends it. -/
theorem Punctual.exists_attends (hbound : config.waitBound? = some bound) (h : Punctual s)
    (hwatched : Watched bound c.call s) (hc : c ∈ s.pending.calls) :
    ∃ t, Attends config s c t := by
  obtain ⟨t, hlive, htask⟩ := hwatched (PendingCalls.isPending_iff.mpr ⟨c, hc, rfl⟩)
  have hcall : t.task.call = c.call := by rw [htask]
  refine ⟨t, ?_⟩
  constructor
  case live => exact hlive
  case call => exact hcall
  case bounded => rw [htask, hbound]
  case timely => exact h.timely t hlive
  case completes => exact fun result => ⟨_, .finish result hlive⟩
  case expires => exact fun hdue => ⟨_, .giveUp hlive hdue.ge⟩
  case ends => exact fun turn s' hturn hstep => delivered_of_end h.distinct hc hcall hturn hstep
  case prompt =>
    exact fun turns s' hsteps hwhole hlate => hcall ▸ h.prompt hlive hsteps hwhole hlate

/-- Where a duration can hold the wait bound of the configuration, every pending call whose task
has not broken down has a live task, which will complete it or give it up, and tell its callback, at
the latest when the bound has passed. -/
theorem attended_of_bounded (hbound : config.waitBound? = some bound)
    (hsteps : Tracker.empty.Steps config turns s)
    (hwhole : ∀ t, .brokeDown t ∈ turns → t.task.call ≠ c.call) (hc : c ∈ s.pending.calls) :
    ∃ t, Attends config s c t :=
  (Punctual.empty.steps hsteps).exists_attends hbound
    (Watched.empty.steps hbound hwhole hsteps) hc

/-- With the standard configuration the first of two calls is attended to, although the task of the
second one has broken down since. -/
theorem standard_attended :
    ∃ turns, ∃ s : Tracker String, Tracker.empty.Steps Config.standard turns s ∧
      .brokeDown ⟨⟨1, 10000⟩, 0⟩ ∈ turns ∧
      s.pending.calls = [⟨0, default, "first"⟩, ⟨1, default, "second"⟩] ∧
      ∃ t, Attends Config.standard s ⟨0, default, "first"⟩ t := by
  let first : Tracker String := Tracker.empty.start Config.standard 0 default "first"
  let second := first.start Config.standard 1 default "second"
  let turns : List (Turn String) := [.started 0 default "first", .started 1 default "second",
    .brokeDown ⟨⟨1, 10000⟩, 0⟩, .elapsed 5]
  have hsteps : Tracker.empty.Steps Config.standard turns
      { second.leave ⟨⟨1, 10000⟩, 0⟩ with now := 5 } := by
    refine .cons (.start default "first" List.not_mem_nil) ?_
    refine .cons (.start default "second" (by decide)) ?_
    refine .cons (.breakDown (by decide)) ?_
    exact .cons (.elapse (by decide)) .nil
  have hwhole : ∀ t, .brokeDown t ∈ turns → t.task.call ≠ 0 := by
    intro t ht
    obtain rfl : t = ⟨⟨1, 10000⟩, 0⟩ := by simpa [turns] using ht
    decide
  have hbound : Config.standard.waitBound? = some 10000 := by decide
  exact ⟨turns, _, hsteps, by simp [turns], rfl,
    attended_of_bounded hbound hsteps hwhole List.mem_cons_self⟩

end Attention

/-! ## Time -/

section Time

variable {κ : Type} {config : Config} {s : Tracker κ} {moment : Nat}

/-- Time passes up to a moment at which no task is late. -/
theorem Tracker.Step.until (hlater : s.now ≤ moment) (hpatient : ∀ t ∈ s.tasks, moment ≤ t.due) :
    s.Step config (.elapsed (moment - s.now)) { s with now := moment } := by
  have hmoment : s.now + (moment - s.now) = moment := by omega
  have hstep : s.Step config (.elapsed (moment - s.now))
      { s with now := s.now + (moment - s.now) } := by
    refine .elapse fun t ht => ?_
    rw [hmoment]
    exact hpatient t ht
  rwa [hmoment] at hstep

/-- While no task is late, every later moment comes, if only because those whose calls are due give
them up.  No task has to break down for that. -/
theorem exists_later (config : Config) (htimely : ∀ t ∈ s.tasks, s.now ≤ t.due)
    (hlater : s.now ≤ moment) :
    ∃ turns s', s.Steps config turns s' ∧ (∀ t, .brokeDown t ∉ turns) ∧ s'.now = moment := by
  -- The induction is on the tasks that are left; the one that is due first gives up first.
  induction hcount : s.tasks.length generalizing s with
  | zero =>
    have hnone : s.tasks = [] := List.eq_nil_of_length_eq_zero hcount
    refine ⟨_, _, .cons (.until hlater ?_) .nil, ?_, rfl⟩
    · simp [hnone]
    · simp
  | succ n ih =>
    by_cases hpatient : ∀ t ∈ s.tasks, moment ≤ t.due
    · exact ⟨_, _, .cons (.until hlater hpatient) .nil, by simp, rfl⟩
    · -- Time passes until the first of those that are due earlier, and it gives up then.
      obtain ⟨late, hlate, hbefore⟩ : ∃ t ∈ s.tasks, t.due < moment := by
        simpa using hpatient
      obtain ⟨t, ht, hfirst⟩ :=
        s.tasks.toFinset.exists_min_image LiveTask.due ⟨late, List.mem_toFinset.mpr hlate⟩
      have hlive : t ∈ s.tasks := List.mem_toFinset.mp ht
      have hfirst : ∀ other ∈ s.tasks, t.due ≤ other.due := fun other hother =>
        hfirst other (List.mem_toFinset.mpr hother)
      let due : Tracker κ := { s with now := t.due }
      have hwait : s.Step config (.elapsed (t.due - s.now)) due :=
        .until (htimely t hlive) hfirst
      have hgiveUp : due.Step config (.gaveUp t)
          ((due.leave t).change (due.pending.expire t.task.call t.task.nanos)) :=
        .giveUp hlive (Nat.le_refl _)
      obtain ⟨turns, s', hsteps, hwhole, hmoment⟩ := ih
        (s := (due.leave t).change (due.pending.expire t.task.call t.task.nanos))
        (fun other hother => hfirst other (List.mem_of_mem_erase hother))
        (Nat.le_trans (hfirst late hlate) (Nat.le_of_lt hbefore))
        (by
          show (s.tasks.erase t).length = n
          rw [List.length_erase_of_mem hlive, hcount]
          rfl)
      exact ⟨_, s', .cons hwait (.cons hgiveUp hsteps), by simpa using hwhole, hmoment⟩

end Time

/-! ## Calls without tasks -/

section Stranded

variable {κ : Type} {config : Config} {s s' : Tracker κ} {turn : Turn κ} {turns : List (Turn κ)}
  {c : PendingCall κ} {t : LiveTask}

/-- The call is in the table, and no task runs for it. -/
structure Stranded (c : PendingCall κ) (s : Tracker κ) : Prop where
  pending : c ∈ s.pending.calls
  given : c.call ∈ s.given
  alone : ∀ t ∈ s.tasks, t.task.call ≠ c.call

/-- Another call ends with its task. -/
theorem Stranded.erase {delivered : List (Delivery κ)} (h : Stranded c s) (hlive : t ∈ s.tasks) :
    Stranded c { s.leave t with pending := s.pending.erase t.task.call, delivered } where
  pending := PendingCalls.mem_erase_iff.mpr ⟨h.pending, (h.alone t hlive).symm⟩
  given := h.given
  alone := fun other hother => h.alone other (List.mem_of_mem_erase hother)

/-- Nothing ends a call without a task but somebody else who gives it up. -/
theorem Stranded.step (h : Stranded c s) (hkept : ∀ nanos, turn ≠ .expired c.call nanos)
    (hstep : s.Step config turn s') : Stranded c s' := by
  cases hstep with
  | @start call message callback hfresh =>
    refine ⟨?_, List.mem_cons_of_mem _ h.given, ?_⟩
    · exact PendingCalls.mem_register_iff.mpr (Or.inl h.pending)
    · intro t ht
      rcases Tracker.mem_tasks_start_iff.mp ht with ⟨bound, -, rfl⟩ | hold
      · rintro rfl
        exact hfresh h.given
      · exact h.alone t hold
  | finish result hlive =>
    rw [Tracker.change, PendingCalls.complete_fst]
    exact h.erase hlive
  | giveUp hlive hdue =>
    rw [Tracker.change, PendingCalls.expire_fst]
    exact h.erase hlive
  | breakDown hlive =>
    exact ⟨h.pending, h.given, fun t ht => h.alone t (List.mem_of_mem_erase ht)⟩
  | expire call nanos =>
    rw [Tracker.change, PendingCalls.expire_fst]
    refine ⟨PendingCalls.mem_erase_iff.mpr ⟨h.pending, ?_⟩, h.given, h.alone⟩
    rintro rfl
    exact hkept nanos rfl
  | elapse hpatient => exact ⟨h.pending, h.given, h.alone⟩

theorem Stranded.steps (h : Stranded c s) (hkept : ∀ nanos, .expired c.call nanos ∉ turns)
    (hsteps : s.Steps config turns s') : Stranded c s' :=
  hsteps.keeps
    (fun _ _ _ hturn h hstep => h.step (fun nanos heq => hkept nanos (heq ▸ hturn)) hstep) h

/-- A task that breaks down leaves its call without one. -/
theorem stranded_of_brokeDown (h : Punctual s) (hc : c ∈ s.pending.calls)
    (hcall : t.task.call = c.call) (hstep : s.Step config (.brokeDown t) s') : Stranded c s' := by
  cases hstep with
  | breakDown hlive =>
    refine ⟨hc, h.given c hc, fun other hother heq => ?_⟩
    -- There is one task for every id, so that another one for this call would be the same.
    have hsame : other = t := List.inj_on_of_nodup_map h.single (List.mem_of_mem_erase hother)
      hlive (heq.trans hcall.symm)
    rw [hsame] at hother
    exact (List.Nodup.of_map _ h.single).not_mem_erase hother

/-- Where no duration can hold the wait bound, every call is left without a task as soon as it is
started. -/
theorem stranded_of_unbounded {call : Nat} (message : MessageId) (callback : κ)
    (hunbounded : config.waitBound? = none) (h : Punctual s) (hfresh : call ∉ s.given) :
    Stranded ⟨call, message, callback⟩ (s.start config call message callback) := by
  have hfree : s.pending.isPending call = false := by
    rw [← Bool.not_eq_true, PendingCalls.isPending_iff]
    rintro ⟨c, hc, rfl⟩
    exact hfresh (h.given c hc)
  refine ⟨PendingCalls.mem_register_iff.mpr (Or.inr ⟨rfl, hfree⟩), List.mem_cons_self, ?_⟩
  intro t ht
  rcases Tracker.mem_tasks_start_iff.mp ht with ⟨bound, hbound, -⟩ | hold
  · rw [hunbounded] at hbound
    cases hbound
  · rintro rfl
    exact hfresh (h.known t hold)

/-- A configuration with the longest interval and 1001 checks can be read, and a call that is
started with it stays in the table with its callback and has no task. -/
theorem stranded_call : ¬ ∀ (text : String) (config : Config), Config.parse? text = some config →
    ∀ s : Tracker String, s.Reachable config →
      ∀ c ∈ s.pending.calls, ∃ t, Attends config s c t := by
  intro hall
  -- The interval is the longest one that can be read.  A thousand and one of them have more
  -- seconds than a duration can hold.
  let config : Config :=
    { Config.standard with pollInterval := 18446744073709551615, maxChecks := 1001 }
  have hread : Config.parse? ("\x7b\"async_poll_interval_ms\":18446744073709551615," ++
      "\"async_max_checks\":1001\x7d") = some config := by decide +kernel
  have hreachable : (Tracker.empty.start config 0 default "reply").Reachable config :=
    ⟨_, .cons (.start default "reply" List.not_mem_nil) .nil⟩
  have hunbounded : config.waitBound? = none := by decide
  have hstranded := stranded_of_unbounded default "reply" hunbounded Punctual.empty
    (List.not_mem_nil (a := 0))
  obtain ⟨t, hattends⟩ := hall _ config hread _ hreachable _ hstranded.pending
  exact hstranded.alone t hattends.live hattends.call

end Stranded

end SoapPipeline
