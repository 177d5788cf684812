/-
  SoapPipeline.Proofs.Pending.Agreement

  What a waiter and the callback learn of one call.

  The work of a call, its watchdog, its waiter, and whoever gives the call up for the
  waiter, go their own ways and meet at the table of pending calls.  Whoever takes a
  call out of the table tells its callback, and after that sends the status down the
  line on which the waiter listens.  All of this takes place in steps, and anything
  may happen between any two of them.

  The line has one sender, which stands in the table with the call and goes with the
  call when that is taken out.  A receiver gets what was sent, and learns that nobody
  can send any more only when the sender is gone and has sent nothing.

  Main results:
    * `Orderly.step`: every call that is tracked is in one place, and what is on its
      way to its waiter was told to its callback;
    * `Awaiting.step`: how far a waiter has come;
    * `waiter_agrees_with_callback`: when a waiter answers, the callback has been told
      the same, once.
-/
import SoapPipeline.Config
import SoapPipeline.Proofs.Pending.Delivery

namespace SoapPipeline

open Program
open scoped List

/-! ## What happens to calls -/

/-- What happens to the calls of an engine. -/
inductive Happening (κ : Type) where
  /-- The call is registered under a fresh id, and its work and its watchdog start. -/
  | tracked (call : Nat) (callback : κ)
  /-- The work of the call has ended like this, perhaps too late. -/
  | finished (call : Nat) (result : CallResult)
  /-- Somebody gives the call up after so many nanoseconds, perhaps too late. -/
  | expired (call : Nat) (nanos : Nat)
  /-- The callback of the call is told how it ended. -/
  | told (call : Nat) (callback : κ) (result : CallResult)

/-- How far the end of a call has come, once the call has been taken out of the table. -/
inductive Ending (κ : Type) where
  /-- The callback is to be told. -/
  | taken (d : Delivery κ)
  /-- The callback has been told, and the status is to be sent. -/
  | told (status : CallStatus)
  | sent (status : CallStatus)

/-- One who waits for a call, and what is left of the wait. -/
structure Waiter where
  call : Nat
  rest : Await (Except CallError CallStatus)

/-- The calls of an engine with those who are concerned with them. -/
structure Switchboard (κ : Type) where
  /-- The ids that have been given out. -/
  tracked : List Nat
  pending : PendingCalls κ
  endings : List (Nat × Ending κ)
  /-- What waiters have asked for: the call is to be given up, after so many nanoseconds. -/
  expiries : List (Nat × Nat)
  waiters : List Waiter

/-- The nanoseconds that a call may stay unanswered. -/
def Config.waitNanos (c : Config) : Nat := c.pollInterval * nanosPerMilli * c.maxChecks

/-- The watchdog of a call is as patient as its waiter. -/
theorem Config.nanos_of_waitBound? {c : Config} {bound : Nat} (h : c.waitBound? = some bound) :
    bound * nanosPerMilli = c.waitNanos := by
  unfold waitBound? at h
  dsimp only at h
  split at h
  · obtain rfl := Option.some.inj h
    unfold waitNanos
    exact Nat.mul_right_comm _ _ _
  · cases h

namespace Switchboard

variable {κ : Type}

def empty : Switchboard κ := ⟨[], .empty, [], [], []⟩

/-- The table changes, and what it yields for a call is in the hands of who changed it. -/
def change (s : Switchboard κ) (call : Nat) (yield : PendingCalls κ × Option (Delivery κ)) :
    Switchboard κ :=
  { s with
    pending := yield.1
    endings := (yield.2.map fun d => (call, Ending.taken d)).toList ++ s.endings }

/-- What there is to be heard on the line of a call. -/
inductive Hears (s : Switchboard κ) (call : Nat) : Tidings → Prop
  | sent {status : CallStatus} (hsent : (call, .sent status) ∈ s.endings) :
      Hears s call (.status status)
  /-- The sender is neither in the table nor in anybody's hands, and nothing was sent. -/
  | lost (hpending : s.pending.isPending call = false)
      (hended : ∀ ending, (call, ending) ∉ s.endings) : Hears s call .lost

end Switchboard

/-- A waiter asks for one thing.  That it hears nothing for a while may happen at any time. -/
inductive Waiter.Step {κ : Type} (s : Switchboard κ) : Waiter → List (Nat × Nat) → Waiter → Prop
  | heard {call nanos : Nat} {tidings : Tidings}
      {next : Option Tidings → Await (Except CallError CallStatus)}
      (hhears : s.Hears call tidings) :
      Step s ⟨call, .ask (.listen nanos) next⟩ [] ⟨call, next (some tidings)⟩
  | elapsed {call nanos : Nat} {next : Option Tidings → Await (Except CallError CallStatus)} :
      Step s ⟨call, .ask (.listen nanos) next⟩ [] ⟨call, next none⟩
  | expire {call nanos : Nat} {next : Unit → Await (Except CallError CallStatus)} :
      Step s ⟨call, .ask (.expire nanos) next⟩ [(call, nanos)] ⟨call, next ()⟩
  | receive {call : Nat} {tidings : Tidings}
      {next : Tidings → Await (Except CallError CallStatus)} (hhears : s.Hears call tidings) :
      Step s ⟨call, .ask .receive next⟩ [] ⟨call, next tidings⟩

namespace Switchboard

variable {κ : Type}

/-- One thing happens. -/
inductive Step (config : Config) : Switchboard κ → List (Happening κ) → Switchboard κ → Prop
  /-- A call is registered under a fresh id; its bound is one that a duration can hold. -/
  | track {s : Switchboard κ} {call bound : Nat} {message : MessageId} {callback : κ}
      (hfresh : call ∉ s.tracked) (hbound : config.waitBound? = some bound) :
      Step config s [.tracked call callback]
        { s.change call (s.pending.register call message callback) with
          tracked := call :: s.tracked
          waiters :=
            ⟨call, Await.wait (config.pollInterval * nanosPerMilli) config.maxChecks⟩ ::
              s.waiters }
  | finish {s : Switchboard κ} {call : Nat} (result : CallResult) :
      Step config s [.finished call result] (s.change call (s.pending.complete call result))
  | watchdog {s : Switchboard κ} {call bound : Nat} (hbound : config.waitBound? = some bound) :
      Step config s [.expired call (bound * nanosPerMilli)]
        (s.change call (s.pending.expire call (bound * nanosPerMilli)))
  /-- A call is given up for its waiter. -/
  | expire {s : Switchboard κ} {front back : List (Nat × Nat)} {call nanos : Nat}
      (hsplit : s.expiries = front ++ (call, nanos) :: back) :
      Step config s [.expired call nanos]
        { s.change call (s.pending.expire call nanos) with expiries := front ++ back }
  | tell {s : Switchboard κ} {front back : List (Nat × Ending κ)} {call : Nat} {d : Delivery κ}
      (hsplit : s.endings = front ++ (call, .taken d) :: back) :
      Step config s [.told call d.callback d.result]
        { s with endings := front ++ (call, .told d.status) :: back }
  | send {s : Switchboard κ} {front back : List (Nat × Ending κ)} {call : Nat}
      {status : CallStatus} (hsplit : s.endings = front ++ (call, .told status) :: back) :
      Step config s [] { s with endings := front ++ (call, .sent status) :: back }
  | wait {s : Switchboard κ} {front back : List Waiter} {w w' : Waiter} {asked : List (Nat × Nat)}
      (hsplit : s.waiters = front ++ w :: back) (hstep : w.Step s asked w') :
      Step config s []
        { s with expiries := asked ++ s.expiries, waiters := front ++ w' :: back }
  /-- The handle of a call is dropped, and nobody waits for it any more. -/
  | forget {s : Switchboard κ} {front back : List Waiter} {w : Waiter}
      (hsplit : s.waiters = front ++ w :: back) :
      Step config s [] { s with waiters := front ++ back }

/-- What can have happened to the calls of an engine. -/
inductive History (config : Config) : List (Happening κ) → Switchboard κ → Prop
  | new : History config [] empty
  | step {past now : List (Happening κ)} {s s' : Switchboard κ} (h : History config past s)
      (hstep : s.Step config now s') : History config (past ++ now) s'

end Switchboard

/-! ## What callbacks are told -/

/-- What was told of a call, and to which callbacks. -/
def tellings {κ : Type} (call : Nat) (past : List (Happening κ)) : List (κ × CallResult) :=
  past.filterMap fun
    | .told call' callback result => if call' = call then some (callback, result) else none
    | _ => none

/-- A result is owed to the callback of a call, and a status to its waiter. -/
inductive Owed {κ : Type} (config : Config) (past : List (Happening κ)) (call : Nat) :
    CallResult → CallStatus → Prop
  | completed {response : Context} (hfinished : .finished call (.ok response) ∈ past) :
      Owed config past call (.ok response) .completed
  | failed {error : CallError} (hfinished : .finished call (.error error) ∈ past) :
      Owed config past call (.error error) .failed
  | timedOut (hexpired : .expired call config.waitNanos ∈ past) :
      Owed config past call (.error (.timeoutAfter config.waitNanos)) .timedOut

/-- The callback of the call was told once, and what goes with the status. -/
def Told {κ : Type} (config : Config) (past : List (Happening κ)) (call : Nat)
    (status : CallStatus) : Prop :=
  ∃ callback result, .tracked call callback ∈ past ∧ tellings call past = [(callback, result)] ∧
    Owed config past call result status

/-- Nothing is on its way to a waiter that its callback was not told. -/
def Ending.Faithful {κ : Type} (config : Config) (past : List (Happening κ)) (call : Nat) :
    Ending κ → Prop
  | .taken d =>
    .tracked call d.callback ∈ past ∧ tellings call past = [] ∧
      Owed config past call d.result d.status
  | .told status => Told config past call status
  | .sent status => Told config past call status

section Tellings

variable {κ : Type} {config : Config} {past now : List (Happening κ)} {call : Nat}
  {result : CallResult} {status : CallStatus}

theorem tellings_append :
    tellings call (past ++ now) = tellings call past ++ tellings call now :=
  List.filterMap_append

/-- What tells nobody of the call adds nothing. -/
theorem tellings_append_quiet (hquiet : tellings call now = []) :
    tellings call (past ++ now) = tellings call past := by
  rw [tellings_append, hquiet, List.append_nil]

theorem tellings_told_of_ne {other : Nat} {callback : κ} (hne : other ≠ call) :
    tellings call [.told other callback result] = [] := by
  simp [tellings, hne]

theorem tellings_told {callback : κ} :
    tellings call [.told call callback result] = [(callback, result)] := by
  simp [tellings]

theorem Owed.append (h : Owed config past call result status) :
    Owed config (past ++ now) call result status := by
  cases h with
  | completed hfinished => exact .completed (List.mem_append_left _ hfinished)
  | failed hfinished => exact .failed (List.mem_append_left _ hfinished)
  | timedOut hexpired => exact .timedOut (List.mem_append_left _ hexpired)

theorem Told.append (h : Told config past call status) (hquiet : tellings call now = []) :
    Told config (past ++ now) call status := by
  obtain ⟨callback, result, htracked, htold, howed⟩ := h
  refine ⟨callback, result, List.mem_append_left _ htracked, ?_, howed.append⟩
  rw [tellings_append_quiet hquiet, htold]

theorem Ending.Faithful.append {ending : Ending κ} (h : ending.Faithful config past call)
    (hquiet : tellings call now = []) : ending.Faithful config (past ++ now) call := by
  cases ending with
  | taken d =>
    obtain ⟨htracked, huntold, howed⟩ := h
    refine ⟨List.mem_append_left _ htracked, ?_, howed.append⟩
    rw [tellings_append_quiet hquiet, huntold]
  | told status => exact Told.append h hquiet
  | sent status => exact Told.append h hquiet

end Tellings

/-! ## Calls in one place -/

/-- Every call that is tracked is in one place, and what is on its way to its waiter was told to
its callback. -/
structure Orderly {κ : Type} (config : Config) (past : List (Happening κ)) (s : Switchboard κ) :
    Prop where
  distinct : s.tracked.Nodup
  places : s.tracked ~ s.pending.calls.map PendingCall.call ++ s.endings.map Prod.fst
  fresh : ∀ call, call ∉ s.tracked → tellings call past = []
  pending : ∀ c ∈ s.pending.calls, .tracked c.call c.callback ∈ past ∧ tellings c.call past = []
  endings : ∀ call ending, (call, ending) ∈ s.endings → ending.Faithful config past call
  expiries : ∀ call nanos, (call, nanos) ∈ s.expiries → nanos = config.waitNanos

namespace Orderly

variable {κ : Type} {config : Config} {past now : List (Happening κ)} {s s' : Switchboard κ}
  {call : Nat} {c : PendingCall κ} {d : Delivery κ} {result : CallResult}

theorem empty : Orderly config [] (Switchboard.empty : Switchboard κ) where
  distinct := List.nodup_nil
  places := List.Perm.refl _
  fresh := fun _ _ => rfl
  pending := fun _ hc => absurd hc List.not_mem_nil
  endings := fun _ _ he => absurd he List.not_mem_nil
  expiries := fun _ _ he => absurd he List.not_mem_nil

theorem nodup_places (h : Orderly config past s) :
    (s.pending.calls.map PendingCall.call ++ s.endings.map Prod.fst).Nodup :=
  h.places.nodup_iff.mp h.distinct

theorem distinct_pending (h : Orderly config past s) : s.pending.Distinct :=
  (List.nodup_append.mp h.nodup_places).1

theorem mem_tracked_iff (h : Orderly config past s) :
    call ∈ s.tracked ↔ s.pending.isPending call = true ∨ ∃ ending, (call, ending) ∈ s.endings := by
  rw [h.places.mem_iff, List.mem_append, PendingCalls.isPending_iff]
  simp only [List.mem_map, Prod.exists, exists_and_right, exists_eq_right]

/-- Things may happen that tell nobody anything. -/
theorem append (h : Orderly config past s) (hquiet : ∀ call, tellings call now = []) :
    Orderly config (past ++ now) s where
  distinct := h.distinct
  places := h.places
  fresh := fun call hcall => by rw [tellings_append_quiet (hquiet call), h.fresh call hcall]
  pending := fun c hc => by
    obtain ⟨htracked, huntold⟩ := h.pending c hc
    refine ⟨List.mem_append_left _ htracked, ?_⟩
    rw [tellings_append_quiet (hquiet c.call), huntold]
  endings := fun call ending he => (h.endings call ending he).append (hquiet call)
  expiries := h.expiries

/-- A pending call is taken out of the table with what it is owed. -/
theorem take (h : Orderly config past s) (hfind : s.pending.find? call = some c)
    (hcallback : d.callback = c.callback) (howed : Owed config past call d.result d.status) :
    Orderly config past (s.change call (s.pending.erase call, some d)) := by
  have hperm := h.distinct_pending.perm_calls hfind
  obtain ⟨hc, rfl⟩ := h.distinct_pending.find?_iff.mp hfind
  obtain ⟨htracked, huntold⟩ := h.pending c hc
  refine ⟨h.distinct, ?_, h.fresh, ?_, ?_, h.expiries⟩
  · -- The id moves from the table to the endings.
    calc s.tracked
      _ ~ s.pending.calls.map PendingCall.call ++ s.endings.map Prod.fst := h.places
      _ ~ (c :: (s.pending.erase c.call).calls).map PendingCall.call ++
            s.endings.map Prod.fst := (hperm.map _).append_right _
      _ ~ (s.pending.erase c.call).calls.map PendingCall.call ++
            c.call :: s.endings.map Prod.fst := List.perm_middle.symm
  · intro other hother
    exact h.pending other (PendingCalls.mem_erase_iff.mp hother).1
  · intro call ending he
    rcases List.mem_cons.mp he with heq | he
    · obtain ⟨rfl, rfl⟩ := Prod.mk.inj heq
      exact ⟨hcallback ▸ htracked, huntold, howed⟩
    · exact h.endings call ending he

theorem finish (h : Orderly config past s) :
    Orderly config (past ++ [.finished call result])
      (s.change call (s.pending.complete call result)) := by
  have happended : Orderly config (past ++ [.finished call result]) s := h.append fun _ => rfl
  unfold PendingCalls.complete
  cases hfind : s.pending.find? call with
  | none => exact happended
  | some c =>
    refine happended.take hfind rfl ?_
    have hmem : .finished call result ∈ past ++ [.finished call result] := by simp
    cases result with
    | ok response => exact .completed hmem
    | error error => exact .failed hmem

theorem expire (h : Orderly config past s) :
    Orderly config (past ++ [.expired call config.waitNanos])
      (s.change call (s.pending.expire call config.waitNanos)) := by
  have happended : Orderly config (past ++ [.expired call config.waitNanos]) s :=
    h.append fun _ => rfl
  unfold PendingCalls.expire
  cases hfind : s.pending.find? call with
  | none => exact happended
  | some c =>
    refine happended.take hfind rfl (.timedOut ?_)
    simp

/-- A fresh id is not pending, so that its registration opens a call. -/
theorem track {callback : κ} {message : MessageId} {waiters : List Waiter}
    (h : Orderly config past s) (hfresh : call ∉ s.tracked) :
    Orderly config (past ++ [.tracked call callback])
      { s.change call (s.pending.register call message callback) with
        tracked := call :: s.tracked, waiters } := by
  have happended : Orderly config (past ++ [.tracked call callback]) s := h.append fun _ => rfl
  have hfree : s.pending.isPending call = false := by
    rw [← Bool.not_eq_true]
    exact fun hpending => hfresh (h.mem_tracked_iff.mpr (Or.inl hpending))
  rw [PendingCalls.register_of_free message callback hfree]
  refine ⟨List.nodup_cons.mpr ⟨hfresh, h.distinct⟩, ?_, ?_, ?_, happended.endings, h.expiries⟩
  · let opened : PendingCall κ := ⟨call, message, callback⟩
    show call :: s.tracked ~
      (s.pending.calls ++ [opened]).map PendingCall.call ++ s.endings.map Prod.fst
    rw [List.map_append, List.append_assoc]
    exact (h.places.cons call).trans List.perm_middle.symm
  · intro other hother
    exact happended.fresh other fun hmem => hother (List.mem_cons_of_mem _ hmem)
  · intro c hc
    rcases List.mem_append.mp hc with hold | hnew
    · exact happended.pending c hold
    · obtain rfl := List.mem_singleton.mp hnew
      exact ⟨by simp, happended.fresh call hfresh⟩

section Ending

variable {front back : List (Nat × Ending κ)} {ending ending' : Ending κ}

theorem perm_endings (h : Orderly config past s)
    (hsplit : s.endings = front ++ (call, ending) :: back) :
    s.tracked ~
      call :: (s.pending.calls.map PendingCall.call ++ (front ++ back).map Prod.fst) := by
  refine h.places.trans ?_
  rw [hsplit, List.map_append, List.map_cons, List.map_append, ← List.append_assoc,
    ← List.append_assoc]
  exact List.perm_middle

/-- The end of a call goes one step further, and others hear of it only what concerns that call. -/
theorem advance (h : Orderly config past s) (hsplit : s.endings = front ++ (call, ending) :: back)
    (hquiet : ∀ other, other ≠ call → tellings other now = [])
    (hfaithful : ending'.Faithful config (past ++ now) call) :
    Orderly config (past ++ now) { s with endings := front ++ (call, ending') :: back } := by
  have hnodup := (h.perm_endings hsplit).nodup_iff.mp h.distinct
  obtain ⟨halone, -⟩ := List.nodup_cons.mp hnodup
  simp only [List.mem_append, List.mem_map, not_or, not_exists, not_and] at halone
  obtain ⟨hpending, hothers⟩ := halone
  have htracked : call ∈ s.tracked := (h.perm_endings hsplit).mem_iff.mpr List.mem_cons_self
  have huntold : ∀ other, other ≠ call →
      tellings other (past ++ now) = tellings other past :=
    fun other hne => tellings_append_quiet (hquiet other hne)
  -- Ids stay where they are, and others are told nothing: this call alone has a new promise.
  refine ⟨h.distinct, ?_, ?_, ?_, ?_, h.expiries⟩
  · have hplaces := h.places
    rw [hsplit, List.map_append, List.map_cons] at hplaces
    show s.tracked ~ _ ++ (front ++ (call, ending') :: back).map Prod.fst
    rw [List.map_append, List.map_cons]
    exact hplaces
  · intro other hother
    rw [huntold other fun heq => hother (heq ▸ htracked)]
    exact h.fresh other hother
  · intro c hc
    obtain ⟨hregistered, hnothing⟩ := h.pending c hc
    refine ⟨List.mem_append_left _ hregistered, ?_⟩
    rw [huntold c.call (hpending c hc)]
    exact hnothing
  · intro other e he
    rcases mem_cut_iff.mp he with heq | hold
    · obtain ⟨rfl, rfl⟩ := Prod.mk.inj heq
      exact hfaithful
    · have hne : other ≠ call := hothers (other, e) (List.mem_append.mp hold)
      have hmem : (other, e) ∈ s.endings := mem_of_cut hsplit hold
      exact (h.endings other e hmem).append (hquiet other hne)

theorem tell (h : Orderly config past s)
    (hsplit : s.endings = front ++ (call, .taken d) :: back) :
    Orderly config (past ++ [.told call d.callback d.result])
      { s with endings := front ++ (call, .told d.status) :: back } := by
  have hmem : (call, .taken d) ∈ s.endings := by simp [hsplit]
  obtain ⟨htracked, huntold, howed⟩ := h.endings call _ hmem
  apply h.advance hsplit
  · intro other hne
    exact tellings_told_of_ne hne.symm
  · refine ⟨d.callback, d.result, List.mem_append_left _ htracked, ?_, howed.append⟩
    rw [tellings_append, huntold, tellings_told]
    rfl

theorem send {status : CallStatus} (h : Orderly config past s)
    (hsplit : s.endings = front ++ (call, .told status) :: back) :
    Orderly config (past ++ []) { s with endings := front ++ (call, .sent status) :: back } := by
  have hmem : (call, .told status) ∈ s.endings := by simp [hsplit]
  have htold : Told config past call status := h.endings call _ hmem
  exact h.advance hsplit (fun _ _ => rfl) (htold.append rfl)

end Ending

/-- Waiters may change, and what they have asked for, as long as they ask to wait for that
time. -/
theorem ask {expiries : List (Nat × Nat)} {waiters : List Waiter} (h : Orderly config past s)
    (hexpiries : ∀ call nanos, (call, nanos) ∈ expiries →
      (call, nanos) ∈ s.expiries ∨ nanos = config.waitNanos) :
    Orderly config past { s with expiries, waiters } where
  distinct := h.distinct
  places := h.places
  fresh := h.fresh
  pending := h.pending
  endings := h.endings
  expiries := fun call nanos hmem => (hexpiries call nanos hmem).elim (h.expiries call nanos) id

end Orderly

/-! ## Waiters -/

/-- How far a waiter has come: it checks, or takes what comes, or answers what it was sent. -/
inductive Awaiting {κ : Type} (config : Config) (endings : List (Nat × Ending κ)) (call : Nat) :
    Await (Except CallError CallStatus) → Prop
  | polling (checks : Nat) : Awaiting config endings call
      (Await.poll (config.pollInterval * nanosPerMilli) config.waitNanos checks)
  | receiving : Awaiting config endings call
      (.ask .receive fun tidings => .done (tidings.settle config.waitNanos))
  | answered {status : CallStatus} (hsent : (call, .sent status) ∈ endings) :
      Awaiting config endings call (.done (status.settle config.waitNanos))

namespace Awaiting

variable {κ : Type} {config : Config} {past : List (Happening κ)} {s : Switchboard κ}
  {endings endings' : List (Nat × Ending κ)} {call : Nat}
  {rest : Await (Except CallError CallStatus)} {asked : List (Nat × Nat)}

theorem mono (h : Awaiting config endings call rest)
    (hkept : ∀ status, (call, .sent status) ∈ endings → (call, .sent status) ∈ endings') :
    Awaiting config endings' call rest := by
  cases h with
  | polling checks => exact .polling checks
  | receiving => exact .receiving
  | answered hsent => exact .answered (hkept _ hsent)

/-- The line of a call that is tracked is never lost. -/
theorem exists_sent {tidings : Tidings} (horderly : Orderly config past s)
    (htracked : call ∈ s.tracked) (hhears : s.Hears call tidings) :
    ∃ status, tidings = .status status ∧ (call, .sent status) ∈ s.endings := by
  cases hhears with
  | sent hsent => exact ⟨_, rfl, hsent⟩
  | lost hpending hended =>
    -- The call is in the table or has an ending, and there its sender is.
    rcases horderly.mem_tracked_iff.mp htracked with hstill | hending
    · rw [hpending] at hstill
      cases hstill
    · obtain ⟨ending, hmem⟩ := hending
      exact absurd hmem (hended ending)

theorem step {w' : Waiter} (h : Awaiting config s.endings call rest)
    (horderly : Orderly config past s) (htracked : call ∈ s.tracked)
    (hstep : Waiter.Step s ⟨call, rest⟩ asked w') :
    w'.call = call ∧ Awaiting config s.endings call w'.rest ∧
      ∀ other nanos, (other, nanos) ∈ asked → nanos = config.waitNanos := by
  cases h with
  | polling checks =>
    cases checks with
    | zero =>
      -- The checks are used up: the waiter asks for the expiry before it takes what comes.
      change Waiter.Step s ⟨call, .ask (.expire config.waitNanos) fun _ =>
        .ask .receive fun tidings => .done (tidings.settle config.waitNanos)⟩ asked w' at hstep
      cases hstep with
      | expire => exact ⟨rfl, .receiving, by simp⟩
    | succ checks =>
      change Waiter.Step s ⟨call, .ask (.listen _) _⟩ asked w' at hstep
      cases hstep with
      | heard hhears =>
        obtain ⟨status, rfl, hsent⟩ := exists_sent horderly htracked hhears
        exact ⟨rfl, .answered hsent, by simp⟩
      | elapsed => exact ⟨rfl, .polling checks, by simp⟩
  | receiving =>
    cases hstep with
    | receive hhears =>
      obtain ⟨status, rfl, hsent⟩ := exists_sent horderly htracked hhears
      exact ⟨rfl, .answered hsent, by simp⟩
  | answered => cases hstep

end Awaiting

/-- Calls are in order, and every waiter waits for one of them. -/
structure Attended {κ : Type} (config : Config) (past : List (Happening κ)) (s : Switchboard κ) :
    Prop where
  orderly : Orderly config past s
  waiters : ∀ w ∈ s.waiters, w.call ∈ s.tracked ∧ Awaiting config s.endings w.call w.rest

namespace Attended

variable {κ : Type} {config : Config} {past now : List (Happening κ)} {s s' : Switchboard κ}

/-- Waiters are not concerned when statuses that were sent stay so. -/
theorem waiters_kept {tracked : List Nat} {endings : List (Nat × Ending κ)}
    (h : Attended config past s) (htracked : s.tracked ⊆ tracked)
    (hkept : ∀ call status, (call, .sent status) ∈ s.endings → (call, .sent status) ∈ endings) :
    ∀ w ∈ s.waiters, w.call ∈ tracked ∧ Awaiting config endings w.call w.rest := by
  intro w hw
  obtain ⟨hcall, hawaiting⟩ := h.waiters w hw
  exact ⟨htracked hcall, hawaiting.mono fun status => hkept w.call status⟩

/-- A status that was sent is not the one that goes further. -/
theorem sent_kept {front back : List (Nat × Ending κ)} {place place' : Nat × Ending κ}
    (hplace : ∀ call status, place ≠ (call, .sent status)) {call : Nat} {status : CallStatus}
    (hmem : (call, .sent status) ∈ front ++ place :: back) :
    (call, .sent status) ∈ front ++ place' :: back := by
  rcases mem_cut_iff.mp hmem with heq | hother
  · exact absurd heq.symm (hplace call status)
  · exact mem_cut_iff.mpr (Or.inr hother)

theorem step (h : Attended config past s) (hstep : s.Step config now s') :
    Attended config (past ++ now) s' := by
  have hchanged : ∀ {call : Nat} {yield : PendingCalls κ × Option (Delivery κ)},
      ∀ other status, (other, Ending.sent status) ∈ s.endings →
        (other, Ending.sent status) ∈ (s.change call yield).endings :=
    fun _ _ hmem => List.mem_append_right _ hmem
  cases hstep with
  | @track call bound message callback hfresh hbound =>
    refine ⟨h.orderly.track hfresh, ?_⟩
    intro w hw
    rcases List.mem_cons.mp hw with rfl | hold
    · exact ⟨List.mem_cons_self, .polling config.maxChecks⟩
    · exact h.waiters_kept (List.subset_cons_self _ _) hchanged w hold
  | finish result =>
    exact ⟨h.orderly.finish, h.waiters_kept (List.Subset.refl _) hchanged⟩
  | watchdog hbound =>
    rw [Config.nanos_of_waitBound? hbound]
    exact ⟨h.orderly.expire, h.waiters_kept (List.Subset.refl _) hchanged⟩
  | @expire front back call nanos hsplit =>
    -- What a waiter asks for is the time that it has waited itself.
    obtain rfl : nanos = config.waitNanos := h.orderly.expiries call nanos (by simp [hsplit])
    have hexpired : Orderly config (past ++ [.expired call config.waitNanos])
        (s.change call (s.pending.expire call config.waitNanos)) := h.orderly.expire
    refine ⟨hexpired.ask ?_, h.waiters_kept (List.Subset.refl _) hchanged⟩
    intro other nanos hmem
    exact Or.inl (mem_of_cut hsplit hmem)
  | tell hsplit =>
    refine ⟨h.orderly.tell hsplit, h.waiters_kept (List.Subset.refl _) ?_⟩
    intro other status hmem
    rw [hsplit] at hmem
    exact sent_kept (fun _ _ => by simp) hmem
  | send hsplit =>
    refine ⟨h.orderly.send hsplit, h.waiters_kept (List.Subset.refl _) ?_⟩
    intro other status hmem
    rw [hsplit] at hmem
    exact sent_kept (fun _ _ => by simp) hmem
  | @wait front back w w' asked hsplit hstep =>
    obtain ⟨htracked, hawaiting⟩ := h.waiters w (by simp [hsplit])
    obtain ⟨hcall, hawaiting', hasked⟩ := hawaiting.step h.orderly htracked hstep
    rw [List.append_nil]
    refine ⟨h.orderly.ask fun call nanos hmem => ?_, fun w'' hw'' => ?_⟩
    · exact (List.mem_append.mp hmem).symm.imp_right (hasked call nanos)
    · rcases mem_cut_iff.mp hw'' with rfl | hother
      · rw [hcall]
        exact ⟨htracked, hawaiting'⟩
      · exact h.waiters w'' (mem_of_cut hsplit hother)
  | @forget front back w hsplit =>
    rw [List.append_nil]
    refine ⟨h.orderly.ask fun _ _ hmem => Or.inl hmem, fun w' hw' => ?_⟩
    exact h.waiters w' (mem_of_cut hsplit hw')

theorem of_history (h : Switchboard.History config past s) : Attended config past s := by
  induction h with
  | new => exact ⟨Orderly.empty, fun w hw => absurd hw List.not_mem_nil⟩
  | step _ hstep ih => exact ih.step hstep

end Attended

/-! ## Waiter and callback -/

/-- What a waiter answers goes with what the callback was told, and with what has happened: the
work has ended with that result, or the call was given up after the time that both are told. -/
inductive Learned {κ : Type} (past : List (Happening κ)) (call : Nat) :
    Except CallError CallStatus → CallResult → Prop
  | completed {response : Context} (hfinished : .finished call (.ok response) ∈ past) :
      Learned past call (.ok .completed) (.ok response)
  | failed {error : CallError} (hfinished : .finished call (.error error) ∈ past) :
      Learned past call (.ok .failed) (.error error)
  | timedOut {nanos waited : Nat} (hexpired : .expired call nanos ∈ past)
      (hwaited : CallError.timeoutAfter nanos = .timeout waited) :
      Learned past call (.error (.timeout waited)) (.error (.timeout waited))

/-- When a waiter answers, the callback of its call has already been told how the call ended, once
and nothing else, and both have learned the same: that there is a response, that the work has
failed, or that the call was given up after so many milliseconds.  So no waiter answers that its
call never ran. -/
theorem waiter_agrees_with_callback {κ : Type} {config : Config} {past : List (Happening κ)}
    {s : Switchboard κ} {call : Nat} {answer : Except CallError CallStatus}
    (hpast : Switchboard.History config past s) (hanswer : ⟨call, .done answer⟩ ∈ s.waiters) :
    ∃ callback result, .tracked call callback ∈ past ∧
      tellings call past = [(callback, result)] ∧ Learned past call answer result := by
  have hattended := Attended.of_history hpast
  obtain ⟨-, hawaiting⟩ := hattended.waiters _ hanswer
  -- Only one who was sent a status has answered, and what was sent was told before.
  obtain ⟨status, hsent, rfl⟩ : ∃ status : CallStatus, (call, .sent status) ∈ s.endings ∧
      answer = status.settle config.waitNanos := by
    generalize hrest : (Program.done answer : Await (Except CallError CallStatus)) = rest
      at hawaiting
    cases hawaiting with
    | polling checks => cases checks <;> cases hrest
    | receiving => cases hrest
    | answered hsent =>
      cases hrest
      exact ⟨_, hsent, rfl⟩
  obtain ⟨callback, result, htracked, htold, howed⟩ := hattended.orderly.endings call _ hsent
  refine ⟨callback, result, htracked, htold, ?_⟩
  cases howed with
  | completed hfinished => exact .completed hfinished
  | failed hfinished => exact .failed hfinished
  | timedOut hexpired => exact .timedOut hexpired rfl

/-- One who makes no checks has the call given up at once, and learns of the timeout that the
callback is told. -/
theorem impatient_waiter_agrees :
    ∃ (past : List (Happening String)) (s : Switchboard String),
      Switchboard.History { Config.standard with maxChecks := 0 } past s ∧
        ⟨0, .done (.error (.timeout 0))⟩ ∈ s.waiters ∧
        ∃ callback result, .tracked 0 callback ∈ past ∧
          tellings 0 past = [(callback, result)] ∧
          Learned past 0 (.error (.timeout 0)) result := by
  let config : Config := { Config.standard with maxChecks := 0 }
  let d : Delivery String := ⟨"reply", .error (.timeout 0), .timedOut⟩
  let polling : Waiter := ⟨0, Await.poll 0 0 0⟩
  let receiving : Waiter := ⟨0, .ask .receive fun tidings => .done (tidings.settle 0)⟩
  let answered : Waiter := ⟨0, .done (.error (.timeout 0))⟩
  let tracked : Switchboard String :=
    ⟨[0], ⟨[⟨0, default, "reply"⟩]⟩, [], [], [polling]⟩
  let asked : Switchboard String := { tracked with expiries := [(0, 0)], waiters := [receiving] }
  let taken : Switchboard String := ⟨[0], .empty, [(0, .taken d)], [], [receiving]⟩
  let told : Switchboard String := { taken with endings := [(0, .told .timedOut)] }
  let sent : Switchboard String := { taken with endings := [(0, .sent .timedOut)] }
  let heard : Switchboard String := { sent with waiters := [answered] }
  have htrack : Switchboard.Step config .empty [.tracked 0 "reply"] tracked :=
    .track List.not_mem_nil (show config.waitBound? = some 0 by decide)
  have hask : tracked.Step config [] asked := by
    have hpolling : tracked.waiters = [] ++ polling :: [] := rfl
    exact Switchboard.Step.wait hpolling (.expire)
  have hexpire : asked.Step config [.expired 0 0] taken := by
    have hasked : asked.expiries = [] ++ (0, 0) :: [] := rfl
    exact Switchboard.Step.expire hasked
  have htell : taken.Step config [.told 0 d.callback d.result] told := by
    have htaken : taken.endings = [] ++ (0, .taken d) :: [] := rfl
    exact Switchboard.Step.tell htaken
  have hsend : told.Step config [] sent := by
    have htold : told.endings = [] ++ (0, .told .timedOut) :: [] := rfl
    exact Switchboard.Step.send htold
  have hhear : sent.Step config [] heard := by
    have hreceiving : sent.waiters = [] ++ receiving :: [] := rfl
    exact Switchboard.Step.wait hreceiving (.receive (.sent List.mem_cons_self))
  have hheard : Switchboard.History config _ heard :=
    (((((Switchboard.History.new.step htrack).step hask).step hexpire).step htell).step
      hsend).step hhear
  exact ⟨_, heard, hheard, List.mem_cons_self,
    waiter_agrees_with_callback hheard List.mem_cons_self⟩

end SoapPipeline
