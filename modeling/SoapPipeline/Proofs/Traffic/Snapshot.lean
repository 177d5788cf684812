/-
  SoapPipeline.Proofs.Traffic.Snapshot

  A dispatch runs on what it has looked up.

  A message looks up its deployment and the chains that are published there, or
  the global chains if there is no deployment.  Behind that it calls handlers and
  lets go of what it holds, and asks the engine for nothing else.  So whatever
  others do to the engine meanwhile, the message goes the same way as long as
  handlers answer it alike.

  Main results:
    * `Secluded.unique`: a program that asks the engine for nothing goes the way
      that handlers lead it;
    * `Sealed.asks`, `Journey.sealed_of_lookups`: a message asks for nothing else
      once it has looked up what it runs on;
    * `dispatch_on_one_snapshot`: two dispatches that looked up the same differ in
      nothing, whatever is done to the engine.
-/
import SoapPipeline.Proofs.Dispatch.Conservation
import SoapPipeline.Proofs.Traffic.UseAfterCleanup

namespace SoapPipeline

open Program Relation

/-! ## How handlers behave -/

/-- How handlers behave towards one message: what a call gives, after all that the message has
asked and been answered before.  Nothing of it comes from the engine. -/
structure Conduct where
  invoke : List ExchangeEvent → Handler → Context → Except Fault Verdict × Context
  undo : List ExchangeEvent → Handler → Context → Context

namespace Conduct

variable {c : Conduct} {past events : List ExchangeEvent}

/-- A handler that is called gives this answer; what the engine is asked is left open. -/
def Gives (c : Conduct) (past : List ExchangeEvent) : ExchangeEvent → Prop
  | ⟨.invoke h ctx, answer⟩ => answer = c.invoke past h ctx
  | ⟨.undo h ctx, answer⟩ => answer = c.undo past h ctx
  | _ => True

/-- All handlers that are called behave so; the first list is what has been asked before. -/
def Followed (c : Conduct) : List ExchangeEvent → List ExchangeEvent → Prop
  | _, [] => True
  | past, event :: rest => c.Gives past event ∧ c.Followed (past ++ [event]) rest

theorem followed_append_iff {front back : List ExchangeEvent} :
    c.Followed past (front ++ back) ↔ c.Followed past front ∧ c.Followed (past ++ front) back := by
  induction front generalizing past with
  | nil => simp [Followed]
  | cons event rest ih =>
    rw [List.cons_append, Followed, ih, Followed, and_assoc, List.append_assoc,
      List.singleton_append]

/-- Answers of handlers who behave so, and some answers of the engine. -/
def behave (c : Conduct) (past : List ExchangeEvent) :
    (question : Exchange.Question) → question.Answer
  | .invoke h ctx => c.invoke past h ctx
  | .undo h ctx => c.undo past h ctx
  | .lookup _ => none
  | .globalChains => default
  | .release _ => ()
  | .freshId => default

theorem followed_of_follows (h : Follows c.behave past events) : c.Followed past events := by
  induction events generalizing past with
  | nil => trivial
  | cons event rest ih =>
    refine ⟨?_, ih h.2⟩
    obtain ⟨question, answer⟩ := event
    cases question with
    | invoke | undo => exact h.1
    | lookup | globalChains | release | freshId => trivial

end Conduct

/-! ## Programs that ask the engine for nothing -/

/-- Whatever is answered, the program calls handlers and lets go of deployments, and asks for
nothing else. -/
inductive Secluded {α : Type} : Exchange α → Prop
  | done (a : α) : Secluded (.done a)
  | invoke {h : Handler} {ctx : Context}
      {next : Exchange.Question.Answer (.invoke h ctx) → Exchange α}
      (hnext : ∀ answer, Secluded (next answer)) : Secluded (.ask (.invoke h ctx) next)
  | undo {h : Handler} {ctx : Context}
      {next : Exchange.Question.Answer (.undo h ctx) → Exchange α}
      (hnext : ∀ answer, Secluded (next answer)) : Secluded (.ask (.undo h ctx) next)
  | release {id : Nat} {next : Exchange.Question.Answer (.release id) → Exchange α}
      (hnext : Secluded (next ())) : Secluded (.ask (.release id) next)

namespace Secluded

variable {α : Type} {p : Exchange α} {post : α → Prop} {may : Handler → Prop}

theorem of_callsOnly (h : CallsOnly may post p) : Secluded p := by
  induction h with
  | done => exact done _
  | invoke _ _ ih => exact invoke ih
  | undo _ _ ih => exact undo ih

theorem settle {p : Exchange (Except Fault Outcome × Context)} {post} {id : Nat}
    (h : CallsOnly may post p) : Secluded (p >>= SoapPipeline.settle id) := by
  induction h with
  | done => exact release (done _)
  | invoke _ _ ih => exact invoke ih
  | undo _ _ ih => exact undo ih

/-- Such a program goes the way that handlers lead it. -/
theorem unique {c : Conduct} {past events events' : List ExchangeEvent} {a a' : α}
    (hp : Secluded p) (h : Run p events a) (h' : Run p events' a')
    (hfollowed : c.Followed past events) (hfollowed' : c.Followed past events') :
    events = events' ∧ a = a' := by
  induction hp generalizing past events events' with
  | done =>
    obtain ⟨rfl, rfl⟩ := Run.pure_iff.mp h
    obtain ⟨rfl, rfl⟩ := Run.pure_iff.mp h'
    exact ⟨rfl, rfl⟩
  | @invoke handler ctx next _ ih =>
    obtain ⟨answer, rest, rfl, hrest⟩ := Run.ask_iff.mp h
    obtain ⟨answer', rest', rfl, hrest'⟩ := Run.ask_iff.mp h'
    -- Both answers are the one that the conduct gives at this point.
    obtain rfl : answer = answer' := hfollowed.1.trans hfollowed'.1.symm
    obtain ⟨rfl, rfl⟩ := ih answer hrest hrest' hfollowed.2 hfollowed'.2
    exact ⟨rfl, rfl⟩
  | @undo handler ctx next _ ih =>
    obtain ⟨answer, rest, rfl, hrest⟩ := Run.ask_iff.mp h
    obtain ⟨answer', rest', rfl, hrest'⟩ := Run.ask_iff.mp h'
    obtain rfl : answer = answer' := hfollowed.1.trans hfollowed'.1.symm
    obtain ⟨rfl, rfl⟩ := ih answer hrest hrest' hfollowed.2 hfollowed'.2
    exact ⟨rfl, rfl⟩
  | release _ ih =>
    obtain ⟨_, rest, rfl, hrest⟩ := Run.ask_iff.mp h
    obtain ⟨_, rest', rfl, hrest'⟩ := Run.ask_iff.mp h'
    obtain ⟨rfl, rfl⟩ := ih hrest hrest' hfollowed.2 hfollowed'.2
    exact ⟨rfl, rfl⟩

end Secluded

/-! ## Journeys -/

/-- What anybody else may do to an engine. -/
inductive Meanwhile (e : Engine) : Engine → Prop
  | operated {op : Operation} {events : List LifecycleEvent} {e' : Engine}
      (hdone : op.Done e events e') : Meanwhile e e'
  /-- A caller or another message takes hold of a deployment. -/
  | retained (id : Nat) : Meanwhile e (e.retain id)
  /-- A caller or another message lets go of a deployment. -/
  | released {id : Nat} {events : List LifecycleEvent} {e' : Engine}
      (hrun : Run (e.release id) events e') : Meanwhile e e'

/-- Nobody does anything. -/
def Undisturbed (_ _ : Engine) : Prop := False

/-- A message asks for one thing and is answered.  When it looks up a deployment, it takes hold of
it first and reads its chains after that, and others may act in between. -/
inductive Asks (others : Engine → Engine → Prop) :
    Engine → InFlight → ExchangeEvent → Engine → InFlight → Prop
  | step {e e' : Engine} {m m' : InFlight} {event : ExchangeEvent} {also : List Occurrence}
      (hstep : m.Step e (.exchange event :: also) e' m') : Asks others e m event e' m'
  | found {e e' : Engine} {service : QName} {id : Nat} {d d' : Deployment}
      {next : Option Lease → Exchange (Except Fault Outcome × Context)}
      (hfound : e.deployed? service = some (id, d))
      (hothers : ReflTransGen others (e.retain id) e')
      (hchains : e'.deployments.find? id = some d') :
      Asks others e ⟨none, .ask (.lookup service) next⟩
        ⟨.lookup service, some ⟨id, d.operations, d'.chains⟩⟩ e'
        ⟨some id, next (some ⟨id, d.operations, d'.chains⟩)⟩

/-- A message goes its way through an engine, with all that it asks and is answered.  Others act
between any two of its questions.  What a handler does to the engine while it is called counts as
done ahead of the call: calls themselves leave the engine alone. -/
inductive Journey (others : Engine → Engine → Prop) :
    Engine → InFlight → List ExchangeEvent → Engine → InFlight → Prop
  | here (e : Engine) (m : InFlight) : Journey others e m [] e m
  | meanwhile {e e₁ e' : Engine} {m m' : InFlight} {events : List ExchangeEvent}
      (hothers : others e e₁) (h : Journey others e₁ m events e' m') :
      Journey others e m events e' m'
  | asks {e e₁ e' : Engine} {m m₁ m' : InFlight} {event : ExchangeEvent}
      {events : List ExchangeEvent} (hasks : Asks others e m event e₁ m₁)
      (h : Journey others e₁ m₁ events e' m') : Journey others e m (event :: events) e' m'

variable {others : Engine → Engine → Prop} {e e' : Engine} {m m' : InFlight}
  {event : ExchangeEvent} {events rest : List ExchangeEvent}
  {answer : Except Fault Outcome × Context}

/-- What a message asks is what its program asks. -/
theorem Asks.run (h : Asks others e m event e' m') (hrun : Run m'.rest rest answer) :
    Run m.rest (event :: rest) answer := by
  cases h with
  | step hstep => cases hstep <;> exact Run.ask hrun
  | found => exact Run.ask hrun

namespace Journey

/-- The way so far and a run of what is left of the program make a run of the whole program. -/
theorem run (h : Journey others e m events e' m') (hrun : Run m'.rest rest answer) :
    Run m.rest (events ++ rest) answer := by
  induction h with
  | here => exact hrun
  | meanwhile _ _ ih => exact ih hrun
  | asks hasks _ ih => exact hasks.run (ih hrun)

theorem cases_of_cons (h : Journey others e m (event :: events) e' m') :
    ∃ e₀ e₁ m₁, Asks others e₀ m event e₁ m₁ ∧ Journey others e₁ m₁ events e' m' := by
  generalize hall : event :: events = all at h
  induction h with
  | here => cases hall
  | meanwhile _ _ ih => exact ih hall
  | asks hasks h =>
    obtain ⟨rfl, rfl⟩ := List.cons_eq_cons.mp hall
    exact ⟨_, _, _, hasks, h⟩

end Journey

/-! ## Messages that have looked up what they run on -/

/-- The message calls handlers, lets go of what it holds, and asks for nothing else. -/
inductive Sealed : InFlight → Prop
  | loose {p : Exchange (Except Fault Outcome × Context)}
      (hcalls : CallsOnly (fun _ => True) (fun _ => True) p) : Sealed ⟨none, p⟩
  | holding {id : Nat} {p : Exchange (Except Fault Outcome × Context)}
      (hcalls : CallsOnly (fun _ => True) (fun _ => True) p) : Sealed ⟨some id, p >>= settle id⟩

namespace Sealed

/-- Such a message stays one. -/
theorem asks (hm : Sealed m) (h : Asks others e m event e' m') : Sealed m' := by
  cases hm with
  | loose hcalls =>
    cases hcalls with
    | done =>
      cases h with
      | step hstep => cases hstep
    | invoke _ hnext =>
      cases h with
      | step hstep => cases hstep with
        | invoke answer => exact loose (hnext answer)
    | undo _ hnext =>
      cases h with
      | step hstep => cases hstep with
        | undo answer => exact loose (hnext answer)
  | @holding id p hcalls =>
    cases hcalls with
    | @done a =>
      change Asks others e ⟨some id, .ask (.release id) fun _ => .done a⟩ _ _ _ at h
      cases h with
      | step hstep => cases hstep with
        | release => exact loose (.done trivial)
    | @invoke handler ctx next _ hnext =>
      change Asks others e
        ⟨some id, .ask (.invoke handler ctx) fun answer => next answer >>= settle id⟩ _ _ _ at h
      cases h with
      | step hstep => cases hstep with
        | invoke answer => exact holding (hnext answer)
    | @undo handler ctx next _ hnext =>
      change Asks others e
        ⟨some id, .ask (.undo handler ctx) fun answer => next answer >>= settle id⟩ _ _ _ at h
      cases h with
      | step hstep => cases hstep with
        | undo answer => exact holding (hnext answer)

theorem journey (hm : Sealed m) (h : Journey others e m events e' m') : Sealed m' := by
  induction h with
  | here => exact hm
  | meanwhile _ _ ih => exact ih hm
  | asks hasks _ ih => exact ih (hm.asks hasks)

/-- Whatever the engine is like, the message can ask what its program asks next. -/
theorem exists_asks (hm : Sealed m) (hrun : Run m.rest (event :: rest) answer) (e : Engine) :
    ∃ e' m', Asks others e m event e' m' ∧ Run m'.rest rest answer := by
  cases hm with
  | loose hcalls =>
    cases hcalls with
    | done => cases hrun
    | invoke =>
      cases hrun with
      | ask hrest => exact ⟨e, _, .step (.invoke _), hrest⟩
    | undo =>
      cases hrun with
      | ask hrest => exact ⟨e, _, .step (.undo _), hrest⟩
  | @holding id p hcalls =>
    cases hcalls with
    | @done a =>
      change Run (I := Exchange.interface) (.ask (.release id) fun _ => .done a) _ _ at hrun
      cases hrun with
      | ask hrest =>
        obtain ⟨cleanups, e', hrelease⟩ := Lifecycle.exists_end (e.release id)
        exact ⟨e', _, .step (.release hrelease), hrest⟩
    | @invoke handler ctx next =>
      change Run (I := Exchange.interface)
        (.ask (.invoke handler ctx) fun answer => next answer >>= settle id) _ _ at hrun
      cases hrun with
      | ask hrest => exact ⟨e, _, .step (.invoke _), hrest⟩
    | @undo handler ctx next =>
      change Run (I := Exchange.interface)
        (.ask (.undo handler ctx) fun answer => next answer >>= settle id) _ _ at hrun
      cases hrun with
      | ask hrest => exact ⟨e, _, .step (.undo _), hrest⟩

/-- A message with nothing left to ask holds nothing. -/
theorem eq_of_run_nil (hm : Sealed m) (hrun : Run m.rest [] answer) : m = ⟨none, .done answer⟩ := by
  cases hm with
  | loose hcalls =>
    cases hrun with
    | done => rfl
  | @holding id p hcalls =>
    obtain ⟨front, a, back, hsplit, -, hsettle⟩ := Run.bind_iff.mp hrun
    obtain ⟨-, rfl⟩ := List.append_eq_nil_iff.mp hsplit.symm
    cases hsettle

/-- Whatever the engine is like, the message can go the way of its program to the end. -/
theorem exists_journey (hm : Sealed m) (hrun : Run m.rest events answer) (e : Engine) :
    ∃ e', Journey others e m events e' ⟨none, .done answer⟩ := by
  induction events generalizing m e with
  | nil =>
    rw [hm.eq_of_run_nil hrun]
    exact ⟨e, .here e _⟩
  | cons event rest ih =>
    obtain ⟨e₁, m₁, hasks, hrest⟩ := hm.exists_asks hrun e
    obtain ⟨e', hjourney⟩ := ih (hm.asks hasks) hrest e₁
    exact ⟨e', .asks hasks hjourney⟩

end Sealed

/-! ## Snapshots -/

/-- What a message looks up. -/
inductive Snapshot where
  /-- The service is deployed; these are its operations and its chains. -/
  | deployed (lease : Lease)
  /-- The service is not deployed; these are the global chains. -/
  | missing (chains : Chains)

namespace Snapshot

/-- What the message asks and is answered to look this up. -/
def lookups (service : QName) : Snapshot → List ExchangeEvent
  | .deployed lease => [⟨.lookup service, some lease⟩]
  | .missing chains => [⟨.lookup service, none⟩, ⟨.globalChains, chains⟩]

/-- What a dispatch does once it has looked this up. -/
def onward (ctx : Context) : Snapshot → Exchange (Except Fault Outcome × Context)
  | .deployed lease => lease.serve ctx >>= settle lease.deployment
  | .missing chains => handleFault chains.fault none (notDeployed ctx.service) ctx

variable {snapshot : Snapshot} {engineId : String} {ctx : Context}

theorem run_dispatch_iff :
    Run (dispatch engineId ctx) (snapshot.lookups ctx.service ++ events) answer ↔
      Run (snapshot.onward (ctx.stamped engineId)) events answer := by
  rw [dispatch_eq, service_stamped]
  cases snapshot with
  | deployed lease =>
    constructor
    · intro h
      cases h with
      | ask h => exact h
    · exact fun h => Run.ask h
  | missing chains =>
    constructor
    · intro h
      cases h with
      | ask h =>
        cases h with
        | ask h => exact h
    · exact fun h => Run.ask (Run.ask h)

theorem callsOnly_serve_any (lease : Lease) (ctx : Context) :
    CallsOnly (fun _ => True) (fun _ => True) (lease.serve ctx) :=
  callsOnly_serve (fun _ _ => trivial) ctx

theorem callsOnly_missing_any (chains : Chains) (fault : Fault) (ctx : Context) :
    CallsOnly (fun _ => True) (fun _ => True) (handleFault chains.fault none fault ctx) :=
  callsOnly_handleFault (fun _ _ _ _ => trivial) (fun _ _ => trivial) fault ctx

theorem secluded_onward (snapshot : Snapshot) (ctx : Context) : Secluded (snapshot.onward ctx) := by
  cases snapshot with
  | deployed lease => exact Secluded.settle (callsOnly_serve_any lease ctx)
  | missing chains => exact Secluded.of_callsOnly (callsOnly_missing_any chains _ ctx)

end Snapshot

/-- A dispatch that has looked up what it runs on asks the engine for nothing else. -/
theorem Journey.sealed_of_lookups {snapshot : Snapshot} {engineId : String} {ctx : Context}
    (h : Journey others e ⟨none, dispatch engineId ctx⟩ (snapshot.lookups ctx.service ++ events)
      e' m) : Sealed m := by
  rw [dispatch_eq, service_stamped] at h
  cases snapshot with
  | deployed lease =>
    obtain ⟨_, _, m₁, hlookup, hrest⟩ := h.cases_of_cons
    have hm₁ : m₁ = ⟨some lease.deployment, served (ctx.stamped engineId) (some lease)⟩ := by
      cases hlookup with
      | step hstep => cases hstep; rfl
      | found => rfl
    subst hm₁
    exact (Sealed.holding (Snapshot.callsOnly_serve_any lease _)).journey hrest
  | missing chains =>
    obtain ⟨_, _, m₁, hlookup, hrest⟩ := h.cases_of_cons
    have hm₁ : m₁ = ⟨none, served (ctx.stamped engineId) none⟩ := by
      cases hlookup with
      | step hstep => cases hstep; rfl
    subst hm₁
    obtain ⟨_, _, m₂, hglobal, hrest⟩ := hrest.cases_of_cons
    change Asks others _ ⟨none, .ask .globalChains _⟩ _ _ _ at hglobal
    have hm₂ : Sealed m₂ := by
      cases hglobal with
      | step hstep =>
        cases hstep with
        | globalChains => exact Sealed.loose (Snapshot.callsOnly_missing_any _ _ _)
    exact hm₂.journey hrest

/-- What a dispatch has looked up and how handlers behave settle all that it asks from then on and
is answered, and its result and final message.  However others operate the engine, hold its
deployments and let go of them, before and after, a dispatch that looked up the same has asked a
part of that, can ask the rest undisturbed, and when it ends it has asked all of it and ends with
that result. -/
theorem dispatch_on_one_snapshot (c : Conduct) (engineId : String) (ctx : Context)
    (snapshot : Snapshot) :
    ∃ events result final,
      c.Followed (snapshot.lookups ctx.service) events ∧
      Run (dispatch engineId ctx) (snapshot.lookups ctx.service ++ events) (result, final) ∧
      ∀ e e' m events', Journey Meanwhile e ⟨none, dispatch engineId ctx⟩
          (snapshot.lookups ctx.service ++ events') e' m →
        c.Followed (snapshot.lookups ctx.service) events' →
        ∃ rest, events = events' ++ rest ∧
          (∃ e'', Journey Undisturbed e' m rest e'' ⟨none, .done (result, final)⟩) ∧
          ∀ answer, m.rest = .done answer → rest = [] ∧ answer = (result, final) := by
  obtain ⟨events, ⟨result, final⟩, hrun, hfollows⟩ :=
    exists_run c.behave (snapshot.lookups ctx.service) (snapshot.onward (ctx.stamped engineId))
  have hfollowed := Conduct.followed_of_follows hfollows
  refine ⟨events, result, final, hfollowed, Snapshot.run_dispatch_iff.mpr hrun, ?_⟩
  intro e e' m events' hjourney hfollowed'
  have hm : Sealed m := hjourney.sealed_of_lookups
  -- What the message has asked and what it will ask is a run of the dispatch on this snapshot.
  obtain ⟨rest, answer, hrest, hfollows⟩ :=
    exists_run c.behave (snapshot.lookups ctx.service ++ events') m.rest
  have hwhole := hjourney.run hrest
  rw [List.append_assoc] at hwhole
  have hfollowed_whole : c.Followed (snapshot.lookups ctx.service) (events' ++ rest) :=
    Conduct.followed_append_iff.mpr ⟨hfollowed', Conduct.followed_of_follows hfollows⟩
  obtain ⟨rfl, rfl⟩ := (snapshot.secluded_onward _).unique hrun
    (Snapshot.run_dispatch_iff.mp hwhole) hfollowed hfollowed_whole
  refine ⟨rest, rfl, hm.exists_journey hrest e', ?_⟩
  intro answer hdone
  rw [hdone] at hrest
  obtain ⟨rfl, rfl⟩ := Run.pure_iff.mp hrest
  exact ⟨rfl, rfl⟩

/-! ### A vault that is removed meanwhile -/

/-- Handlers that leave messages as they are. -/
def letPass : Conduct := ⟨fun _ _ ctx => (.ok .proceed, ctx), fun _ _ ctx => ctx⟩

/-- What is asked for the message to the vault once the vault has been looked up. -/
def vaultEvents : List ExchangeEvent :=
  [⟨.invoke guard vaultRequest, (.ok .proceed, vaultRequest)⟩, ⟨.release 0, ()⟩]

/-- The vault is removed as soon as the message has looked it up. -/
theorem journey_removed : Journey Meanwhile (vaultInUse 1)
    ⟨none, dispatch onePhase.engineId vaultMessage⟩
    ((Snapshot.deployed vaultLease).lookups vaultMessage.service ++ vaultEvents)
    (vaultEngine [] ⟨1, []⟩) ⟨none, .done (.ok .completed, vaultRequest)⟩ := by
  have hundeployed : Run ((vaultInUse 2).undeploy vaultService.name) []
      (vaultEngine [] ⟨1, [⟨0, vault [], 1⟩]⟩, .ok ()) := Run.done _
  have hreleased : Run ((vaultEngine [] ⟨1, [⟨0, vault [], 1⟩]⟩).release 0)
      [⟨.cleanup guard, ()⟩] (vaultEngine [] ⟨1, []⟩) := Run.ask (Run.done _)
  obtain ⟨next, hserved, hlast⟩ := served_vault
  refine .asks (.step found_vault) (.meanwhile (.operated (.undeploy hundeployed)) ?_)
  rw [hserved]
  refine .asks (.step (.invoke (.ok .proceed, vaultRequest))) ?_
  rw [hlast]
  exact .asks (.step (.release hreleased)) (.here _ _)

/-- The message ends as it would have ended if the vault had stayed. -/
theorem vault_on_one_snapshot : ∃ e,
    Journey Undisturbed (vaultInUse 2) ⟨some 0, served vaultRequest (some vaultLease)⟩ vaultEvents
      e ⟨none, .done (.ok .completed, vaultRequest)⟩ ∧
    Journey Meanwhile (vaultInUse 1) ⟨none, dispatch onePhase.engineId vaultMessage⟩
      ((Snapshot.deployed vaultLease).lookups vaultMessage.service ++ vaultEvents)
      (vaultEngine [] ⟨1, []⟩) ⟨none, .done (.ok .completed, vaultRequest)⟩ := by
  obtain ⟨events, result, final, -, -, hall⟩ := dispatch_on_one_snapshot letPass onePhase.engineId
    vaultMessage (.deployed vaultLease)
  obtain ⟨rest, hevents, -, hdone⟩ := hall _ _ _ _ journey_removed ⟨rfl, trivial, trivial⟩
  obtain ⟨rfl, hresult⟩ := hdone _ rfl
  obtain ⟨rest, hrest, ⟨e, hjourney⟩, -⟩ :=
    hall _ _ _ [] (.asks (.step found_vault) (.here _ _)) trivial
  rw [List.nil_append] at hrest
  rw [← hresult, ← hrest, hevents, List.append_nil] at hjourney
  exact ⟨e, hjourney, journey_removed⟩

end SoapPipeline
