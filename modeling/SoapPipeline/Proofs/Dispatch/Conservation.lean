/-
  SoapPipeline.Proofs.Dispatch.Conservation

  What becomes of the fault of a dispatch.

  A fault arises in one of four ways: the service is not deployed, it does not
  offer the operation, the chain fails, or a mandatory header block was not
  understood at the end of it.  It is then offered to one handler, or the fault
  chain runs once, and the dispatch ends with the fault, with the fault that the
  handler raised in its place, or without one.

  All statements are about runs, so they hold whatever the engine answers to the
  lookups and whatever the handlers do to the message.

  Main results:
    * `faultHandler?_eq_some_iff`: which handler is registered for a fault;
    * `handled_of_run`: the three ways of handling a fault;
    * `Raises.unique`: at most one fault arises in a dispatch;
    * `dispatch_conserves_faults`: the fault that arises is the one handled.
-/
import Mathlib.Data.List.Basic
import SoapPipeline.Dispatch
import SoapPipeline.Proofs.Chain.Compensation
import SoapPipeline.Proofs.Options

namespace SoapPipeline

open Program

/-! ## Registered handlers -/

/-- The failing handler has this handler among its own options. -/
def OwnHandler (code : QName) (failing : Option Descriptor) (h : Handler) : Prop :=
  ∃ d, failing = some d ∧ d.options.get? (FaultCode.key code) = some (.handler h)

/-- A descriptor of the fault chain puts up this handler: the one that its option holds, or its
own when the option holds a text. -/
inductive PutsUp (code : QName) (d : Descriptor) : Handler → Prop
  | handler {h : Handler} (hget : d.options.get? (FaultCode.key code) = some (.handler h)) :
      PutsUp code d h
  | text {s : String} (hget : d.options.get? (FaultCode.key code) = some (.text s)) :
      PutsUp code d d.handler

/-- The handler to which faults of this code are offered. -/
inductive Registered (code : QName) (failing : Option Descriptor) (faultChain : Chain) :
    Handler → Prop
  | own {h : Handler} (hown : OwnHandler code failing h) : Registered code failing faultChain h
  | scope {h : Handler} {d : Descriptor} {front back : List Descriptor}
      (hnone : ∀ h, ¬ OwnHandler code failing h)
      (hchain : faultChain.handlers = front ++ d :: back)
      (hfront : ∀ e ∈ front, e.options.get? (FaultCode.key code) = none)
      (hputs : PutsUp code d h) : Registered code failing faultChain h

section Registered

variable {code : QName} {failing : Option Descriptor} {faultChain : Chain} {h : Handler}

theorem own_eq_some_iff :
    (failing.bind fun d => d.options.faultHandler? code) = some h ↔ OwnHandler code failing h := by
  unfold OwnHandler
  rw [Option.bind_eq_some_iff]
  simp only [Options.faultHandler?_eq_some_iff]

theorem registeredFor?_eq_some_iff {d : Descriptor} :
    d.registeredFor? code = some h ↔ PutsUp code d h := by
  rw [Options.registeredFor?_eq_some_iff]
  constructor
  · rintro (hget | ⟨rfl, s, hget⟩)
    · exact PutsUp.handler hget
    · exact PutsUp.text hget
  · intro hputs
    cases hputs with
    | handler hget => exact Or.inl hget
    | text hget => exact Or.inr ⟨rfl, _, hget⟩

theorem registeredFor?_eq_none_iff {d : Descriptor} :
    d.registeredFor? code = none ↔ d.options.get? (FaultCode.key code) = none := by
  unfold Descriptor.registeredFor?
  cases d.options.get? (FaultCode.key code) with
  | none => simp
  | some value => cases value <;> simp

theorem faultHandler?_eq_some_iff :
    faultHandler? code failing faultChain = some h ↔ Registered code failing faultChain h := by
  unfold faultHandler?
  cases hown : failing.bind fun d => d.options.faultHandler? code with
  | some own =>
    have hregistered := own_eq_some_iff.mp hown
    constructor
    · intro heq
      obtain rfl := Option.some.inj heq
      exact Registered.own hregistered
    · intro hreg
      cases hreg with
      | own hown' => rw [← own_eq_some_iff.mpr hown', hown]
      | scope hnone _ _ _ => exact absurd hregistered (hnone own)
  | none =>
    have hnone : ∀ h, ¬ OwnHandler code failing h := by
      intro h hregistered
      rw [own_eq_some_iff.mpr hregistered] at hown
      exact absurd hown (by simp)
    show faultChain.handlers.findSome? (fun d => d.registeredFor? code) = some h ↔ _
    rw [List.findSome?_eq_some_iff]
    constructor
    · intro hfound
      obtain ⟨front, d, back, hchain, hputs, hfront⟩ := hfound
      exact Registered.scope hnone hchain
        (fun e he => registeredFor?_eq_none_iff.mp (hfront e he))
        (registeredFor?_eq_some_iff.mp hputs)
    · intro hreg
      cases hreg with
      | own hown' => exact absurd hown' (hnone h)
      | @scope d front back _ hchain hfront hputs =>
        exact ⟨front, d, back, hchain, registeredFor?_eq_some_iff.mpr hputs,
          fun e he => registeredFor?_eq_none_iff.mpr (hfront e he)⟩

end Registered

/-! ## Incidents -/

/-- A fault that has arisen in a dispatch. -/
structure Incident where
  /-- The fault chain of the scope in which it arose. -/
  faultChain : Chain
  /-- The handler that raised it, unless the engine did. -/
  failing : Option Descriptor
  fault : Fault
  /-- The message as it was when the fault arose. -/
  context : Context
  /-- The deployment that is held meanwhile. -/
  held : Option Nat

namespace Incident

/-- The effective code: what the message makes of the fault when it arises. -/
def code (i : Incident) : QName := i.context.faultCode i.fault

/-- The message with the fault in it. -/
def marked (i : Incident) : Context := { i.context with fault := some i.fault }

end Incident

/-- How a fault arises while a message runs on a deployment that is held: what is asked and
answered until then, and the fault. -/
inductive RaisesOn (lease : Lease) (ctx : Context) : List ExchangeEvent → Incident → Prop
  /-- The service does not list the operation. -/
  | notOffered (hrefused : lease.accepts ctx.operation = false) :
      RaisesOn lease ctx []
        ⟨lease.chains.fault, none, notOffered ctx.operation ctx.service, ctx,
          some lease.deployment⟩
  /-- The selected chain fails. -/
  | chain {events : List ExchangeEvent} {e : ChainFault} {final : Context}
      (haccepted : lease.accepts ctx.operation = true)
      (hrun : Run ((lease.chains.forFlow ctx.flow).execute ctx) events (.error e, final)) :
      RaisesOn lease ctx events
        ⟨lease.chains.fault, some e.handler, e.fault, final, some lease.deployment⟩
  /-- The selected chain ends well, but a mandatory header block was not understood. -/
  | mustUnderstand {events : List ExchangeEvent} {outcome : ChainOutcome} {final : Context}
      {fault : Fault} (haccepted : lease.accepts ctx.operation = true)
      (hrun : Run ((lease.chains.forFlow ctx.flow).execute ctx) events (.ok outcome, final))
      (hflow : final.flow = .inbound)
      (hfault : notUnderstood? (lease.chains.forFlow ctx.flow) final = some fault) :
      RaisesOn lease ctx events
        ⟨lease.chains.fault, none, fault, final, some lease.deployment⟩

/-- How a fault arises in a dispatch. -/
inductive Raises (engineId : String) (ctx : Context) : List ExchangeEvent → Incident → Prop
  /-- The service is not deployed. -/
  | notDeployed (chains : Chains) :
      Raises engineId ctx [⟨.lookup ctx.service, none⟩, ⟨.globalChains, chains⟩]
        ⟨chains.fault, none, notDeployed ctx.service, ctx.stamped engineId, none⟩
  /-- The service is deployed, and a fault arises on its deployment. -/
  | deployed {lease : Lease} {events : List ExchangeEvent} {i : Incident}
      (h : RaisesOn lease (ctx.stamped engineId) events i) :
      Raises engineId ctx (⟨.lookup ctx.service, some lease⟩ :: events) i

/-- No fault arises: the selected chain ends well and nothing is left not understood. -/
structure SucceedsOn (lease : Lease) (ctx : Context) (events : List ExchangeEvent)
    (outcome : ChainOutcome) (final : Context) : Prop where
  accepted : lease.accepts ctx.operation = true
  run : Run ((lease.chains.forFlow ctx.flow).execute ctx) events (.ok outcome, final)
  understood : final.flow = .inbound →
    notUnderstood? (lease.chains.forFlow ctx.flow) final = none

/-- What is asked and answered once the fault has arisen, what the dispatch ends with, and the
message then. -/
inductive Handled (i : Incident) : List ExchangeEvent → Except Fault Outcome → Context → Prop
  /-- The registered handler is invoked once on the marked message, and takes the fault. -/
  | absorbed {h : Handler} {verdict : Verdict} {final : Context}
      (hreg : Registered i.code i.failing i.faultChain h) :
      Handled i [⟨.invoke h i.marked, (.ok verdict, final)⟩] (.ok (.faultAbsorbed i.fault))
        { final with fault := none }
  /-- The registered handler is invoked once on the marked message, and raises a fault. -/
  | replaced {h : Handler} {raised : Fault} {final : Context}
      (hreg : Registered i.code i.failing i.faultChain h) :
      Handled i [⟨.invoke h i.marked, (.error raised, final)⟩] (.error raised) final
  /-- Nobody is registered, and the fault chain runs once on the marked message. -/
  | unregistered {events : List ExchangeEvent} {end_ : Except ChainFault ChainOutcome}
      {final : Context} (hnone : ∀ h, ¬ Registered i.code i.failing i.faultChain h)
      (hrun : Run (i.faultChain.execute i.marked) events (end_, final)) :
      Handled i events (.error i.fault) final

/-- Letting go of what is held. -/
def letGo : Option Nat → List ExchangeEvent
  | none => []
  | some deployment => [⟨.release deployment, ()⟩]

/-! ## Handling -/

theorem handled_of_run {i : Incident} {events : List ExchangeEvent}
    {result : Except Fault Outcome} {final : Context}
    (h : Run (handleFault i.faultChain i.failing i.fault i.context) events (result, final)) :
    Handled i events result final := by
  unfold handleFault at h
  dsimp only at h
  cases hfound : faultHandler? (i.context.faultCode i.fault) i.failing i.faultChain with
  | some handler =>
    have hreg : Registered i.code i.failing i.faultChain handler :=
      faultHandler?_eq_some_iff.mp hfound
    rw [hfound] at h
    obtain ⟨⟨verdict, ctx⟩, rest, rfl, hrest⟩ := Run.question_bind_iff.mp h
    cases verdict with
    | ok verdict =>
      obtain ⟨rfl, rfl, rfl⟩ := Run.pure_pair_iff.mp hrest
      exact Handled.absorbed hreg
    | error raised =>
      obtain ⟨rfl, rfl, rfl⟩ := Run.pure_pair_iff.mp hrest
      exact Handled.replaced hreg
  | none =>
    have hnone : ∀ handler, ¬ Registered i.code i.failing i.faultChain handler := by
      intro handler hreg
      have hsome := faultHandler?_eq_some_iff.mpr hreg
      exact absurd (hsome.symm.trans hfound) (by simp)
    rw [hfound] at h
    obtain ⟨front, ⟨outcome, ctx⟩, back, rfl, hrun, hrest⟩ := Run.bind_iff.mp h
    obtain ⟨rfl, rfl, rfl⟩ := Run.pure_pair_iff.mp hrest
    rw [List.append_nil]
    exact Handled.unregistered hnone hrun

/-! ## At most one incident -/

section Unique

variable {lease : Lease} {engineId : String} {ctx final : Context} {i i' : Incident}
  {before before' rest rest' : List ExchangeEvent} {outcome : ChainOutcome}

theorem RaisesOn.unique (h : RaisesOn lease ctx before i) (h' : RaisesOn lease ctx before' i')
    (heq : before ++ rest = before' ++ rest') : before = before' ∧ i = i' := by
  -- Both ways of failing would have to begin with the same run of the selected chain.
  cases h with
  | notOffered hrefused =>
    cases h' with
    | notOffered => exact ⟨rfl, rfl⟩
    | chain haccepted => exact absurd (haccepted.symm.trans hrefused) (by simp)
    | mustUnderstand haccepted => exact absurd (haccepted.symm.trans hrefused) (by simp)
  | chain haccepted hrun =>
    cases h' with
    | notOffered hrefused => exact absurd (haccepted.symm.trans hrefused) (by simp)
    | chain _ hrun' =>
      obtain ⟨rfl, hresult⟩ := hrun.unique_of_append hrun' heq
      obtain ⟨he, rfl⟩ := Prod.mk.inj hresult
      obtain rfl := Except.error.inj he
      exact ⟨rfl, rfl⟩
    | mustUnderstand _ hrun' =>
      obtain ⟨-, hresult⟩ := hrun.unique_of_append hrun' heq
      exact absurd (Prod.mk.inj hresult).1 (by simp)
  | mustUnderstand haccepted hrun _ hfault =>
    cases h' with
    | notOffered hrefused => exact absurd (haccepted.symm.trans hrefused) (by simp)
    | chain _ hrun' =>
      obtain ⟨-, hresult⟩ := hrun.unique_of_append hrun' heq
      exact absurd (Prod.mk.inj hresult).1 (by simp)
    | mustUnderstand _ hrun' _ hfault' =>
      obtain ⟨rfl, hresult⟩ := hrun.unique_of_append hrun' heq
      obtain ⟨-, rfl⟩ := Prod.mk.inj hresult
      obtain rfl := Option.some.inj (hfault.symm.trans hfault')
      exact ⟨rfl, rfl⟩

theorem SucceedsOn.not_raisesOn (h : SucceedsOn lease ctx before outcome final)
    (heq : before ++ rest = before' ++ rest') : ¬ RaisesOn lease ctx before' i := by
  intro hraises
  cases hraises with
  | notOffered hrefused => exact absurd (h.accepted.symm.trans hrefused) (by simp)
  | chain _ hrun' =>
    obtain ⟨-, hresult⟩ := h.run.unique_of_append hrun' heq
    exact absurd (Prod.mk.inj hresult).1 (by simp)
  | mustUnderstand _ hrun' hflow hfault =>
    obtain ⟨-, hresult⟩ := h.run.unique_of_append hrun' heq
    obtain ⟨-, rfl⟩ := Prod.mk.inj hresult
    exact absurd (hfault.symm.trans (h.understood hflow)) (by simp)

/-- The answers of a run determine whether a fault arises in it, and where and which. -/
theorem Raises.unique (h : Raises engineId ctx before i) (h' : Raises engineId ctx before' i')
    (heq : before ++ rest = before' ++ rest') : before = before' ∧ i = i' := by
  cases h with
  | notDeployed chains =>
    cases h' with
    | notDeployed chains' =>
      obtain ⟨-, hrest⟩ := List.cons_eq_cons.mp heq
      cases (List.cons_eq_cons.mp hrest).1
      exact ⟨rfl, rfl⟩
    | deployed => cases (List.cons_eq_cons.mp heq).1
  | deployed h =>
    cases h' with
    | notDeployed => cases (List.cons_eq_cons.mp heq).1
    | deployed h' =>
      obtain ⟨hlookup, hrest⟩ := List.cons_eq_cons.mp heq
      cases hlookup
      obtain ⟨rfl, rfl⟩ := h.unique h' hrest
      exact ⟨rfl, rfl⟩

end Unique

/-! ## Whole dispatches -/

section Dispatch

variable {engineId : String} {ctx final : Context} {events : List ExchangeEvent}
  {result : Except Fault Outcome}

@[simp] theorem service_stamped : (ctx.stamped engineId).service = ctx.service := by
  unfold Context.stamped
  split <;> rfl

@[simp] theorem flow_stamped : (ctx.stamped engineId).flow = ctx.flow := by
  unfold Context.stamped
  split <;> rfl

/-- On a deployment that is held a fault arises and is handled, or the chain succeeds. -/
theorem cases_of_serve {lease : Lease} (h : Run (lease.serve ctx) events (result, final)) :
    (∃ before i handling, events = before ++ handling ∧ i.held = some lease.deployment ∧
      RaisesOn lease ctx before i ∧ Handled i handling result final) ∨
    ∃ outcome, SucceedsOn lease ctx events outcome final ∧ result = .ok outcome.outcome := by
  unfold Lease.serve at h
  dsimp only at h
  cases haccepts : lease.accepts ctx.operation with
  | false =>
    rw [haccepts, if_neg Bool.false_ne_true] at h
    refine Or.inl ⟨[], _, events, rfl, rfl, RaisesOn.notOffered haccepts, ?_⟩
    exact handled_of_run h
  | true =>
    rw [haccepts, if_pos rfl] at h
    obtain ⟨front, ⟨answer, after⟩, back, rfl, hchain, hrest⟩ := Run.bind_iff.mp h
    cases answer with
    | error e =>
      refine Or.inl ⟨front, _, back, rfl, rfl, RaisesOn.chain haccepts hchain, ?_⟩
      exact handled_of_run hrest
    | ok outcome =>
      dsimp only at hrest
      have hdone : ∀ hunderstood : after.flow = .inbound →
            notUnderstood? (lease.chains.forFlow ctx.flow) after = none,
          Run (pure (.ok outcome.outcome, after)) back (result, final) →
          ∃ outcome, SucceedsOn lease ctx (front ++ back) outcome final ∧
            result = .ok outcome.outcome := by
        intro hunderstood hrun
        obtain ⟨rfl, rfl, rfl⟩ := Run.pure_pair_iff.mp hrun
        rw [List.append_nil]
        exact ⟨outcome, ⟨haccepts, hchain, hunderstood⟩, rfl⟩
      -- The direction is asked for again, since handlers may have turned the message round.
      by_cases hflow : after.flow = .inbound
      · rw [if_pos hflow] at hrest
        cases hfault : notUnderstood? (lease.chains.forFlow ctx.flow) after with
        | some fault =>
          rw [hfault] at hrest
          refine Or.inl ⟨front, _, back, rfl, rfl,
            RaisesOn.mustUnderstand haccepts hchain hflow hfault, ?_⟩
          exact handled_of_run hrest
        | none =>
          rw [hfault] at hrest
          exact Or.inr (hdone (fun _ => hfault) hrest)
      · rw [if_neg hflow] at hrest
        exact Or.inr (hdone (fun hin => absurd hin hflow) hrest)

theorem cases_of_dispatch (h : Run (dispatch engineId ctx) events (result, final)) :
    (∃ before i handling, events = before ++ handling ++ letGo i.held ∧
      Raises engineId ctx before i ∧ Handled i handling result final) ∨
    ∃ lease chainEvents outcome,
      events = ⟨.lookup ctx.service, some lease⟩ :: (chainEvents ++ letGo (some lease.deployment)) ∧
      SucceedsOn lease (ctx.stamped engineId) chainEvents outcome final ∧
      result = .ok outcome.outcome := by
  unfold dispatch at h
  dsimp only at h
  rw [service_stamped] at h
  obtain ⟨answer, rest, rfl, hrest⟩ := Run.question_bind_iff.mp h
  cases answer with
  | none =>
    obtain ⟨chains, handling, rfl, hhandling⟩ := Run.question_bind_iff.mp hrest
    refine Or.inl ⟨[_, _], _, handling, ?_, Raises.notDeployed chains, ?_⟩
    · exact (List.append_nil _).symm
    · exact handled_of_run hhandling
  | some lease =>
    obtain ⟨served, ⟨result', final'⟩, back, rfl, hserve, hback⟩ := Run.bind_iff.mp hrest
    obtain ⟨answer, back', rfl, hdone⟩ := Run.question_bind_iff.mp hback
    obtain ⟨rfl, rfl, rfl⟩ := Run.pure_pair_iff.mp hdone
    rcases cases_of_serve hserve with ⟨before, i, handling, rfl, hheld, hraises, hhandled⟩ |
      ⟨outcome, hsucceeds, hresult⟩
    · refine Or.inl ⟨_, i, handling, ?_, Raises.deployed hraises, hhandled⟩
      rw [hheld]
      rfl
    · exact Or.inr ⟨lease, served, outcome, rfl, hsucceeds, hresult⟩

/-- Either no fault arises in a dispatch and it ends as the selected chain ended, or exactly one
does.  That fault is then handled, and only that fault: by one invocation of the handler that is
registered for it, which takes it or raises another one in its place, or, if there is no such
handler, by one run of the fault chain, after which it is returned unchanged.  Behind that the
deployment is let go and nothing else happens. -/
theorem dispatch_conserves_faults
    (h : Run (dispatch engineId ctx) events (result, final)) :
    (∃ outcome : ChainOutcome, result = .ok outcome.outcome ∧
      ∀ before rest i, events = before ++ rest → ¬ Raises engineId ctx before i) ∨
    ∃ before i handling, events = before ++ handling ++ letGo i.held ∧
      Raises engineId ctx before i ∧ Handled i handling result final ∧
      ∀ before' rest' i', events = before' ++ rest' → Raises engineId ctx before' i' →
        before' = before ∧ i' = i := by
  rcases cases_of_dispatch h with ⟨before, i, handling, rfl, hraises, hhandled⟩ |
    ⟨lease, chainEvents, outcome, rfl, hsucceeds, rfl⟩
  · -- Two faults would have to arise at the same point of the same run.
    refine Or.inr ⟨before, i, handling, rfl, hraises, hhandled, ?_⟩
    intro before' rest' i' hsplit hraises'
    rw [List.append_assoc] at hsplit
    exact hraises'.unique hraises hsplit.symm
  · refine Or.inl ⟨outcome, rfl, ?_⟩
    intro before rest i hsplit hraises
    cases hraises with
    | notDeployed chains => cases (List.cons_eq_cons.mp hsplit).1
    | deployed hraises =>
      obtain ⟨hlookup, htail⟩ := List.cons_eq_cons.mp hsplit
      cases hlookup
      exact hsucceeds.not_raisesOn htail hraises

/-- A fault chain of one handler, to which faults of messages are offered. -/
def guardedChains : Chains :=
  let guard : Descriptor :=
    ⟨⟨"", "guard"⟩, ⟨1, []⟩, ⟨[("fault-Client", .text "")]⟩, .inPhase "service"⟩
  ⟨⟨.inbound, .engine, []⟩, ⟨.outbound, .engine, []⟩, ⟨.fault, .engine, [⟨"service", [guard]⟩]⟩⟩

/-- A message to a service that is not deployed. -/
def strayMessage : Context :=
  Context.fresh ⟨1⟩ ⟨"", "billing"⟩ ⟨"", "pay"⟩ .inbound .empty

theorem strayMessage_absorbed :
    ∃ events final,
      Run (dispatch "engine" strayMessage) events
        (.ok (.faultAbsorbed (notDeployed strayMessage.service)), final) ∧
      ∃ before i handling, events = before ++ handling ++ letGo i.held ∧
        Raises "engine" strayMessage before i ∧
        Handled i handling (.ok (.faultAbsorbed (notDeployed strayMessage.service))) final := by
  have hrun : Run (dispatch "engine" strayMessage)
      [⟨.lookup strayMessage.service, none⟩, ⟨.globalChains, guardedChains⟩,
        ⟨.invoke ⟨1, []⟩ { strayMessage.stamped "engine" with
          fault := some (notDeployed strayMessage.service) }, (.ok .proceed, strayMessage)⟩]
      (.ok (.faultAbsorbed (notDeployed strayMessage.service)), strayMessage) :=
    Run.ask (Run.ask (Run.ask (Run.done _)))
  refine ⟨_, _, hrun, ?_⟩
  rcases dispatch_conserves_faults hrun with ⟨outcome, heq, -⟩ |
    ⟨before, i, handling, hsplit, hraises, hhandled, -⟩
  · cases outcome <;> simp [ChainOutcome.outcome] at heq
  · exact ⟨before, i, handling, hsplit, hraises, hhandled⟩

end Dispatch

end SoapPipeline
