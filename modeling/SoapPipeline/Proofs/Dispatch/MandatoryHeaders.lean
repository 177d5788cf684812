/-
  SoapPipeline.Proofs.Dispatch.MandatoryHeaders

  Whether a message gets through with a mandatory header block that nobody
  understood.

  The blocks are looked at behind the inbound chain, as the handlers left them, and
  each one counts that is mandatory, not consumed, and claimed by no handler of the
  chain.  The direction of the message is looked at again as well, so that a handler
  which turns the message round has its blocks go unseen.

  Main results:
    * `notUnderstood?_eq_some_iff`: the fault names the first block that is missed;
    * `InboundEnds.unique`: an inbound chain ends well in one way only;
    * `enforced_of_inbound`: nobody gets round a mandatory block, if the message is
      still inbound when its chain ends;
    * `turned_message_passes`: otherwise it may get through.
-/
import SoapPipeline.Proofs.Dispatch.Conservation

namespace SoapPipeline

open Program

/-! ## Blocks that a chain misses -/

namespace Chain

/-- The header block is mandatory, nobody has consumed it, and no handler of the chain claims it. -/
structure Misses (c : Chain) (block : Header) : Prop where
  mandatory : block.mustUnderstand = true
  unprocessed : block.processed = false
  unclaimed : ∀ d ∈ c.handlers, d.handler.understands block.name = false

/-- The first header block of the message that the chain misses. -/
def MissesFirst (c : Chain) (ctx : Context) (block : Header) : Prop :=
  ∃ front back, ctx.headers = front ++ block :: back ∧ c.Misses block ∧
    ∀ earlier ∈ front, ¬ c.Misses earlier

end Chain

/-- The fault for a header block that was missed. -/
def notUnderstood (block : Header) : Fault :=
  ⟨FaultCode.mustUnderstand, "header " ++ block.name.text ++ " was not understood", none⟩

section Misses

variable {c : Chain} {ctx : Context} {block : Header} {fault : Fault}

theorem Chain.understands_eq_false_iff {name : QName} :
    c.understands name = false ↔ ∀ d ∈ c.handlers, d.handler.understands name = false := by
  unfold Chain.understands
  rw [List.any_eq_false]
  simp only [Bool.not_eq_true]

theorem Chain.misses_iff :
    c.Misses block ↔
      (block.mustUnderstand && !block.processed) = true ∧ (!c.understands block.name) = true := by
  rw [Bool.and_eq_true, Bool.not_eq_true', Bool.not_eq_true', Chain.understands_eq_false_iff]
  constructor
  · intro h
    exact ⟨⟨h.mandatory, h.unprocessed⟩, h.unclaimed⟩
  · intro h
    exact ⟨h.1.1, h.1.2, h.2⟩

instance : Decidable (c.Misses block) :=
  decidable_of_iff _ Chain.misses_iff.symm

/-- Looking through the blocks that are mandatory and not consumed for one that nobody claims is
looking through all blocks for one that is missed. -/
theorem find?_unprocessed :
    (ctx.unprocessed.find? fun b => !c.understands b.name) =
      ctx.headers.find? fun b => decide (c.Misses b) := by
  unfold Context.unprocessed
  rw [List.find?_filter]
  simp only [Chain.misses_iff]

/-- The fault is that of the first block that is missed. -/
theorem notUnderstood?_eq_some_iff :
    notUnderstood? c ctx = some fault ↔
      ∃ block, c.MissesFirst ctx block ∧ fault = notUnderstood block := by
  unfold notUnderstood?
  rw [Option.map_eq_some_iff, find?_unprocessed]
  simp only [List.find?_eq_some_iff_append, decide_eq_true_eq, Bool.not_eq_true',
    decide_eq_false_iff_not]
  constructor
  · rintro ⟨block, ⟨hmissed, front, back, hsplit, hfront⟩, rfl⟩
    exact ⟨block, ⟨front, back, hsplit, hmissed, hfront⟩, rfl⟩
  · rintro ⟨block, ⟨front, back, hsplit, hmissed, hfront⟩, rfl⟩
    exact ⟨block, ⟨hmissed, front, back, hsplit, hfront⟩, rfl⟩

/-- There is no fault if no block is missed. -/
theorem notUnderstood?_eq_none_iff :
    notUnderstood? c ctx = none ↔ ∀ block ∈ ctx.headers, ¬ c.Misses block := by
  unfold notUnderstood?
  rw [Option.map_eq_none_iff, find?_unprocessed, List.find?_eq_none]
  simp only [decide_eq_true_eq]

end Misses

/-! ## Inbound chains in a dispatch -/

section Dispatch

variable {engineId : String} {ctx after final : Context} {events rest : List ExchangeEvent}
  {result : Except Fault Outcome} {lease : Lease} {outcome : ChainOutcome}

/-- In a dispatch the service is found, it offers the operation, and its inbound chain ends well,
leaving the message like this; the rest happens behind the chain. -/
inductive InboundEnds (engineId : String) (ctx : Context) (events : List ExchangeEvent)
    (lease : Lease) (outcome : ChainOutcome) (after : Context) (rest : List ExchangeEvent) : Prop
  | mk {chainEvents : List ExchangeEvent}
      (hsplit : events = ⟨.lookup ctx.service, some lease⟩ :: (chainEvents ++ rest))
      (haccepted : lease.accepts (ctx.stamped engineId).operation = true)
      (hrun : Run (lease.chains.inbound.execute (ctx.stamped engineId)) chainEvents
        (.ok outcome, after))

/-- An inbound chain ends well in one way only. -/
theorem InboundEnds.unique {lease' : Lease} {outcome' : ChainOutcome} {after' : Context}
    {rest' : List ExchangeEvent} (h : InboundEnds engineId ctx events lease outcome after rest)
    (h' : InboundEnds engineId ctx events lease' outcome' after' rest') :
    lease = lease' ∧ outcome = outcome' ∧ after = after' ∧ rest = rest' := by
  cases h with
  | mk hsplit _ hrun =>
    cases h' with
    | mk hsplit' _ hrun' =>
      obtain ⟨hlookup, hevents⟩ := List.cons_eq_cons.mp (hsplit.symm.trans hsplit')
      cases hlookup
      obtain ⟨rfl, hresult⟩ := hrun.unique_of_append hrun' hevents
      cases hresult
      exact ⟨rfl, rfl, rfl, List.append_cancel_left hevents⟩

/-- The only fault that may arise after the inbound chain has ended well is that of a block which
it misses. -/
theorem InboundEnds.raised {before : List ExchangeEvent} {i : Incident}
    (h : InboundEnds engineId ctx events lease outcome after rest) (hflow : ctx.flow = .inbound)
    (hraises : Raises engineId ctx before i) {behind : List ExchangeEvent}
    (hevents : events = before ++ behind) :
    rest = behind ∧ ∃ fault, notUnderstood? lease.chains.inbound after = some fault ∧
      i = ⟨lease.chains.fault, none, fault, after, some lease.deployment⟩ := by
  cases h with
  | mk hsplit haccepted hrun =>
    rw [hsplit] at hevents
    cases hraises with
    | notDeployed chains => cases (List.cons_eq_cons.mp hevents).1
    | deployed hraises =>
      obtain ⟨hlookup, htail⟩ := List.cons_eq_cons.mp hevents
      cases hlookup
      have hselected : lease.chains.forFlow (ctx.stamped engineId).flow = lease.chains.inbound := by
        rw [flow_stamped, hflow]
        rfl
      cases hraises with
      | notOffered hrefused => exact absurd hrefused (ne_false_of_eq_true haccepted)
      | chain _ hfailed =>
        rw [hselected] at hfailed
        obtain ⟨-, hresult⟩ := hrun.unique_of_append hfailed htail
        cases hresult
      | mustUnderstand _ hended _ hfault =>
        rw [hselected] at hended hfault
        obtain ⟨rfl, hresult⟩ := hrun.unique_of_append hended htail
        cases hresult
        exact ⟨List.append_cancel_left htail, _, hfault, rfl⟩

/-- When no fault arises, the inbound chain has ended well. -/
theorem SucceedsOn.inboundEnds {chainEvents : List ExchangeEvent}
    (h : SucceedsOn lease (ctx.stamped engineId) chainEvents outcome final)
    (hflow : ctx.flow = .inbound) (rest : List ExchangeEvent) :
    InboundEnds engineId ctx (⟨.lookup ctx.service, some lease⟩ :: (chainEvents ++ rest)) lease
      outcome final rest := by
  have hrun := h.run
  rw [flow_stamped, hflow] at hrun
  exact InboundEnds.mk rfl h.accepted hrun

theorem outcome_injective : Function.Injective ChainOutcome.outcome := by
  intro first second h
  cases first <;> cases second <;> simp_all [ChainOutcome.outcome]

/-- A fault that is handled does not end like a chain without one. -/
theorem Handled.ne_outcome {i : Incident} {handling : List ExchangeEvent}
    (h : Handled i handling result final) : result ≠ .ok outcome.outcome := by
  intro hresult
  cases h with
  | absorbed => cases outcome <;> cases hresult
  | replaced => cases hresult
  | unregistered => cases hresult

/-! ## Mandatory header blocks -/

/-- Nobody gets round a mandatory header block. -/
structure Enforced (engineId : String) (ctx : Context) (events : List ExchangeEvent)
    (result : Except Fault Outcome) (final : Context) : Prop where
  /-- A dispatch that ends as its chain ended leaves no block that the chain misses. -/
  passed : ∀ outcome : ChainOutcome, result = .ok outcome.outcome →
    ∃ lease, InboundEnds engineId ctx events lease outcome final (letGo (some lease.deployment)) ∧
      ∀ block ∈ final.headers, ¬ lease.chains.inbound.Misses block
  /-- When the chain misses a block, the fault that names the first one is handled. -/
  refused : ∀ lease outcome after rest block,
    InboundEnds engineId ctx events lease outcome after rest →
    lease.chains.inbound.MissesFirst after block →
    ∃ handling, rest = handling ++ letGo (some lease.deployment) ∧
      Handled ⟨lease.chains.fault, none, notUnderstood block, after, some lease.deployment⟩
        handling result final

/-- When an inbound message is still inbound behind its chain, it gets through only without a
mandatory block that nobody has consumed and nobody claims.  If it has one, the fault that names
the first one is handled. -/
theorem enforced_of_inbound (hflow : ctx.flow = .inbound)
    (hrun : Run (dispatch engineId ctx) events (result, final))
    (hkept : ∀ lease outcome after rest,
      InboundEnds engineId ctx events lease outcome after rest → after.flow = .inbound) :
    Enforced engineId ctx events result final := by
  rcases cases_of_dispatch hrun with ⟨before, i, handling, rfl, hraises, hhandled⟩ |
    ⟨lease, chainEvents, outcome, rfl, hsucceeds, rfl⟩
  · -- A fault arose.  If the inbound chain had ended well, it is that of the block.
    refine ⟨fun outcome hresult => absurd hresult hhandled.ne_outcome, ?_⟩
    intro lease outcome after rest block hends hmissed
    obtain ⟨rfl, fault, hfault, rfl⟩ := hends.raised hflow hraises (List.append_assoc ..)
    have hfirst := notUnderstood?_eq_some_iff.mpr ⟨block, hmissed, rfl⟩
    obtain rfl := Option.some.inj (hfault.symm.trans hfirst)
    exact ⟨handling, rfl, hhandled⟩
  · -- No fault arose, and the message is still inbound, so that its blocks were looked at.
    have hends := hsucceeds.inboundEnds hflow (letGo (some lease.deployment))
    have hnone := hsucceeds.understood (hkept _ _ _ _ hends)
    rw [flow_stamped, hflow] at hnone
    have hunderstood := notUnderstood?_eq_none_iff.mp hnone
    constructor
    · intro outcome' hresult
      obtain rfl := outcome_injective (Except.ok.inj hresult)
      exact ⟨lease, hends, hunderstood⟩
    · intro lease' outcome' after rest block hends' hmissed
      obtain ⟨rfl, -, rfl, -⟩ := hends.unique hends'
      obtain ⟨front, back, hsplit, hmisses, -⟩ := hmissed
      refine absurd hmisses (hunderstood block ?_)
      rw [hsplit]
      exact List.mem_append_right _ List.mem_cons_self

end Dispatch

/-! ### A message with a seal -/

def sealBlock : Header := ⟨⟨"", "Seal"⟩, true, false⟩

def sealedMessage : Context :=
  { Context.fresh ⟨1⟩ ⟨"", "vault"⟩ ⟨"", "open"⟩ .inbound .empty with headers := [sealBlock] }

/-- A deployment with one inbound handler, which claims no header blocks. -/
def gatedLease : Lease :=
  let gate : Descriptor := ⟨⟨"", "gate"⟩, ⟨1, []⟩, .empty, .inPhase "service"⟩
  ⟨0, [], ⟨⟨.inbound, .engine, [⟨"service", [gate]⟩]⟩, ⟨.outbound, .engine, []⟩,
    ⟨.fault, .engine, []⟩⟩⟩

/-- What is asked for the sealed message, when the handler leaves it like this. -/
def gatedEvents (left : Context) : List ExchangeEvent :=
  [⟨.lookup sealedMessage.service, some gatedLease⟩,
    ⟨.invoke ⟨1, []⟩ (sealedMessage.stamped "engine"), (.ok .proceed, left)⟩, ⟨.release 0, ()⟩]

theorem gatedLease_ends (left : Context) :
    InboundEnds "engine" sealedMessage (gatedEvents left) gatedLease .completed left
      (letGo (some 0)) := by
  have hrun : Run (gatedLease.chains.inbound.execute (sealedMessage.stamped "engine"))
      [⟨.invoke ⟨1, []⟩ (sealedMessage.stamped "engine"), (.ok .proceed, left)⟩]
      (.ok .completed, left) :=
    Run.ask (Run.done _)
  exact InboundEnds.mk rfl rfl hrun

theorem gatedLease_misses : gatedLease.chains.inbound.Misses sealBlock := by
  decide

/-- A message that stays inbound does not get through with its seal. -/
theorem sealedMessage_refused :
    ∃ final, Run (dispatch "engine" sealedMessage) (gatedEvents sealedMessage)
        (.error (notUnderstood sealBlock), final) ∧
      Enforced "engine" sealedMessage (gatedEvents sealedMessage)
        (.error (notUnderstood sealBlock)) final := by
  have hrun : Run (dispatch "engine" sealedMessage) (gatedEvents sealedMessage)
      (.error (notUnderstood sealBlock),
        { sealedMessage with fault := some (notUnderstood sealBlock) }) :=
    Run.ask (Run.ask (Run.ask (Run.done _)))
  refine ⟨_, hrun, enforced_of_inbound rfl hrun ?_⟩
  intro lease outcome after rest hends
  obtain ⟨-, -, rfl, -⟩ := hends.unique (gatedLease_ends sealedMessage)
  rfl

/-- When the handler turns the message round, it gets through with its seal. -/
theorem turned_message_passes : ¬ ∀ (engineId : String) (ctx final : Context)
    (events : List ExchangeEvent) (result : Except Fault Outcome), ctx.flow = .inbound →
    Run (dispatch engineId ctx) events (result, final) →
    Enforced engineId ctx events result final := by
  intro hall
  let turned : Context := { sealedMessage with flow := .outbound }
  have hrun : Run (dispatch "engine" sealedMessage) (gatedEvents turned) (.ok .completed, turned) :=
    Run.ask (Run.ask (Run.ask (Run.done _)))
  have henforced := hall _ _ _ _ _ rfl hrun
  obtain ⟨lease, hends, hunderstood⟩ := henforced.passed .completed rfl
  obtain ⟨rfl, -⟩ := hends.unique (gatedLease_ends turned)
  exact hunderstood sealBlock List.mem_cons_self gatedLease_misses

end SoapPipeline
