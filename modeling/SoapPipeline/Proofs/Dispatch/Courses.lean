/-
  SoapPipeline.Proofs.Dispatch.Courses

  Which positions of its chains a dispatch has invoked, and whether it comes to one
  of them twice.

  A dispatch has at most two legs: the chain that the message selects, which is run
  to the end or to the handler that stops it, and what is done about a fault.  That
  is one handler, put up by the options of the one that failed or by a position of
  the fault chain, or a run of the fault chain.  A leg tells the positions whose turn
  it was, so that an instance which stands at several places is not taken for a
  retry.

  A message of the fault direction selects the fault chain itself.  When that chain
  fails it is where the fault is handled, and begins again.

  Main results:
    * `exists_length_of_failed`: the handlers that a chain has invoked when it fails;
    * `course_of_run`: every dispatch has a course, with the handlers of its legs;
    * `Course.unique`: and only one;
    * `nothing_retried`: no position is invoked twice, and no chain is run twice, if
      the fault chain is not started again after it has failed;
    * `fault_chain_retried`: otherwise it may happen.
-/
import Mathlib.Data.List.Nodup
import Mathlib.Data.List.Range
import SoapPipeline.Proofs.Dispatch.Conservation

namespace SoapPipeline

open Program

/-! ## Invoked handlers -/

/-- The handlers that were invoked, in this order. -/
def invoked (events : List ExchangeEvent) : List Handler :=
  events.filterMap fun e =>
    match e.question with
    | .invoke h _ => some h
    | _ => none

section Invoked

variable {handlers : List Handler} {ctx final : Context} {events : List ExchangeEvent} {c : Chain}

@[simp] theorem invoked_nil : invoked [] = [] := rfl

@[simp] theorem invoked_append (front back : List ExchangeEvent) :
    invoked (front ++ back) = invoked front ++ invoked back :=
  List.filterMap_append

@[simp] theorem invoked_invoke {h : Handler} {answer : Except Fault Verdict × Context} :
    invoked (⟨.invoke h ctx, answer⟩ :: events) = h :: invoked events := rfl

@[simp] theorem invoked_letGo (held : Option Nat) : invoked (letGo held) = [] := by
  cases held <;> rfl

theorem invoked_of_proceeds (h : Chain.Proceeds handlers ctx events final) :
    invoked events = handlers := by
  induction h with
  | nil => rfl
  | cons _ ih => rw [invoked_invoke, ih]

theorem invoked_of_unwound (h : Chain.Unwound handlers ctx events final) : invoked events = [] := by
  induction h with
  | nil => rfl
  | cons _ ih => exact ih

/-- The instances of the steps of a chain are those of its handlers. -/
theorem Chain.map_handler_steps :
    (c.steps.map fun step => step.2.handler) = c.handlers.map Descriptor.handler := by
  rw [← Chain.map_snd_steps, List.map_map]
  rfl

/-- A chain invokes its handlers in order, up to the one that stops it. -/
theorem invoked_isPrefix {answer : Except ChainFault ChainOutcome}
    (hrun : Run (c.execute ctx) events (answer, final)) :
    invoked events <+: c.handlers.map Descriptor.handler := by
  rw [← Chain.map_handler_steps]
  cases Chain.ended_of_run hrun with
  | completed hproceeds => exact ⟨[], by rw [List.append_nil, invoked_of_proceeds hproceeds]⟩
  | @shortCircuited front back phase d _ _ _ hsplit hproceeds =>
    rw [invoked_append, invoked_of_proceeds hproceeds, hsplit, List.map_append]
    exact (List.prefix_append_right_inj _).mpr (List.prefix_append [d.handler] _)
  | @failed front back phase d _ _ _ _ _ _ hsplit hproceeds hundone =>
    rw [invoked_append, invoked_of_proceeds hproceeds, invoked_invoke, invoked_of_unwound hundone,
      hsplit, List.map_append]
    exact (List.prefix_append_right_inj _).mpr (List.prefix_append [d.handler] _)

/-- The last one of the handlers that a failing chain has invoked is the one that failed. -/
theorem exists_length_of_failed {e : ChainFault}
    (hrun : Run (c.execute ctx) events (.error e, final)) :
    ∃ place, (invoked events).length = place + 1 ∧ c.handlers[place]? = some e.handler := by
  cases Chain.ended_of_run hrun with
  | @failed front back phase d _ _ _ _ _ _ hsplit hproceeds hundone =>
    refine ⟨front.length, ?_, ?_⟩
    · rw [invoked_append, invoked_of_proceeds hproceeds, invoked_invoke,
        invoked_of_unwound hundone, List.length_append, List.length_map]
      rfl
    · rw [← Chain.map_snd_steps, hsplit, List.map_append, List.map_cons,
        List.getElem?_append_right (by rw [List.length_map]), List.length_map, Nat.sub_self]
      rfl

/-- A chain that ends well without having invoked anybody leaves the message alone. -/
theorem eq_of_invoked_eq_nil {outcome : ChainOutcome}
    (hrun : Run (c.execute ctx) events (.ok outcome, final)) (hnil : invoked events = []) :
    final = ctx := by
  cases Chain.ended_of_run hrun with
  | completed hproceeds =>
    rw [invoked_of_proceeds hproceeds] at hnil
    rw [hnil] at hproceeds
    cases hproceeds with
    | nil => rfl
  | shortCircuited => simp at hnil

end Invoked

/-! ## Legs -/

/-- A position in the chains of a scope, counted from the front of the chain. -/
structure Position where
  flow : Flow
  place : Nat
  deriving DecidableEq

/-- A part of a dispatch in which handlers are invoked. -/
inductive Leg where
  /-- The chain of this direction is run, and so many of its handlers have their turn. -/
  | chain (flow : Flow) (turns : Nat)
  /-- The fault is offered to what this place of the fault chain has registered for it. -/
  | registered (place : Nat)
  /-- The fault is offered to what the options of the failing handler hold for it. -/
  | own
  deriving DecidableEq

namespace Leg

/-- The positions whose turn it is in a leg. -/
def positions : Leg → List Position
  | chain flow turns => (List.range turns).map fun place => ⟨flow, place⟩
  | registered place => [⟨.fault, place⟩]
  | own => []

/-- The direction of the chain that is run. -/
def chain? : Leg → Option Flow
  | chain flow _ => some flow
  | _ => none

/-- The handlers that are invoked in a leg belong to its positions. -/
inductive Invokes (scope : Chains) : Leg → List Handler → Prop
  | chain {flow : Flow} {handlers : List Handler}
      (hturns : handlers <+: (scope.forFlow flow).handlers.map Descriptor.handler) :
      Invokes scope (chain flow handlers.length) handlers
  | registered {code : QName} {place : Nat} {d : Descriptor} {h : Handler}
      (hplace : scope.fault.handlers[place]? = some d) (hputs : PutsUp code d h) :
      Invokes scope (registered place) [h]
  | own {code : QName} {flow : Flow} {d : Descriptor} {h : Handler}
      (hmember : d ∈ (scope.forFlow flow).handlers)
      (hget : d.options.get? (FaultCode.key code) = some (.handler h)) : Invokes scope own [h]

end Leg

/-! ## Courses -/

/-- The first place of the chain with something registered for faults of this code. -/
def Chain.registeredAt? (c : Chain) (code : QName) : Option Nat :=
  c.handlers.findIdx? fun d => d.options.contains (FaultCode.key code)

/-- The leg in which a fault is handled. -/
inductive Answered (i : Incident) : List ExchangeEvent → Leg → Prop
  | own {h : Handler} {answer : Except Fault Verdict × Context}
      (hown : OwnHandler i.code i.failing h) : Answered i [⟨.invoke h i.marked, answer⟩] .own
  | registered {place : Nat} {d : Descriptor} {h : Handler}
      {answer : Except Fault Verdict × Context}
      (hnone : ∀ h, ¬ OwnHandler i.code i.failing h)
      (hfirst : i.faultChain.registeredAt? i.code = some place)
      (hplace : i.faultChain.handlers[place]? = some d) (hputs : PutsUp i.code d h) :
      Answered i [⟨.invoke h i.marked, answer⟩] (.registered place)
  | unregistered {events : List ExchangeEvent} {end_ : Except ChainFault ChainOutcome}
      {final : Context} (hnone : ∀ h, ¬ OwnHandler i.code i.failing h)
      (hnowhere : i.faultChain.registeredAt? i.code = none)
      (hrun : Run (i.faultChain.execute i.marked) events (end_, final)) :
      Answered i events (.chain .fault (invoked events).length)

/-- The legs of a message on a deployment that is held. -/
inductive CourseOn (lease : Lease) (ctx : Context) (events : List ExchangeEvent) :
    List Leg → Prop
  | refused {i : Incident} {leg : Leg} (hrefused : lease.accepts ctx.operation = false)
      (hraises : RaisesOn lease ctx [] i) (hanswered : Answered i events leg) :
      CourseOn lease ctx events [leg]
  | failed {i : Incident} {before handling : List ExchangeEvent} {leg : Leg}
      (haccepted : lease.accepts ctx.operation = true) (hsplit : events = before ++ handling)
      (hraises : RaisesOn lease ctx before i) (hanswered : Answered i handling leg) :
      CourseOn lease ctx events [.chain ctx.flow (invoked before).length, leg]
  | succeeded {outcome : ChainOutcome} {final : Context}
      (hsucceeds : SucceedsOn lease ctx events outcome final) :
      CourseOn lease ctx events [.chain ctx.flow (invoked events).length]

/-- The legs of a dispatch, and the chains of the scope in which it takes place. -/
inductive Course (engineId : String) (ctx : Context) (events : List ExchangeEvent) :
    Chains → List Leg → Prop
  | notDeployed {chains : Chains} {handling : List ExchangeEvent} {leg : Leg}
      (hsplit : events = ⟨.lookup ctx.service, none⟩ :: ⟨.globalChains, chains⟩ :: handling)
      (hanswered : Answered
        ⟨chains.fault, none, notDeployed ctx.service, ctx.stamped engineId, none⟩ handling leg) :
      Course engineId ctx events chains [leg]
  | deployed {lease : Lease} {served : List ExchangeEvent} {legs : List Leg}
      (hsplit : events =
        ⟨.lookup ctx.service, some lease⟩ :: (served ++ letGo (some lease.deployment)))
      (hcourse : CourseOn lease (ctx.stamped engineId) served legs) :
      Course engineId ctx events lease.chains legs

section Answered

variable {code : QName} {failing : Option Descriptor} {c : Chain} {i : Incident}
  {handling : List ExchangeEvent} {leg leg' : Leg} {result : Except Fault Outcome}
  {final : Context}

theorem contains_of_putsUp {d : Descriptor} {h : Handler} (hputs : PutsUp code d h) :
    d.options.contains (FaultCode.key code) = true := by
  unfold Options.contains
  cases hputs with
  | handler hget => rw [hget, Option.isSome_some]
  | text hget => rw [hget, Option.isSome_some]

theorem registeredAt?_eq_length {front back : List Descriptor} {d : Descriptor} {h : Handler}
    (hchain : c.handlers = front ++ d :: back)
    (hfront : ∀ e ∈ front, e.options.get? (FaultCode.key code) = none)
    (hputs : PutsUp code d h) : c.registeredAt? code = some front.length := by
  have hnone : front.findIdx? (fun e => e.options.contains (FaultCode.key code)) = none := by
    rw [List.findIdx?_eq_none_iff]
    intro e he
    unfold Options.contains
    rw [hfront e he, Option.isSome_none]
  unfold Chain.registeredAt?
  rw [hchain, List.findIdx?_append, hnone, List.findIdx?_cons, contains_of_putsUp hputs]
  simp

theorem registeredAt?_eq_none (hnone : ∀ h, ¬ Registered code failing c h) :
    c.registeredAt? code = none := by
  have hfound : faultHandler? code failing c = none := by
    cases hfound : faultHandler? code failing c with
    | none => rfl
    | some h => exact absurd (faultHandler?_eq_some_iff.mp hfound) (hnone h)
  have hscope : c.handlers.findSome? (fun d => d.registeredFor? code) = none := by
    unfold faultHandler? at hfound
    split at hfound
    next => cases hfound
    next => exact hfound
  unfold Chain.registeredAt?
  rw [List.findIdx?_eq_none_iff]
  intro d hd
  have hget := registeredFor?_eq_none_iff.mp (List.findSome?_eq_none_iff.mp hscope d hd)
  unfold Options.contains
  rw [hget, Option.isSome_none]

/-- Whatever is done about a fault, is done in one leg. -/
theorem Handled.answered (h : Handled i handling result final) :
    ∃ leg, Answered i handling leg := by
  have hregistered : ∀ {handler : Handler} {answer : Except Fault Verdict × Context},
      Registered i.code i.failing i.faultChain handler →
      ∃ leg, Answered i [⟨.invoke handler i.marked, answer⟩] leg := by
    intro handler answer hreg
    cases hreg with
    | own hown => exact ⟨.own, Answered.own hown⟩
    | @scope d front back hnone hchain hfront hputs =>
      refine ⟨.registered front.length, Answered.registered hnone
        (registeredAt?_eq_length hchain hfront hputs) ?_ hputs⟩
      rw [hchain, List.getElem?_append_right (Nat.le_refl _), Nat.sub_self]
      rfl
  cases h with
  | absorbed hreg => exact hregistered hreg
  | replaced hreg => exact hregistered hreg
  | unregistered hnone hrun =>
    exact ⟨_, Answered.unregistered (fun h hown => hnone h (Registered.own hown))
      (registeredAt?_eq_none hnone) hrun⟩

theorem Answered.unique (h : Answered i handling leg) (h' : Answered i handling leg') :
    leg = leg' := by
  cases h with
  | own hown =>
    cases h' with
    | own => rfl
    | registered hnone => exact absurd hown (hnone _)
    | unregistered hnone => exact absurd hown (hnone _)
  | registered hnone hfirst =>
    cases h' with
    | own hown => exact absurd hown (hnone _)
    | registered _ hfirst' =>
      obtain rfl := Option.some.inj (hfirst.symm.trans hfirst')
      rfl
    | unregistered _ hnowhere => cases hfirst.symm.trans hnowhere
  | unregistered hnone hnowhere =>
    cases h' with
    | own hown => exact absurd hown (hnone _)
    | registered _ hfirst => cases hfirst.symm.trans hnowhere
    | unregistered => rfl

end Answered

section Course

variable {engineId : String} {ctx final : Context} {events : List ExchangeEvent}
  {result : Except Fault Outcome} {lease : Lease} {scope scope' : Chains} {legs legs' : List Leg}

theorem CourseOn.unique (h : CourseOn lease ctx events legs)
    (h' : CourseOn lease ctx events legs') : legs = legs' := by
  cases h with
  | refused hrefused hraises hanswered =>
    cases h' with
    | refused _ hraises' hanswered' =>
      have hsame : [] ++ events = [] ++ events := rfl
      obtain ⟨-, rfl⟩ := hraises.unique hraises' hsame
      rw [hanswered.unique hanswered']
    | failed haccepted => exact absurd hrefused (ne_false_of_eq_true haccepted)
    | succeeded hsucceeds => exact absurd hrefused (ne_false_of_eq_true hsucceeds.accepted)
  | failed haccepted hsplit hraises hanswered =>
    cases h' with
    | refused hrefused => exact absurd hrefused (ne_false_of_eq_true haccepted)
    | failed _ hsplit' hraises' hanswered' =>
      have hsame := hsplit.symm.trans hsplit'
      obtain ⟨rfl, rfl⟩ := hraises.unique hraises' hsame
      obtain rfl := List.append_cancel_left hsame
      rw [hanswered.unique hanswered']
    | succeeded hsucceeds =>
      rw [← List.append_nil events] at hsplit
      exact absurd hraises (hsucceeds.not_raisesOn hsplit)
  | succeeded hsucceeds =>
    cases h' with
    | refused hrefused => exact absurd hrefused (ne_false_of_eq_true hsucceeds.accepted)
    | failed _ hsplit hraises =>
      rw [← List.append_nil events] at hsplit
      exact absurd hraises (hsucceeds.not_raisesOn hsplit)
    | succeeded => rfl

/-- What is asked and answered determines the course of a dispatch. -/
theorem Course.unique (h : Course engineId ctx events scope legs)
    (h' : Course engineId ctx events scope' legs') : scope = scope' ∧ legs = legs' := by
  cases h with
  | notDeployed hsplit hanswered =>
    cases h' with
    | notDeployed hsplit' hanswered' =>
      obtain ⟨-, hrest⟩ := List.cons_eq_cons.mp (hsplit.symm.trans hsplit')
      obtain ⟨hchains, rfl⟩ := List.cons_eq_cons.mp hrest
      cases hchains
      rw [hanswered.unique hanswered']
      exact ⟨rfl, rfl⟩
    | deployed hsplit' => cases (List.cons_eq_cons.mp (hsplit.symm.trans hsplit')).1
  | deployed hsplit hcourse =>
    cases h' with
    | notDeployed hsplit' => cases (List.cons_eq_cons.mp (hsplit.symm.trans hsplit')).1
    | deployed hsplit' hcourse' =>
      obtain ⟨hlookup, hrest⟩ := List.cons_eq_cons.mp (hsplit.symm.trans hsplit')
      cases hlookup
      obtain rfl := List.append_cancel_right hrest
      exact ⟨rfl, hcourse.unique hcourse'⟩

/-- Every dispatch has a course. -/
theorem course_of_run (hrun : Run (dispatch engineId ctx) events (result, final)) :
    ∃ scope legs, Course engineId ctx events scope legs := by
  rcases cases_of_dispatch hrun with ⟨before, i, handling, rfl, hraises, hhandled⟩ |
    ⟨lease, chainEvents, outcome, rfl, hsucceeds, -⟩
  · -- A fault arose, and its incident tells whether a chain was run before.
    obtain ⟨leg, hanswered⟩ := hhandled.answered
    cases hraises with
    | notDeployed chains =>
      exact ⟨chains, [leg], Course.notDeployed (List.append_nil _) hanswered⟩
    | @deployed lease before _ hraises =>
      refine ⟨lease.chains, ?_⟩
      have hheld : i.held = some lease.deployment := by cases hraises <;> rfl
      have hsplit : ⟨.lookup ctx.service, some lease⟩ :: before ++ handling ++ letGo i.held =
          ⟨.lookup ctx.service, some lease⟩ ::
            ((before ++ handling) ++ letGo (some lease.deployment)) := by
        rw [hheld]
        rfl
      cases haccepts : lease.accepts (ctx.stamped engineId).operation with
      | false =>
        cases hraises with
        | notOffered hrefused =>
          exact ⟨_, Course.deployed hsplit
            (CourseOn.refused hrefused (RaisesOn.notOffered hrefused) hanswered)⟩
        | chain haccepted => exact absurd haccepts (ne_false_of_eq_true haccepted)
        | mustUnderstand haccepted => exact absurd haccepts (ne_false_of_eq_true haccepted)
      | true => exact ⟨_, Course.deployed hsplit (CourseOn.failed haccepts rfl hraises hanswered)⟩
  · exact ⟨lease.chains, _, Course.deployed rfl (CourseOn.succeeded hsucceeds)⟩

/-! ## What a course invokes -/

/-- A fault is raised by a handler of the chains, if not by the engine. -/
theorem RaisesOn.failing_mem {before : List ExchangeEvent} {i : Incident} {d : Descriptor}
    (h : RaisesOn lease ctx before i) (hd : i.failing = some d) :
    ∃ place, (invoked before).length = place + 1 ∧
      (lease.chains.forFlow ctx.flow).handlers[place]? = some d := by
  cases h with
  | notOffered => cases hd
  | chain _ hrun =>
    obtain rfl := Option.some.inj hd
    exact exists_length_of_failed hrun
  | mustUnderstand => cases hd

theorem Answered.invokes {i : Incident} {handling : List ExchangeEvent} {leg : Leg}
    (h : Answered i handling leg) (hfault : i.faultChain = scope.fault)
    (hfailing : ∀ d, i.failing = some d → ∃ flow, d ∈ (scope.forFlow flow).handlers) :
    leg.Invokes scope (invoked handling) := by
  cases h with
  | own hown =>
    obtain ⟨d, hd, hget⟩ := hown
    obtain ⟨flow, hmember⟩ := hfailing d hd
    exact Leg.Invokes.own hmember hget
  | registered _ _ hplace hputs =>
    rw [hfault] at hplace
    exact Leg.Invokes.registered hplace hputs
  | unregistered _ _ hrun =>
    rw [hfault] at hrun
    apply Leg.Invokes.chain
    exact invoked_isPrefix hrun

theorem CourseOn.invokes (h : CourseOn lease ctx events legs) :
    ∃ handlers, List.Forall₂ (Leg.Invokes lease.chains) legs handlers ∧
      invoked events = handlers.flatten := by
  have hanswers : ∀ {i : Incident} {before handling : List ExchangeEvent} {leg : Leg},
      RaisesOn lease ctx before i → Answered i handling leg →
      leg.Invokes lease.chains (invoked handling) := by
    intro i before handling leg hraises hanswered
    refine hanswered.invokes (by cases hraises <;> rfl) fun d hd => ?_
    obtain ⟨place, -, hplace⟩ := hraises.failing_mem hd
    exact ⟨ctx.flow, List.mem_of_getElem? hplace⟩
  cases h with
  | refused _ hraises hanswered =>
    exact ⟨[invoked events], .cons (hanswers hraises hanswered) .nil, by simp⟩
  | @failed i before handling leg haccepted hsplit hraises hanswered =>
    have hselected : (Leg.chain ctx.flow (invoked before).length).Invokes lease.chains
        (invoked before) := by
      cases hraises with
      | notOffered hrefused => exact absurd hrefused (ne_false_of_eq_true haccepted)
      | chain _ hrun => exact Leg.Invokes.chain (invoked_isPrefix hrun)
      | mustUnderstand _ hrun => exact Leg.Invokes.chain (invoked_isPrefix hrun)
    refine ⟨[invoked before, invoked handling],
      .cons hselected (.cons (hanswers hraises hanswered) .nil), ?_⟩
    rw [hsplit]
    simp
  | succeeded hsucceeds =>
    exact ⟨[invoked events], .cons (Leg.Invokes.chain (invoked_isPrefix hsucceeds.run)) .nil,
      by simp⟩

/-- What is invoked in a dispatch is what its legs invoke, one leg after the other. -/
theorem Course.invokes (h : Course engineId ctx events scope legs) :
    ∃ handlers, List.Forall₂ (Leg.Invokes scope) legs handlers ∧
      invoked events = handlers.flatten := by
  cases h with
  | @notDeployed _ handling leg hsplit hanswered =>
    have hnobody : ∀ d : Descriptor, none = some d → ∃ flow, d ∈ (scope.forFlow flow).handlers :=
      fun d hd => absurd hd (Option.some_ne_none d).symm
    refine ⟨[invoked handling], .cons (hanswered.invokes rfl hnobody) .nil, ?_⟩
    rw [hsplit, List.flatten_singleton]
    rfl
  | @deployed _ served _ hsplit hcourse =>
    obtain ⟨handlers, hinvokes, hserved⟩ := hcourse.invokes
    refine ⟨handlers, hinvokes, ?_⟩
    rw [hsplit, ← hserved]
    show invoked (served ++ letGo (some _)) = invoked served
    rw [invoked_append, invoked_letGo, List.append_nil]

/-- The handler that raised the fault is the last one that had its turn in the selected chain. -/
theorem Course.failing {before rest : List ExchangeEvent} {i : Incident} {d : Descriptor}
    (h : Course engineId ctx events scope legs) (hsplit : events = before ++ rest)
    (hraises : Raises engineId ctx before i) (hd : i.failing = some d) :
    ∃ place leg, legs = [.chain ctx.flow (place + 1), leg] ∧
      (scope.forFlow ctx.flow).handlers[place]? = some d := by
  cases hraises with
  | notDeployed => cases hd
  | @deployed lease before _ hraises =>
    cases h with
    | notDeployed hevents => cases (List.cons_eq_cons.mp (hsplit.symm.trans hevents)).1
    | @deployed lease' served _ hevents hcourse =>
      obtain ⟨hlookup, hrest⟩ := List.cons_eq_cons.mp (hsplit.symm.trans hevents)
      cases hlookup
      obtain ⟨place, hlength, hplace⟩ := hraises.failing_mem hd
      rw [flow_stamped] at hplace
      cases hcourse with
      | @refused i' leg hrefused hraises' =>
        have hsame : before ++ rest = [] ++ (served ++ letGo (some lease.deployment)) := hrest
        obtain ⟨rfl, rfl⟩ := hraises.unique hraises' hsame
        cases hlength
      | @failed i' before' handling leg _ hserved hraises' =>
        rw [hserved, List.append_assoc] at hrest
        obtain ⟨rfl, rfl⟩ := hraises.unique hraises' hrest
        refine ⟨place, leg, ?_, hplace⟩
        rw [hlength, flow_stamped]
      | succeeded hsucceeds => exact absurd hraises (hsucceeds.not_raisesOn hrest.symm)

end Course

/-! ## Retries -/

/-- Handling the fault does not come back to a position that had its turn before the fault arose:
there was none, or the fault is taken by the options of the failing handler, or by a position that
the chain had not reached. -/
inductive Spared (invoked : List Handler) (i : Incident) : Prop
  | untouched (hnobody : invoked = [])
  | own {h : Handler} (hown : OwnHandler i.code i.failing h)
  | ahead {place : Nat} (hfirst : i.faultChain.registeredAt? i.code = some place)
      (hahead : invoked.length ≤ place)

/-- No position has its turn twice, and no chain is run twice. -/
structure Unrepeated (legs : List Leg) : Prop where
  positions : (legs.flatMap Leg.positions).Nodup
  chains : (legs.filterMap Leg.chain?).Nodup

section Retries

variable {engineId : String} {ctx final : Context} {events before handling : List ExchangeEvent}
  {result : Except Fault Outcome} {lease : Lease} {legs : List Leg} {leg : Leg} {i : Incident}

theorem Leg.nodup_positions : leg.positions.Nodup := by
  cases leg with
  | chain flow turns =>
    refine List.Nodup.map ?_ List.nodup_range
    intro place place' heq
    exact (Position.mk.inj heq).2
  | registered place => exact List.nodup_singleton _
  | own => exact List.nodup_nil

theorem unrepeated_singleton : Unrepeated [leg] := by
  constructor
  · rw [List.flatMap_singleton]
    exact Leg.nodup_positions
  · cases leg with
    | chain flow turns => exact List.nodup_singleton flow
    | registered place => exact List.nodup_nil
    | own => exact List.nodup_nil

theorem unrepeated_pair {leg' : Leg} (hpositions : ∀ p ∈ leg.positions, p ∉ leg'.positions)
    (hchains : ∀ flow, leg.chain? = some flow → leg'.chain? ≠ some flow) :
    Unrepeated [leg, leg'] := by
  constructor
  · simp only [List.flatMap_cons, List.flatMap_nil, List.append_nil]
    apply List.Nodup.append Leg.nodup_positions Leg.nodup_positions
    intro p hp hp'
    exact hpositions p hp hp'
  · cases hfirst : leg.chain? with
    | none => cases hsecond : leg'.chain? <;> simp [hfirst, hsecond]
    | some flow =>
      have hother := hchains flow hfirst
      cases hsecond : leg'.chain? with
      | none => simp [hfirst, hsecond]
      | some flow' =>
        rw [hsecond] at hother
        simp only [List.filterMap_cons, hfirst, hsecond, List.filterMap_nil]
        simpa [eq_comm] using hother

/-- Positions of another direction than that of the fault chain are not met again there. -/
theorem Answered.unrepeated_of_ne {flow : Flow} {turns : Nat} (h : Answered i handling leg)
    (hflow : flow ≠ .fault) : Unrepeated [.chain flow turns, leg] := by
  apply unrepeated_pair
  · intro p hp hp'
    obtain ⟨place, -, rfl⟩ := List.mem_map.mp hp
    cases h with
    | own => cases hp'
    | registered => exact hflow (Position.mk.inj (List.mem_singleton.mp hp')).1
    | unregistered =>
      obtain ⟨place', -, heq⟩ := List.mem_map.mp hp'
      exact hflow (Position.mk.inj heq).1.symm
  · intro flow' hflow'
    obtain rfl := Option.some.inj hflow'
    cases h <;> simp [Leg.chain?, hflow.symm]

/-- When the fault chain itself fails, the fault is handled elsewhere, or further on. -/
theorem Answered.unrepeated_of_spared (h : Answered i handling leg)
    (hspared : Spared (invoked before) i) (htouched : invoked before ≠ []) :
    Unrepeated [.chain .fault (invoked before).length, leg] := by
  cases h with
  | own =>
    apply unrepeated_pair
    · exact fun p _ => List.not_mem_nil
    · intro flow _ hflow
      cases hflow
  | @registered place _ _ _ hnone hfirst =>
    have hahead : (invoked before).length ≤ place := by
      cases hspared with
      | untouched hnobody => exact absurd hnobody htouched
      | own hown => exact absurd hown (hnone _)
      | ahead hfirst' hahead =>
        obtain rfl := Option.some.inj (hfirst.symm.trans hfirst')
        exact hahead
    apply unrepeated_pair
    · intro p hmember hregistered
      obtain ⟨earlier, hearlier, rfl⟩ := List.mem_map.mp hmember
      have heq := (Position.mk.inj (List.mem_singleton.mp hregistered)).2
      rw [List.mem_range] at hearlier
      omega
    · intro flow _ hflow
      cases hflow
  | unregistered hnone hnowhere =>
    -- The fault chain would be run again, which none of the cases allows.
    cases hspared with
    | untouched hnobody => exact absurd hnobody htouched
    | own hown => exact absurd hown (hnone _)
    | ahead hfirst => cases hfirst.symm.trans hnowhere

/-- A fault chain that raises a fault, or leaves one that was missed, has invoked somebody. -/
theorem RaisesOn.invoked_ne_nil (h : RaisesOn lease ctx before i)
    (haccepted : lease.accepts ctx.operation = true) (hflow : ctx.flow = .fault) :
    invoked before ≠ [] := by
  intro hnobody
  cases h with
  | notOffered hrefused => exact absurd hrefused (ne_false_of_eq_true haccepted)
  | chain _ hrun =>
    obtain ⟨place, hlength, -⟩ := exists_length_of_failed hrun
    rw [hnobody] at hlength
    cases hlength
  | mustUnderstand _ hrun hinbound =>
    rw [eq_of_invoked_eq_nil hrun hnobody, hflow] at hinbound
    cases hinbound

theorem CourseOn.unrepeated (h : CourseOn lease ctx events legs)
    (hspared : ctx.flow = .fault → ∀ before rest i, events = before ++ rest →
      RaisesOn lease ctx before i → Spared (invoked before) i) : Unrepeated legs := by
  cases h with
  | refused => exact unrepeated_singleton
  | @failed i before handling leg haccepted hsplit hraises hanswered =>
    by_cases hflow : ctx.flow = .fault
    · have htouched := hraises.invoked_ne_nil haccepted hflow
      rw [hflow]
      exact hanswered.unrepeated_of_spared (hspared hflow before handling i hsplit hraises) htouched
    · exact hanswered.unrepeated_of_ne hflow
  | succeeded => exact unrepeated_singleton

/-- In a dispatch nothing is retried, if a message of the fault direction finds its fault handled
without the positions that had their turn: the handlers of each leg are those of its positions, no
position has its turn twice, not the one that failed either, and no chain is run twice. -/
theorem nothing_retried (hrun : Run (dispatch engineId ctx) events (result, final))
    (hspared : ctx.flow = .fault → ∀ before rest i, events = before ++ rest →
      Raises engineId ctx before i → Spared (invoked before) i) :
    ∃ scope legs, Course engineId ctx events scope legs ∧
      (∃ handlers, List.Forall₂ (Leg.Invokes scope) legs handlers ∧
        invoked events = handlers.flatten) ∧
      (∀ before rest i d, events = before ++ rest → Raises engineId ctx before i →
        i.failing = some d → ∃ place leg, legs = [.chain ctx.flow (place + 1), leg] ∧
          (scope.forFlow ctx.flow).handlers[place]? = some d) ∧
      Unrepeated legs := by
  obtain ⟨scope, legs, hcourse⟩ := course_of_run hrun
  refine ⟨scope, legs, hcourse, hcourse.invokes, ?_, ?_⟩
  · intro before rest i d hsplit hraises hd
    exact hcourse.failing hsplit hraises hd
  · cases hcourse with
    | notDeployed => exact unrepeated_singleton
    | @deployed lease served _ hevents hcourse =>
      apply hcourse.unrepeated
      intro hflow before rest i hsplit hraises
      rw [flow_stamped] at hflow
      show Spared (invoked (⟨.lookup ctx.service, some lease⟩ :: before)) i
      refine hspared hflow _ (rest ++ letGo (some lease.deployment)) i ?_ (Raises.deployed hraises)
      rw [hevents, hsplit, List.append_assoc]
      rfl

end Retries

/-! ### A message that comes back -/

def returnedMessage : Context :=
  Context.fresh ⟨1⟩ ⟨"", "mail"⟩ ⟨"", "deliver"⟩ .fault .empty

/-- The message as the engine has stamped it. -/
def returnedRequest : Context := returnedMessage.stamped "engine"

def lost : Fault := ⟨⟨"", "Lost"⟩, "nobody took the message", none⟩

/-- A handler that raises the fault, and is registered for nothing. -/
def returner : Descriptor := ⟨⟨"", "returner"⟩, ⟨1, []⟩, .empty, .inPhase "service"⟩

/-- A handler that is registered for the fault. -/
def finder : Descriptor :=
  ⟨⟨"", "finder"⟩, ⟨2, []⟩, ⟨[("fault-Lost", .text "")]⟩, .inPhase "service"⟩

/-- A deployment with these handlers in its fault chain, and no others. -/
def mailLease (handlers : List Descriptor) : Lease :=
  ⟨0, [], ⟨⟨.inbound, .engine, []⟩, ⟨.outbound, .engine, []⟩,
    ⟨.fault, .engine, [⟨"service", handlers⟩]⟩⟩⟩

/-- The fault arises in the fault chain. -/
def lostIncident (others : List Descriptor) : Incident :=
  ⟨(mailLease (returner :: others)).chains.fault, some returner, lost, returnedRequest, some 0⟩

/-- The first handler of the fault chain is invoked, and fails. -/
def returnerFails : ExchangeEvent :=
  ⟨.invoke returner.handler returnedRequest, (.error lost, returnedRequest)⟩

theorem raisesOn_returned (others : List Descriptor) :
    RaisesOn (mailLease (returner :: others)) returnedRequest [returnerFails]
      (lostIncident others) := by
  let lease := mailLease (returner :: others)
  have hrun : Run ((lease.chains.forFlow returnedRequest.flow).execute returnedRequest)
      [returnerFails] (.error ⟨lost, returner, "service"⟩, returnedRequest) := Run.ask (Run.done _)
  exact RaisesOn.chain rfl hrun

/-- A handler behind the one that failed takes the fault. -/
theorem returnedMessage_found : ∃ events final scope legs,
    Run (dispatch "engine" returnedMessage) events (.ok (.faultAbsorbed lost), final) ∧
      Course "engine" returnedMessage events scope legs ∧ invoked events = [⟨1, []⟩, ⟨2, []⟩] ∧
      Unrepeated legs := by
  let marked : Context := (lostIncident [finder]).marked
  let events : List ExchangeEvent :=
    [⟨.lookup returnedMessage.service, some (mailLease [returner, finder])⟩, returnerFails,
      ⟨.invoke finder.handler marked, (.ok .proceed, returnedRequest)⟩, ⟨.release 0, ()⟩]
  have hrun : Run (dispatch "engine" returnedMessage) events
      (.ok (.faultAbsorbed lost), returnedRequest) :=
    Run.ask (Run.ask (Run.ask (Run.ask (Run.done _))))
  have hspared : returnedMessage.flow = .fault → ∀ before rest i, events = before ++ rest →
      Raises "engine" returnedMessage before i → Spared (invoked before) i := by
    intro _ before rest i hsplit hraises
    have hreturned := Raises.deployed (raisesOn_returned [finder])
    obtain ⟨rfl, rfl⟩ := hraises.unique hreturned hsplit.symm
    have hfirst : (lostIncident [finder]).faultChain.registeredAt? (lostIncident [finder]).code =
        some 1 := by decide
    exact Spared.ahead hfirst (Nat.le_refl 1)
  obtain ⟨scope, legs, hcourse, -, -, hunrepeated⟩ := nothing_retried hrun hspared
  exact ⟨events, returnedRequest, scope, legs, hrun, hcourse, rfl, hunrepeated⟩

/-- When nobody is registered for a fault of the fault chain, that chain is run again, and its first
handler is invoked again. -/
theorem fault_chain_retried : ¬ ∀ (engineId : String) (ctx final : Context)
    (events : List ExchangeEvent) (result : Except Fault Outcome),
    Run (dispatch engineId ctx) events (result, final) →
    ∃ scope legs, Course engineId ctx events scope legs ∧ Unrepeated legs := by
  intro hall
  let marked : Context := (lostIncident []).marked
  let again : ExchangeEvent := ⟨.invoke returner.handler marked, (.error lost, returnedRequest)⟩
  let events : List ExchangeEvent :=
    [⟨.lookup returnedMessage.service, some (mailLease [returner])⟩, returnerFails, again,
      ⟨.release 0, ()⟩]
  have hrun : Run (dispatch "engine" returnedMessage) events (.error lost, returnedRequest) :=
    Run.ask (Run.ask (Run.ask (Run.ask (Run.done _))))
  have hanswered : Answered (lostIncident []) [again] (.chain .fault 1) := by
    have hnone : ∀ h, ¬ OwnHandler (lostIncident []).code (lostIncident []).failing h := by
      rintro h ⟨d, hd, hget⟩
      obtain rfl := Option.some.inj hd
      cases hget
    have hagain : Run ((lostIncident []).faultChain.execute (lostIncident []).marked) [again]
        (.error ⟨lost, returner, "service"⟩, returnedRequest) := Run.ask (Run.done _)
    exact Answered.unregistered hnone (by decide) hagain
  have hcourse : Course "engine" returnedMessage events (mailLease [returner]).chains
      [.chain .fault 1, .chain .fault 1] := by
    have hserved := CourseOn.failed rfl rfl (raisesOn_returned []) hanswered
    exact Course.deployed rfl hserved
  obtain ⟨scope, legs, hcourse', hunrepeated⟩ := hall _ _ _ _ _ hrun
  obtain ⟨-, rfl⟩ := hcourse.unique hcourse'
  exact absurd hunrepeated.chains (by decide)

end SoapPipeline
