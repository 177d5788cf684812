/-
  SoapPipeline.Proofs.Dispatch.Selection

  Which of several handlers that are registered for a fault gets it.

  A fault that the failing handler has no handler of its own for is offered to the first
  registered handler of the fault chain.  The chain is not in the order of declaration.
  Global handlers are declared ahead of those of the service, but the fault chain runs
  the phases backwards, and rules move handlers within their phase.  So the handler that
  is declared first gets the fault where phases and rules keep it ahead of all others
  that are registered for the same code.

  Main results:
    * `findSome?_eq_of_ahead`: what is found first in two arrangements of one list;
    * `ahead_of_runsAhead`: what keeps a handler ahead of another one in a chain;
    * `offered_to_first_declared`: a dispatch offers a fault to the handler declared
      first, if that one is kept ahead;
    * `branch_offered`: where it is not, another handler gets the fault.
-/
import SoapPipeline.Proofs.Chain.Partition
import SoapPipeline.Proofs.Dispatch.Conservation
import SoapPipeline.Proofs.Phase.Insertion

namespace SoapPipeline

open Program

/-! ## Searching an arrangement -/

/-- In an arrangement that has the first find of a list ahead of all later ones, the same is
found first. -/
theorem findSome?_eq_of_ahead {α β : Type} {f : α → Option β} {declared arranged : List α}
    (hnodup : declared.Nodup) (hperm : arranged.Perm declared)
    (hahead : ∀ front a back, declared = front ++ a :: back → (∀ b ∈ front, f b = none) →
      (f a).isSome → ∀ b ∈ back, (f b).isSome → Ahead arranged a b) :
    arranged.findSome? f = declared.findSome? f := by
  cases hfound : declared.findSome? f with
  | none =>
    rw [List.findSome?_eq_none_iff] at hfound ⊢
    exact fun a ha => hfound a (hperm.mem_iff.mp ha)
  | some found =>
    obtain ⟨front, a, back, hdeclared, ha, hfront⟩ := List.findSome?_eq_some_iff.mp hfound
    have hmem : a ∈ arranged := by
      rw [hperm.mem_iff, hdeclared]
      exact List.mem_append_right front List.mem_cons_self
    obtain ⟨left, right, harranged⟩ := List.append_of_mem hmem
    have hcut : (left ++ a :: right).Nodup := harranged ▸ hperm.nodup_iff.mpr hnodup
    refine List.findSome?_eq_some_iff.mpr ⟨left, a, right, harranged, ha, ?_⟩
    intro b hb
    -- Another find to the left of `a` would be declared behind it, and so stand to its right.
    cases hother : f b with
    | none => rfl
    | some other =>
      have hdeclared_b : b ∈ front ++ a :: back := by
        rw [← hdeclared, ← hperm.mem_iff, harranged]
        exact List.mem_append_left _ hb
      have hdisjoint := (List.nodup_append.mp hcut).2.2 b hb
      rcases List.mem_append.mp hdeclared_b with hearly | hlate
      · exact absurd (hfront b hearly) (by simp [hother])
      · rcases List.mem_cons.mp hlate with rfl | hlate
        · exact absurd rfl (hdisjoint b List.mem_cons_self)
        · have hright := hahead front a back hdeclared hfront (by simp [ha]) b hlate
            (by simp [hother])
          rw [harranged, ahead_cut_iff hcut] at hright
          exact absurd rfl (hdisjoint b (List.mem_cons_of_mem a hright))

/-! ## Handlers that are kept ahead -/

/-- Phases and rules have `d` run ahead of `e`, when these handlers are declared in this order
and the phases run in that one. -/
inductive RunsAhead (order : List String) (declared : List Descriptor) (d e : Descriptor) :
    Prop
  /-- The phase of `d` runs ahead of the phase of `e`. -/
  | phase (h : Ahead order d.rule.phase e.rule.phase)
  /-- In the phase of both, no order that satisfies the rules has `d` behind `e`. -/
  | rules (hphase : e.rule.phase = d.rule.phase)
      (h : Phase.Forced (Chain.targeting d.rule.phase declared) d e)
  /-- In the phase of both, no rule concerns either, and `d` is declared ahead of `e`. -/
  | declared (hphase : e.rule.phase = d.rule.phase) (h : Ahead declared d e)
      (hd : Phase.Free (Chain.targeting d.rule.phase declared) d)
      (he : Phase.Free (Chain.targeting d.rule.phase declared) e)

namespace Chain

variable {flow : Flow} {scope : Scope} {order : List String} {declared : List Descriptor}
  {c : Chain} {d e : Descriptor}

theorem mem_targeting {name : String} :
    d ∈ targeting name declared ↔ d ∈ declared ∧ d.rule.phase = name := by
  unfold targeting
  rw [List.mem_filter, decide_eq_true_iff]

/-- What has a handler run ahead of another one is kept in a chain. -/
theorem ahead_of_runsAhead (h : resolve flow scope order declared = .ok c) (hd : d ∈ declared)
    (he : e ∈ declared) (hruns : RunsAhead order declared d e) : Ahead c.handlers d e := by
  obtain ⟨-, hcovers, hresolved, -, -⟩ := resolve_eq_ok_iff.mp h
  -- A phase holds the handlers that target it.
  have hholds : ∀ p ∈ c.phases, ∀ f ∈ declared, f.rule.phase = p.name → f ∈ p.handlers := by
    intro p hp f hf hphase
    have hperm := (Phase.admissible_of_resolve (hresolved.resolve_of_mem hp)).perm
    exact hperm.mem_iff.mpr (mem_targeting.mpr ⟨hf, hphase⟩)
  cases hruns with
  | phase hahead =>
    rw [← hresolved.names] at hahead
    obtain ⟨p, q, hpq, hp, hq⟩ := hahead.exists_of_map
    exact hpq.flatMap (hholds p hpq.mem_left d hd hp.symm) (hholds q hpq.mem_right e he hq.symm)
  | rules _ hforced =>
    obtain ⟨p, hp, hresolve⟩ := hresolved.exists_mem (hcovers d hd)
    exact Ahead.flatMap_of_mem hp (hforced p.handlers (Phase.admissible_of_resolve hresolve))
  | declared hphase hahead hfree hfree' =>
    obtain ⟨p, hp, hresolve⟩ := hresolved.exists_mem (hcovers d hd)
    obtain ⟨g, places, hfound, rfl⟩ := Phase.exists_found_of_resolve hresolve
    refine Ahead.flatMap_of_mem hp (hfound.ahead_of_free hfree hfree' ?_)
    exact hahead.filter (by simp) (by simp [hphase])

end Chain

/-! ## The handler declared first -/

/-- Of the handlers that are registered for this code, the one declared first runs ahead of the
others. -/
def KeepsFirst (order : List String) (declared : List Descriptor) (code : QName) : Prop :=
  ∀ front d back, declared = front ++ d :: back → (∀ e ∈ front, e.registeredFor? code = none) →
    (d.registeredFor? code).isSome → ∀ e ∈ back, (e.registeredFor? code).isSome →
    RunsAhead order declared d e

section Dispatch

variable {code : QName} {failing : Option Descriptor} {c : Chain} {lease : Lease}
  {order : PhaseOrder} {scope : Scope} {globals own : Flows} {engineId : String}
  {ctx final : Context} {before after : List ExchangeEvent} {i : Incident}
  {result : Except Fault Outcome}

/-- Without a handler of the failing one's own, the fault chain is searched. -/
theorem faultHandler?_of_uncovered (huncovered : ∀ h, ¬ OwnHandler code failing h) :
    faultHandler? code failing c = c.handlers.findSome? fun d => d.registeredFor? code := by
  unfold faultHandler?
  cases hown : failing.bind fun d => d.options.faultHandler? code with
  | none => rfl
  | some h => exact absurd (own_eq_some_iff.mp hown) (huncovered h)

theorem faultHandler?_eq_first_declared (huncovered : ∀ h, ¬ OwnHandler code failing h)
    (hbuilt : Chains.buildFlow order scope globals own .fault = .ok c)
    (hkept : KeepsFirst order.fault (globals.fault ++ own.fault) code) :
    faultHandler? code failing c =
      (globals.fault ++ own.fault).findSome? fun d => d.registeredFor? code := by
  have hresolve : Chain.resolve .fault scope order.fault (globals.fault ++ own.fault) = .ok c := by
    unfold Chains.buildFlow at hbuilt
    split at hbuilt
    next chain hchain =>
      obtain rfl := Except.ok.inj hbuilt
      exact hchain
    next => cases hbuilt
  rw [faultHandler?_of_uncovered huncovered]
  refine findSome?_eq_of_ahead (Chain.nodup_of_resolve hresolve)
    (Chain.handlers_perm_of_resolve hresolve) ?_
  intro front d back hdeclared hfront hd e he hregistered
  refine Chain.ahead_of_runsAhead hresolve ?_ ?_
    (hkept front d back hdeclared hfront hd e he hregistered)
  · rw [hdeclared]
    exact List.mem_append_right front List.mem_cons_self
  · rw [hdeclared]
    exact List.mem_append_right front (List.mem_cons_of_mem d he)

/-- A fault that arises on a deployment is offered within its fault chain. -/
theorem RaisesOn.scope_eq (h : RaisesOn lease ctx before i) :
    i.faultChain = lease.chains.fault ∧ i.held = some lease.deployment := by
  cases h <;> exact ⟨rfl, rfl⟩

/-- What follows once a fault has arisen in a dispatch is that it is handled and the deployment
is let go. -/
theorem handled_of_raised
    (hrun : Run (dispatch engineId ctx) (⟨.lookup ctx.service, some lease⟩ :: before ++ after)
      (result, final))
    (hraised : RaisesOn lease (ctx.stamped engineId) before i) :
    ∃ handling, after = handling ++ letGo (some lease.deployment) ∧
      Handled i handling result final := by
  have hraises : Raises engineId ctx (⟨.lookup ctx.service, some lease⟩ :: before) i :=
    Raises.deployed hraised
  rcases cases_of_dispatch hrun with ⟨before', i', handling, hevents, hraises', hhandled⟩ |
    ⟨lease', chainEvents, outcome, hevents, hsucceeds, -⟩
  · rw [List.append_assoc before'] at hevents
    obtain ⟨rfl, rfl⟩ := hraises.unique hraises' hevents
    refine ⟨handling, ?_, hhandled⟩
    rw [← hraised.scope_eq.2]
    exact List.append_cancel_left hevents
  · obtain ⟨hlookup, hrest⟩ := List.cons_eq_cons.mp hevents
    cases hlookup
    exact absurd hraised (hsucceeds.not_raisesOn hrest.symm)

/-- A fault that the failing handler has no handler of its own for is offered to the handler
declared first of all that are registered for its code, those of the engine counting as declared
ahead of those of the service, provided that phases and rules keep it ahead of the others.  If no
handler is registered, the fault chain runs and the fault is returned. -/
theorem offered_to_first_declared
    (hbuilt : Chains.buildFlow order scope globals own .fault = .ok lease.chains.fault)
    (hrun : Run (dispatch engineId ctx) (⟨.lookup ctx.service, some lease⟩ :: before ++ after)
      (result, final))
    (hraised : RaisesOn lease (ctx.stamped engineId) before i)
    (huncovered : ∀ h, ¬ OwnHandler i.code i.failing h)
    (hkept : KeepsFirst order.fault (globals.fault ++ own.fault) i.code) :
    (∀ h, (globals.fault ++ own.fault).findSome? (fun d => d.registeredFor? i.code) = some h →
      ∃ answer, after = [⟨.invoke h i.marked, answer⟩, ⟨.release lease.deployment, ()⟩]) ∧
    ((∀ d ∈ globals.fault ++ own.fault, d.registeredFor? i.code = none) →
      ∃ ran ended, after = ran ++ [⟨.release lease.deployment, ()⟩] ∧
        Run (lease.chains.fault.execute i.marked) ran ended ∧ result = .error i.fault) := by
  obtain ⟨handling, hafter, hhandled⟩ := handled_of_raised hrun hraised
  have hselected := faultHandler?_eq_first_declared huncovered hbuilt hkept
  rw [← hraised.scope_eq.1] at hselected ⊢
  rw [← List.findSome?_eq_none_iff, ← hselected, hafter]
  cases hhandled with
  | @absorbed h verdict final' hregistered =>
    rw [faultHandler?_eq_some_iff.mpr hregistered]
    refine ⟨fun h' hsame => ?_, fun hnone => absurd hnone (by simp)⟩
    obtain rfl := Option.some.inj hsame
    exact ⟨_, rfl⟩
  | @replaced h raised final' hregistered =>
    rw [faultHandler?_eq_some_iff.mpr hregistered]
    refine ⟨fun h' hsame => ?_, fun hnone => absurd hnone (by simp)⟩
    obtain rfl := Option.some.inj hsame
    exact ⟨_, rfl⟩
  | unregistered hnone hran =>
    refine ⟨fun h hfound => absurd (faultHandler?_eq_some_iff.mp hfound) (hnone h), fun _ => ?_⟩
    exact ⟨_, _, rfl, hran, rfl⟩

end Dispatch

/-! ### A bank with two clerks -/

/-- A handler that takes faults of the code `Bad`. -/
def clerk (name : String) (number : Nat) (phase : String) : Descriptor :=
  ⟨⟨"", name⟩, ⟨number, []⟩, ⟨[("fault-Bad", .text "")]⟩, .inPhase phase⟩

/-- The clerk of the engine, who is declared ahead of the other one. -/
def central (phase : String) : Descriptor := clerk "central" 1 phase

/-- The clerk of the service. -/
def branch (phase : String) : Descriptor := clerk "branch" 2 phase

/-- A handler of the service that takes no faults. -/
def cashier : Descriptor := ⟨⟨"", "cashier"⟩, ⟨3, []⟩, .empty, .inPhase "service"⟩

def bank : QName := ⟨"", "bank"⟩

/-- The fault chain of the bank, with these clerks in the order in which they run. -/
def clerkChain (first second : Descriptor) : Chain :=
  ⟨.fault, .service bank, [⟨"service", [first]⟩, ⟨"global", [second]⟩, .empty "transport"]⟩

/-- The bank with its clerks in this order. -/
def bankLease (first second : Descriptor) : Lease :=
  ⟨0, [], ⟨⟨.inbound, .service bank, [.empty "transport", .empty "global",
    ⟨"service", [cashier]⟩]⟩, ⟨.outbound, .service bank, []⟩, clerkChain first second⟩⟩

def bankGlobals (phase : String) : Flows := ⟨[], [], [central phase]⟩

def bankFlows (phase : String) : Flows := ⟨[cashier], [], [branch phase]⟩

theorem build_clerks {globals own : Flows} {first second : Descriptor}
    (hrules : ∀ d ∈ globals.fault ++ own.fault,
      d.rule.phase ∈ PhaseOrder.standard.fault)
    (hfirst : Phase.resolve "service" (Chain.targeting "service" (globals.fault ++ own.fault)) =
      .ok ⟨"service", [first]⟩)
    (hsecond : Phase.resolve "global" (Chain.targeting "global" (globals.fault ++ own.fault)) =
      .ok ⟨"global", [second]⟩)
    (hnone : Chain.targeting "transport" (globals.fault ++ own.fault) = []) :
    Chains.buildFlow .standard (.service bank) globals own .fault =
      .ok (clerkChain first second) := by
  have hcycle : Graph.findCycle? [] = none := by cbv
  have htransport : Phase.resolve "transport" (Chain.targeting "transport"
      (globals.fault ++ own.fault)) = .ok (.empty "transport") := by
    rw [hnone]
    exact Phase.resolve_of_stages rfl rfl hcycle rfl rfl
  have hresolve : Chain.build .standard .fault (.service bank) (globals.fault ++ own.fault) =
      .ok (clerkChain first second) :=
    Chain.resolve_eq_ok_iff.mpr ⟨by decide, hrules,
      .cons hfirst (.cons hsecond (.cons htransport .nil)), rfl, rfl⟩
  unfold Chains.buildFlow
  rw [Flows.forFlow, Flows.forFlow, hresolve]

def deposit : Context :=
  Context.fresh ⟨1⟩ bank ⟨"", "deposit"⟩ .inbound .empty

/-- The message as the engine has stamped it. -/
def stampedDeposit : Context := deposit.stamped "engine"

def bad : Fault := ⟨⟨"", "Bad"⟩, "not accepted", none⟩

/-- The cashier raises the fault. -/
def cashierFails : ExchangeEvent :=
  ⟨.invoke cashier.handler stampedDeposit, (.error bad, stampedDeposit)⟩

def badIncident (first second : Descriptor) : Incident :=
  ⟨clerkChain first second, some cashier, bad, stampedDeposit, some 0⟩

theorem raisesOn_deposit (first second : Descriptor) :
    RaisesOn (bankLease first second) stampedDeposit [cashierFails]
      (badIncident first second) := by
  have hrun : Run (((bankLease first second).chains.forFlow stampedDeposit.flow).execute
      stampedDeposit) [cashierFails] (.error ⟨bad, cashier, "service"⟩, stampedDeposit) :=
    Run.ask (Run.done _)
  exact RaisesOn.chain rfl hrun

theorem deposit_uncovered (first second : Descriptor) (h : Handler) :
    ¬ OwnHandler (badIncident first second).code (badIncident first second).failing h := by
  intro hown
  obtain ⟨d, hd, hget⟩ := hown
  obtain rfl := Option.some.inj hd
  cases hget

/-- What follows the fault, when this handler takes it. -/
def takenBy (h : Handler) (first second : Descriptor) : List ExchangeEvent :=
  [⟨.invoke h (badIncident first second).marked, (.ok .proceed, stampedDeposit)⟩,
    ⟨.release 0, ()⟩]

/-- When the clerk of the engine works in the phase that runs first, it gets the fault. -/
theorem central_offered :
    Run (dispatch "engine" deposit)
      ([⟨.lookup bank, some (bankLease (central "service") (branch "global"))⟩, cashierFails] ++
        takenBy ⟨1, []⟩ (central "service") (branch "global"))
      (.ok (.faultAbsorbed bad), stampedDeposit) ∧
    ∃ answer, takenBy ⟨1, []⟩ (central "service") (branch "global") =
      [⟨.invoke ⟨1, []⟩ (badIncident (central "service") (branch "global")).marked, answer⟩,
        ⟨.release 0, ()⟩] := by
  have hcycle : Graph.findCycle? [[]] = none := by cbv
  have hbuilt : Chains.buildFlow .standard (.service bank) (bankGlobals "service")
      (bankFlows "global") .fault = .ok (clerkChain (central "service") (branch "global")) :=
    build_clerks (by decide) (Phase.resolve_of_stages rfl rfl hcycle rfl rfl)
      (Phase.resolve_of_stages rfl rfl hcycle rfl rfl) rfl
  have hrun : Run (dispatch "engine" deposit)
      ([⟨.lookup bank, some (bankLease (central "service") (branch "global"))⟩, cashierFails] ++
        takenBy ⟨1, []⟩ (central "service") (branch "global"))
      (.ok (.faultAbsorbed bad), stampedDeposit) :=
    Run.ask (Run.ask (Run.ask (Run.ask (Run.done _))))
  have hkept : KeepsFirst PhaseOrder.standard.fault [central "service", branch "global"]
      (badIncident (central "service") (branch "global")).code := by
    intro front d back hdeclared _ _ e he _
    have hahead : Ahead [central "service", branch "global"] d e := by
      rw [hdeclared]
      exact Ahead.append_iff.mpr (Or.inr (Or.inr (Ahead.head_of_mem he)))
    obtain ⟨rfl, rfl⟩ : d = central "service" ∧ e = branch "global" := by
      simpa [Ahead.cons_iff] using hahead
    exact RunsAhead.phase (Ahead.head_of_mem (by decide))
  refine ⟨hrun, ?_⟩
  exact (offered_to_first_declared hbuilt hrun (raisesOn_deposit _ _) (deposit_uncovered _ _)
    hkept).1 ⟨1, []⟩ rfl

/-- When it works in a later phase than the clerk of the service, it does not. -/
theorem branch_offered : ¬ ∀ (order : PhaseOrder) (scope : Scope) (globals own : Flows)
    (lease : Lease) (engineId : String) (ctx final : Context) (before after : List ExchangeEvent)
    (i : Incident) (result : Except Fault Outcome),
    Chains.buildFlow order scope globals own .fault = .ok lease.chains.fault →
    Run (dispatch engineId ctx) (⟨.lookup ctx.service, some lease⟩ :: before ++ after)
      (result, final) →
    RaisesOn lease (ctx.stamped engineId) before i →
    (∀ h, ¬ OwnHandler i.code i.failing h) →
    ∀ h, (globals.fault ++ own.fault).findSome? (fun d => d.registeredFor? i.code) = some h →
      ∃ answer, after = [⟨.invoke h i.marked, answer⟩, ⟨.release lease.deployment, ()⟩] := by
  intro hall
  have hcycle : Graph.findCycle? [[]] = none := by cbv
  have hbuilt : Chains.buildFlow .standard (.service bank) (bankGlobals "global")
      (bankFlows "service") .fault = .ok (clerkChain (branch "service") (central "global")) :=
    build_clerks (by decide) (Phase.resolve_of_stages rfl rfl hcycle rfl rfl)
      (Phase.resolve_of_stages rfl rfl hcycle rfl rfl) rfl
  have hrun : Run (dispatch "engine" deposit)
      ([⟨.lookup bank, some (bankLease (branch "service") (central "global"))⟩, cashierFails] ++
        takenBy ⟨2, []⟩ (branch "service") (central "global"))
      (.ok (.faultAbsorbed bad), stampedDeposit) :=
    Run.ask (Run.ask (Run.ask (Run.ask (Run.done _))))
  obtain ⟨answer, hafter⟩ := hall _ _ _ _ _ _ _ _ _ _ _ _ hbuilt hrun (raisesOn_deposit _ _)
    (deposit_uncovered _ _) ⟨1, []⟩ rfl
  cases hafter

end SoapPipeline
