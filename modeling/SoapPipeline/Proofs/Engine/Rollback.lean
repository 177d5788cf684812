/-
  SoapPipeline.Proofs.Engine.Rollback

  What an operation that fails leaves behind.

  Engaging a handler and deploying a service first resolve all chains that they
  affect, then have handlers get ready, and change the engine only after that.  So
  when one of these fails, nothing has changed but the count of given names, and
  the handlers that got ready meanwhile have cleaned up again, the last one first.

  Main results:
    * `exists_eq_resolution_of_build`, `exists_eq_resolution_of_rebuildAll`: what
      it is that chains are refused for;
    * `undone_of_readied`: what getting ready leaves behind when a handler fails;
    * `failure_undone`: what engaging and deploying leave behind when they fail.
-/
import SoapPipeline.Proofs.Chain.Refusals
import SoapPipeline.Proofs.Engine.Ownership

namespace SoapPipeline

open Program

/-! ## What handlers were asked -/

namespace Lifecycle

/-- The handler that is asked. -/
def Question.handler : Question → Handler
  | .init h => h
  | .cleanup h => h

/-- The handler that gets ready, if that is what happens. -/
def readyIn? : LifecycleEvent → Option Handler
  | ⟨.init h, answer⟩ => if (answer : Option Failure).isNone then some h else none
  | ⟨.cleanup _, _⟩ => none

/-- The handler that cleans up, if that is what happens. -/
def cleanedIn? : LifecycleEvent → Option Handler
  | ⟨.init _, _⟩ => none
  | ⟨.cleanup h, _⟩ => some h

/-- The handlers that got ready, in order. -/
def gotReady (events : List LifecycleEvent) : List Handler := events.filterMap readyIn?

/-- The handlers that cleaned up, in order. -/
def cleanedUp (events : List LifecycleEvent) : List Handler := events.filterMap cleanedIn?

@[simp] theorem gotReady_inits (handlers : List Handler) :
    gotReady (inits handlers) = handlers := by
  induction handlers with
  | nil => rfl
  | cons h rest ih => exact congrArg (h :: ·) ih

@[simp] theorem cleanedUp_inits (handlers : List Handler) : cleanedUp (inits handlers) = [] := by
  induction handlers with
  | nil => rfl
  | cons h rest ih => exact ih

@[simp] theorem gotReady_cleanups (handlers : List Handler) :
    gotReady (cleanups handlers) = [] := by
  induction handlers with
  | nil => rfl
  | cons h rest ih => exact ih

@[simp] theorem cleanedUp_cleanups (handlers : List Handler) :
    cleanedUp (cleanups handlers) = handlers := by
  induction handlers with
  | nil => rfl
  | cons h rest ih => exact congrArg (h :: ·) ih

/-- Some handlers get ready, one more fails, and those that are ready clean up, the last one
first. -/
def rollback (ready : List Handler) (failing : Handler) (failure : Failure) :
    List LifecycleEvent :=
  inits ready ++ ⟨.init failing, some failure⟩ :: cleanups ready.reverse

section Rollback

variable (ready : List Handler) (failing : Handler) (failure : Failure)

theorem gotReady_rollback : gotReady (rollback ready failing failure) = ready := by
  have htail : gotReady (⟨.init failing, some failure⟩ :: cleanups ready.reverse) = [] :=
    gotReady_cleanups ready.reverse
  unfold rollback
  rw [gotReady, List.filterMap_append]
  exact (congrArg₂ _ (gotReady_inits ready) htail).trans (List.append_nil ready)

theorem cleanedUp_rollback : cleanedUp (rollback ready failing failure) = ready.reverse := by
  have htail : cleanedUp (⟨.init failing, some failure⟩ :: cleanups ready.reverse) =
      ready.reverse := cleanedUp_cleanups ready.reverse
  unfold rollback
  rw [cleanedUp, List.filterMap_append]
  exact congrArg₂ _ (cleanedUp_inits ready) htail

theorem handler_mem_of_mem_rollback {event : LifecycleEvent}
    (h : event ∈ rollback ready failing failure) : event.question.handler ∈ ready ++ [failing] := by
  rcases List.mem_append.mp h with hinit | h
  · obtain ⟨handler, hmem, rfl⟩ := List.mem_map.mp hinit
    exact List.mem_append_left _ hmem
  · rcases List.mem_cons.mp h with rfl | hcleanup
    · exact List.mem_append_right _ (List.mem_singleton_self failing)
    · obtain ⟨handler, hmem, rfl⟩ := List.mem_map.mp hcleanup
      exact List.mem_append_left _ (List.mem_reverse.mp hmem)

end Rollback

end Lifecycle

open Lifecycle

/-! ## Why chains are refused -/

section Refusals

variable {order : PhaseOrder} {scope : Scope} {globals own : Flows} {error : DeployError}

theorem exists_eq_resolution_of_build (h : Chains.build order scope globals own = .error error) :
    ∃ flow source, error = .resolution scope flow source := by
  obtain ⟨flow, source, heq, -⟩ := Chains.exists_refused_of_build h
  exact ⟨flow, source, heq⟩

/-- An error of a list that is mapped to results is one of an element. -/
theorem exists_of_filterMapM_eq_error {α β ε : Type} {f : α → Except ε (Option β)} {l : List α}
    {e : ε} (h : l.filterMapM f = .error e) : ∃ a ∈ l, f a = .error e := by
  induction l with
  | nil => cases h
  | cons a rest ih =>
    have hlater : rest.filterMapM f = .error e → ∃ a' ∈ a :: rest, f a' = .error e := by
      intro hrest
      obtain ⟨a', ha', hf⟩ := ih hrest
      exact ⟨a', List.mem_cons_of_mem a ha', hf⟩
    rw [List.filterMapM_cons] at h
    cases ha : f a with
    | error first =>
      rw [ha] at h
      obtain rfl := Except.error.inj h
      exact ⟨a, List.mem_cons_self, ha⟩
    | ok found =>
      rw [ha] at h
      cases found with
      | none => exact hlater h
      | some b =>
        change (rest.filterMapM f >>= fun out => pure (b :: out)) = .error e at h
        cases hrest : rest.filterMapM f with
        | error later =>
          rw [hrest] at h
          obtain rfl := Except.error.inj h
          exact hlater hrest
        | ok out =>
          rw [hrest] at h
          cases h

theorem Engine.exists_eq_resolution_of_rebuildAll {e : Engine}
    (h : e.rebuildAll globals = .error error) :
    ∃ scope flow source, error = .resolution scope flow source := by
  rw [Engine.rebuildAll_eq] at h
  obtain ⟨id, -, hrebuild⟩ := exists_of_filterMapM_eq_error h
  unfold Engine.rebuild at hrebuild
  split at hrebuild
  next => cases hrebuild
  next d _ =>
    split at hrebuild
    next => cases hrebuild
    next source hbuild =>
      obtain rfl := Except.error.inj hrebuild
      exact ⟨_, exists_eq_resolution_of_build hbuild⟩

end Refusals

/-! ## Names that are given -/

namespace Namer

variable {namer namer' : Namer}

theorem given_le_describe {spec : HandlerSpec} {d : Descriptor}
    (h : namer.describe spec = (d, namer')) : namer.given ≤ namer'.given := by
  unfold describe at h
  split at h
  next =>
    obtain ⟨-, rfl⟩ := Prod.mk.inj h
    exact Nat.le_refl _
  next =>
    obtain ⟨-, rfl⟩ := Prod.mk.inj h
    exact Nat.le_succ _

theorem handler_describe (spec : HandlerSpec) : (namer.describe spec).1.handler = spec.handler := by
  unfold describe
  split <;> rfl

theorem given_le_describeAll (namer : Namer) (specs : List HandlerSpec) :
    namer.given ≤ (namer.describeAll specs).2.given := by
  induction specs generalizing namer with
  | nil => exact Nat.le_refl _
  | cons spec rest ih => exact Nat.le_trans (given_le_describe rfl) (ih (namer.describe spec).2)

theorem map_handler_describeAll (namer : Namer) (specs : List HandlerSpec) :
    (namer.describeAll specs).1.map Descriptor.handler = specs.map HandlerSpec.handler := by
  induction specs generalizing namer with
  | nil => rfl
  | cons spec rest ih => exact congrArg₂ _ (handler_describe spec) (ih (namer.describe spec).2)

end Namer

/-- The instances that a specification declares, for all directions. -/
def ServiceSpec.handlers (spec : ServiceSpec) : List Handler :=
  (spec.inbound ++ spec.outbound ++ spec.fault).map HandlerSpec.handler

namespace Namer

variable {namer namer' : Namer} {spec : ServiceSpec} {flows : Flows}

theorem given_le_describeService (h : namer.describeService spec = (flows, namer')) :
    namer.given ≤ namer'.given := by
  obtain ⟨-, rfl⟩ := Prod.mk.inj h
  exact (given_le_describeAll namer spec.inbound).trans
    ((given_le_describeAll _ spec.outbound).trans (given_le_describeAll _ spec.fault))

/-- Naming handlers keeps their instances. -/
theorem map_handler_describeService (h : namer.describeService spec = (flows, namer')) :
    flows.all.map Descriptor.handler = spec.handlers := by
  obtain ⟨rfl, -⟩ := Prod.mk.inj h
  unfold Flows.all ServiceSpec.handlers
  simp only [List.map_append, map_handler_describeAll]

end Namer

/-! ## Operations that fail -/

/-- What a failed operation leaves behind.  `own` are the handlers of the specification that
failed, and `inUse` those that are in use already where it was to take effect. -/
structure Undone (e : Engine) (own inUse : List Handler) (error : DeployError)
    (events : List LifecycleEvent) (e' : Engine) : Prop where
  /-- Nothing but the count of given names is different. -/
  unchanged : e' = { e with namer := e'.namer }
  /-- Names that have been given are not given again. -/
  given : e.namer.given ≤ e'.namer.given
  /-- The handlers that got ready have cleaned up, the last one first. -/
  cleaned : cleanedUp events = (gotReady events).reverse
  /-- Each of them did so once. -/
  once : (gotReady events).Nodup
  /-- Only handlers of the specification are asked for anything, and none that is in use. -/
  asked : ∀ event ∈ events, event.question.handler ∈ own ∧ event.question.handler ∉ inUse
  /-- Either chains did not resolve, and nobody is asked for anything, or a handler did not get
  ready. -/
  cause : (∃ scope flow source, error = .resolution scope flow source ∧ events = []) ∨
    ∃ ready name failing failure, error = .handlerInit name failure ∧
      events = rollback ready failing failure

section Undone

variable {e : Engine} {own inUse : List Handler} {namer : Namer} {events : List LifecycleEvent}

/-- When chains do not resolve nothing has happened. -/
theorem undone_of_refused {error : DeployError} (hgiven : e.namer.given ≤ namer.given)
    (hrefused : ∃ scope flow source, error = .resolution scope flow source) :
    Undone e own inUse error [] { e with namer } := by
  obtain ⟨scope, flow, source, rfl⟩ := hrefused
  exact ⟨rfl, hgiven, rfl, List.nodup_nil, fun event h => absurd h List.not_mem_nil,
    Or.inl ⟨scope, flow, source, rfl, rfl⟩⟩

/-- When a handler does not get ready, those ahead of it clean up. -/
theorem undone_of_readied {fresh : List (QName × Handler)} {name : QName} {failure : Failure}
    (hgiven : e.namer.given ≤ namer.given) (hready : Readied fresh events (some (name, failure)))
    (hnodup : (fresh.map Prod.snd).Nodup)
    (hfresh : ∀ h ∈ fresh.map Prod.snd, h ∈ own ∧ h ∉ inUse) :
    Undone e own inUse (.handlerInit name failure) events { e with namer } := by
  cases hready with
  | @failed front back _ failing _ hsplit =>
    have hfront : fresh.map Prod.snd = front.map Prod.snd ++ failing :: back.map Prod.snd := by
      rw [hsplit, List.map_append, List.map_cons]
    change Undone e own inUse _ (rollback (front.map Prod.snd) failing failure) _
    refine ⟨rfl, hgiven, ?_, ?_, ?_, Or.inr ⟨_, name, failing, failure, rfl, rfl⟩⟩
    · rw [cleanedUp_rollback, gotReady_rollback]
    · rw [gotReady_rollback]
      rw [hfront] at hnodup
      exact (List.nodup_append.mp hnodup).1
    · intro event hevent
      refine hfresh _ ?_
      -- Whoever is asked is the handler that failed or stands ahead of it.
      have hmem := handler_mem_of_mem_rollback _ _ _ hevent
      rw [hfront]
      rcases List.mem_append.mp hmem with hahead | hfailing
      · exact List.mem_append_left _ hahead
      · rw [List.mem_singleton.mp hfailing]
        exact List.mem_append_right _ List.mem_cons_self

end Undone

namespace Engine

variable {e e' : Engine} {events : List LifecycleEvent} {error : DeployError}

/-- The instances that the deployment under a name uses. -/
def usedUnder (e : Engine) (service : QName) : List Handler :=
  match e.deployed? service with
  | some (_, d) => d.flows.handlers
  | none => []

/-- What new flows share with the deployment that they replace is what both use. -/
theorem mem_carried_iff {service : QName} {flows : Flows} {h : Handler} :
    h ∈ carried (e.deployed? service) flows ↔ h ∈ e.usedUnder service ∧ h ∈ flows.handlers := by
  unfold carried usedUnder
  cases e.deployed? service with
  | none => simp
  | some found =>
    unfold Deployment.shared
    rw [List.mem_filter, decide_eq_true_iff]

theorem undone_of_engaged {flow : Flow} {spec : HandlerSpec}
    (h : Engaged e flow spec events e' (.error error)) :
    Undone e [spec.handler] e.globals.handlers error events e' := by
  cases h with
  | refused hd hrefused =>
    refine undone_of_refused (Namer.given_le_describe hd) ?_
    rcases hrefused with hglobal | hservice
    · exact ⟨_, exists_eq_resolution_of_build hglobal⟩
    · exact exists_eq_resolution_of_rebuildAll hservice
  | @notReady d namer _ name failure hd hready =>
    have hhandler : (e.namer.describe spec).1.handler = spec.handler :=
      Namer.handler_describe spec
    rw [hd] at hhandler
    refine undone_of_readied (Namer.given_le_describe hd) hready ?_ ?_
    · unfold freshGlobal
      split
      · exact List.nodup_nil
      · exact List.nodup_singleton _
    · intro h hh
      unfold freshGlobal at hh
      split at hh
      next => exact absurd hh List.not_mem_nil
      next hnew =>
        obtain rfl := List.mem_singleton.mp hh
        exact ⟨List.mem_singleton.mpr hhandler, hnew⟩

theorem undone_of_deployed {spec : ServiceSpec}
    (h : Deployed e spec events e' (.error error)) :
    Undone e spec.handlers (e.usedUnder spec.name) error events e' := by
  cases h with
  | refused hflows hrefused =>
    exact undone_of_refused (Namer.given_le_describeService hflows)
      ⟨_, exists_eq_resolution_of_build hrefused⟩
  | @notReady flows _ _ _ _ hflows hready =>
    refine undone_of_readied (Namer.given_le_describeService hflows) hready ?_ ?_
    · rw [map_snd_freshInstances]
      exact Flows.nodup_handlers.filter _
    · intro h hh
      rw [map_snd_freshInstances, List.mem_filter, decide_eq_true_iff, mem_carried_iff] at hh
      obtain ⟨hown, hfresh⟩ := hh
      refine ⟨?_, fun hused => hfresh ⟨hused, hown⟩⟩
      obtain ⟨d, hd, rfl⟩ := Flows.mem_handlers_iff.mp hown
      rw [← Namer.map_handler_describeService hflows]
      exact List.mem_map_of_mem hd

end Engine

/-- When engaging a handler or deploying a service fails, the engine is as it was but for names
that have been given: its global handlers and chains, what is registered in which order, all
deployments that live with their chains, what they have handed over and who holds them.  The
handlers of the specification that got ready have cleaned up, each once and the last one first; and
instances that are global already, or in use by the deployment that was to be replaced, are asked
for nothing. -/
theorem failure_undone (e : Engine) :
    (∀ flow spec events e' error, Run (e.engage flow spec) events (e', .error error) →
      Undone e [spec.handler] e.globals.handlers error events e') ∧
    ∀ spec events e' error, Run (e.deploy spec) events (e', .error error) →
      Undone e spec.handlers (e.usedUnder spec.name) error events e' := by
  constructor
  · intro flow spec events e' error hrun
    exact Engine.undone_of_engaged (Engine.engaged_of_engage hrun)
  · intro spec events e' error hrun
    exact Engine.undone_of_deployed (Engine.deployed_of_deploy hrun)

/-! ### A vault that is not reinforced -/

def lock : Handler := ⟨2, []⟩

def bar : Handler := ⟨3, []⟩

/-- The vault with two more handlers behind its own. -/
def reinforcedVault : ServiceSpec :=
  { vaultService with
    inbound := vaultService.inbound ++ [⟨some ⟨"", "lock"⟩, lock, .inPhase "main", .empty⟩,
      ⟨some ⟨"", "bar"⟩, bar, .inPhase "main", .empty⟩] }

def reinforcedFlows : Flows := (Namer.start.describeService reinforcedVault).1

theorem resolve_reinforced : Phase.resolve "main" reinforcedFlows.inbound =
    .ok ⟨"main", Phase.seats reinforcedFlows.inbound [0, 1, 2]⟩ := by
  have hcycle : Graph.findCycle? [[], [], []] = none := by cbv
  exact Phase.resolve_of_stages rfl rfl hcycle rfl rfl

theorem build_reinforced : ∃ chains,
    Chains.build onePhase.order (.service vaultService.name) .empty reinforcedFlows =
      .ok chains := by
  have htargets : ∀ d ∈ reinforcedFlows.inbound, d.rule.phase = "main" := by decide
  exact ⟨_, build_inbound _ htargets resolve_reinforced⟩

/-- The engine on which the vault has been deployed once. -/
def vaultInPlace : Engine := vaultEngine [(vaultService.name, 0)] ⟨1, [⟨0, vault [], 1⟩]⟩

/-- The guard is carried over, and the lock cleans up again because the bar gets stuck. -/
theorem reinforcement_undone : ∃ error events,
    Run (vaultInPlace.deploy reinforcedVault) events (vaultInPlace, .error error) ∧
    Undone vaultInPlace [guard, lock, bar] [guard] error events vaultInPlace ∧
    gotReady events = [lock] ∧ cleanedUp events = [lock] := by
  obtain ⟨chains, hchains⟩ := build_reinforced
  have hrun : Run (vaultInPlace.deploy reinforcedVault)
      [⟨.init lock, none⟩, ⟨.init bar, some ⟨[], .text "stuck"⟩⟩, ⟨.cleanup lock, ()⟩]
      (vaultInPlace, .error (.handlerInit ⟨"", "bar"⟩ ⟨[], .text "stuck"⟩)) := by
    unfold Engine.deploy vaultInPlace vaultEngine
    dsimp only
    rw [show Namer.start.describeService reinforcedVault = (reinforcedFlows, Namer.start) from rfl]
    dsimp only
    rw [show reinforcedVault.name = vaultService.name from rfl, hchains]
    exact Run.ask (Run.ask (Run.ask (Run.done _)))
  exact ⟨_, _, hrun, (failure_undone vaultInPlace).2 _ _ _ _ hrun, rfl, rfl⟩

end SoapPipeline
