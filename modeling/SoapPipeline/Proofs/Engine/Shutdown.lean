/-
  SoapPipeline.Proofs.Engine.Shutdown

  What a shutdown has clean up, and in which order.

  Whatever happens to an engine reaches its registry as calls that insert a name,
  remove one, or remove all.  So the registry of an engine in use is in the order
  that these calls give it, and a shutdown goes through it from its end.  Where
  nobody else holds a deployment, the registry lets go of the last hold on each
  of them, and as nothing of what is registered has been handed over, all of its
  handlers clean up.

  Main results:
    * `registry_of_logged`: the registry is made by the calls on it;
    * `cleanups_of_removeAll`: services that are removed one after the other have
      their handlers clean up one after the other;
    * `shutdown_unwinds`: registries over all calls, and the shutdown after every
      history.
-/
import SoapPipeline.Proofs.Engine.Rollback
import SoapPipeline.Proofs.Registry.Calls

namespace SoapPipeline

open Program Lifecycle

/-! ## Calls on the registry -/

/-- One thing that happens to an engine in use, with what handlers are asked and which calls are
made on the registry meanwhile. -/
inductive Session.Logs : Session → List LifecycleEvent → List (Registry.Call Nat) → Session → Prop
  | engage {s : Session} {flow : Flow} {spec : HandlerSpec} {events : List LifecycleEvent}
      {e : Engine} {result : Except DeployError Descriptor}
      (h : Run (s.engine.engage flow spec) events (e, result)) : s.Logs events [] ⟨e, s.held⟩
  | deploy {s : Session} {spec : ServiceSpec} {events : List LifecycleEvent} {e : Engine}
      {id : Nat} (h : Run (s.engine.deploy spec) events (e, .ok id)) :
      s.Logs events [.insert spec.name id] ⟨e, s.held⟩
  /-- A deployment that fails does not come as far as the registry. -/
  | deployFailed {s : Session} {spec : ServiceSpec} {events : List LifecycleEvent} {e : Engine}
      {error : DeployError} (h : Run (s.engine.deploy spec) events (e, .error error)) :
      s.Logs events [] ⟨e, s.held⟩
  | undeploy {s : Session} {service : QName} {events : List LifecycleEvent} {e : Engine}
      {result : Except DeployError Unit}
      (h : Run (s.engine.undeploy service) events (e, result)) :
      s.Logs events [.remove service] ⟨e, s.held⟩
  | shutdown {s : Session} {events : List LifecycleEvent} {e : Engine}
      (h : Run s.engine.shutdown events e) : s.Logs events [.shutdownAll] ⟨e, s.held⟩
  | hold {s : Session} {id : Nat} {d : Deployment}
      (hlives : s.engine.deployments.find? id = some d) :
      s.Logs [] [] ⟨s.engine.retain id, id :: s.held⟩
  | letGo {s : Session} {id : Nat} {events : List LifecycleEvent} {e : Engine}
      (hheld : id ∈ s.held) (h : Run (s.engine.release id) events e) :
      s.Logs events [] ⟨e, s.held.erase id⟩

/-- A history with the calls that it made on the registry. -/
inductive Logged (config : Config) :
    List LifecycleEvent → List (Registry.Call Nat) → Session → Prop
  | new {e : Engine} (h : Engine.new config = .ok e) : Logged config [] [] ⟨e, []⟩
  | step {past events : List LifecycleEvent} {log calls : List (Registry.Call Nat)}
      {s s' : Session} (h : Logged config past log s) (hstep : s.Logs events calls s') :
      Logged config (past ++ events) (log ++ calls) s'

section Logged

variable {config : Config} {s s' : Session} {past events : List LifecycleEvent}
  {log calls : List (Registry.Call Nat)}

theorem Session.Logs.step (h : s.Logs events calls s') : s.Step events s' := by
  cases h with
  | engage h => exact .engage h
  | deploy h => exact .deploy h
  | deployFailed h => exact .deploy h
  | undeploy h => exact .undeploy h
  | shutdown h => exact .shutdown h
  | hold hlives => exact .hold hlives
  | letGo hheld h => exact .letGo hheld h

theorem Session.Step.exists_logs (h : s.Step events s') : ∃ calls, s.Logs events calls s' := by
  cases h with
  | engage h => exact ⟨_, .engage h⟩
  | @deploy _ _ _ result h =>
    cases result with
    | ok id => exact ⟨_, .deploy h⟩
    | error error => exact ⟨_, .deployFailed h⟩
  | undeploy h => exact ⟨_, .undeploy h⟩
  | shutdown h => exact ⟨_, .shutdown h⟩
  | hold hlives => exact ⟨_, .hold hlives⟩
  | letGo hheld h => exact ⟨_, .letGo hheld h⟩

/-- Every history can be logged. -/
theorem history_iff_exists_logged : History config past s ↔ ∃ log, Logged config past log s := by
  constructor
  · intro h
    induction h with
    | new hnew => exact ⟨[], .new hnew⟩
    | step _ hstep ih =>
      obtain ⟨log, hlog⟩ := ih
      obtain ⟨calls, hcalls⟩ := hstep.exists_logs
      exact ⟨log ++ calls, hlog.step hcalls⟩
  · intro h
    obtain ⟨log, hlog⟩ := h
    induction hlog with
    | new hnew => exact .new hnew
    | step _ hstep ih => exact ih.step hstep.step

/-- Nothing but the calls that are logged changes the registry. -/
theorem Session.Logs.registry (h : s.Logs events calls s') :
    s'.engine.registry = s.engine.registry.callAll calls := by
  cases h with
  | engage h => cases Engine.engaged_of_engage h <;> rfl
  | deploy h =>
    cases Engine.deployed_of_deploy h with
    | deployed _ _ _ hinstalled => cases hinstalled <;> rfl
  | deployFailed h => cases Engine.deployed_of_deploy h <;> rfl
  | undeploy h =>
    cases Engine.undeployed_of_undeploy h with
    | notDeployed habsent => exact (Registry.remove_of_get?_eq_none habsent).symm
    | undeployed _ hremoved => cases hremoved <;> rfl
  | shutdown h =>
    cases Engine.shutDown_of_shutdown h with
    | @shutDown front mid hremoved =>
      show mid.registry = _
      exact registry_of_removeAll hremoved
  | hold => rfl
  | letGo _ h =>
    obtain ⟨-, rfl⟩ := Engine.eq_of_release h
    rfl

theorem registry_of_logged (h : Logged config past log s) : s.engine.registry = .after log := by
  induction h with
  | new hnew =>
    obtain ⟨chains, -, rfl⟩ := eq_of_new hnew
    rfl
  | step _ hstep ih => rw [hstep.registry, ih, Registry.after_append]

theorem lists_of_logged (h : Logged config past log s) :
    Registry.Lists log s.engine.registry := by
  rw [registry_of_logged h]
  exact Registry.lists_after log

end Logged

/-! ## Letting go of the last hold -/

/-- A deployment that has handed nothing over leaves all of its handlers to be cleaned up. -/
theorem Deployment.leftovers_of_whole {d : Deployment} (h : d.handedOver = []) :
    d.leftovers = d.flows.handlers.reverse := by
  unfold leftovers
  rw [h]
  simp

/-- The only hold on a deployment is the last one. -/
theorem Deployments.Accounted.leftovers_of_release {ds : Deployments} {holds : List Nat} {id : Nat}
    {d : Deployment} (h : ds.Accounted holds) (hfound : ds.find? id = some d)
    (honly : holds.count id = 1) : (ds.release id).1 = d.leftovers := by
  obtain ⟨holding, hliving, hholders⟩ := h.exists_holding (h.mem_of_find? hfound)
  unfold find? at hfound
  rw [hliving] at hfound
  obtain rfl := Option.some.inj hfound
  rw [release_last hliving (by omega)]

section Removed

open Engine

variable {s : Session} {e : Engine} {events : List LifecycleEvent} {name other : QName}

/-- Removing one name changes nothing of what is deployed under the others. -/
theorem Sound.deployed?_removed (h : Sound s) (hremoved : Removed s.engine name events e)
    (hne : other ≠ name) : e.deployed? other = s.engine.deployed? other := by
  have haccounted := h.accounted_remove name
  have hget : (s.engine.registry.remove name).2.get? other = s.engine.registry.get? other := by
    rw [Registry.get?_remove, if_neg hne]
  refine Option.ext fun found => ?_
  obtain ⟨id', d⟩ := found
  rw [deployed?_eq_some_iff, deployed?_eq_some_iff]
  cases hremoved with
  | absent => rw [hget]
  | @removed id hid =>
    rw [hget]
    refine and_congr_right fun hother => ?_
    -- The registry still holds the other deployment.
    rw [hid] at haccounted
    have hheld := List.mem_append_left s.held (Registry.mem_items_of_get? (hget.trans hother))
    rw [haccounted.find?_release_head hheld]

/-- A service that nobody else holds has its handlers clean up when it is removed. -/
theorem cleanups_of_removed (hsound : Sound s) (hwhole : Whole s) (hheld : s.held = [])
    (hremoved : Removed s.engine name events e) :
    events = cleanups (s.engine.usedUnder name).reverse := by
  unfold usedUnder
  rcases hsound.deployed?_cases name with ⟨habsent, hnone⟩ | ⟨id, d, hget, hfound, hsome⟩
  · rw [hnone]
    cases hremoved with
    | absent => rfl
    | removed hget =>
      rw [habsent] at hget
      cases hget
  · rw [hsome]
    cases hremoved with
    | absent habsent =>
      rw [habsent] at hget
      cases hget
    | removed hid =>
      obtain rfl := Option.some.inj (hget.symm.trans hid)
      have hitem := Registry.mem_items_of_get? hget
      have honly : s.holds.count id = 1 := by
        unfold Session.holds
        rw [hheld, List.append_nil]
        exact List.count_eq_one_of_mem hsound.items hitem
      rw [hsound.accounted.leftovers_of_release hfound honly,
        Deployment.leftovers_of_whole (hwhole id hitem d hfound)]

/-- Services that are removed one after the other clean up one after the other. -/
theorem cleanups_of_removeAll {names : List QName} (hsound : Sound s) (hwhole : Whole s)
    (hheld : s.held = []) (hnodup : names.Nodup)
    (hrun : Run (s.engine.removeAll names) events e) :
    events = cleanups (names.flatMap fun name => (s.engine.usedUnder name).reverse) := by
  induction names generalizing s events with
  | nil => exact (Run.pure_iff.mp hrun).1
  | cons name rest ih =>
    obtain ⟨front, mid, back, rfl, hremoved, hrest⟩ := removed_of_removeAll hrun
    obtain ⟨hnew, hnodup⟩ := List.nodup_cons.mp hnodup
    -- The other services are as they were when the first one has gone.
    have hsame : ∀ other ∈ rest, mid.usedUnder other = s.engine.usedUnder other := by
      intro other hother
      unfold usedUnder
      rw [hsound.deployed?_removed hremoved (ne_of_mem_of_not_mem hother hnew)]
    have hlater := ih (s := ⟨mid, s.held⟩) (hsound.removed hremoved) (hwhole.removed hremoved) hheld
      hnodup hrest
    rw [cleanups_of_removed hsound hwhole hheld hremoved, hlater, List.flatMap_cons]
    unfold cleanups
    rw [List.map_append]
    congr 2
    exact List.flatMap_congr fun other hother => congrArg List.reverse (hsame other hother)

end Removed

/-! ## Shutdown -/

/-- What a shutdown has clean up: the services in reverse order, then the global handlers, and of
each the instance that came last first. -/
def Engine.unwinding (e : Engine) : List Handler :=
  e.services.reverse.flatMap (fun d => d.flows.firstSeen.reverse) ++ e.globals.firstSeen.reverse

section Shutdown

open Engine

variable {config : Config} {s : Session} {past events : List LifecycleEvent} {e : Engine}
  {log : List (Registry.Call Nat)}

/-- The deployment serves the name, and is the one that was registered last under it. -/
def ServesLatest (s : Session) (log : List (Registry.Call Nat)) (name : QName) (d : Deployment) :
    Prop :=
  d.service = name ∧
    ∃ id, Registry.Latest log name id ∧ s.engine.deployments.find? id = some d

/-- What finds something for every element of a list leaves none of them out. -/
theorem forall₂_filterMap {α β γ : Type} {related : α → β → Prop} {finds : α → γ → Prop}
    {f : β → Option γ} {l : List α} {l' : List β} (h : List.Forall₂ related l l')
    (hf : ∀ a b, related a b → ∃ c, f b = some c ∧ finds a c) :
    List.Forall₂ finds l (l'.filterMap f) := by
  induction h with
  | nil => exact .nil
  | cons hab _ ih =>
    obtain ⟨c, hc, hfinds⟩ := hf _ _ hab
    rw [List.filterMap_cons_some hc]
    exact .cons hfinds ih

/-- What is listed lives, so that nothing of it is left out when it is looked up. -/
theorem forall₂_services (h : Logged config past log s) :
    List.Forall₂ (ServesLatest s log) s.engine.registry.names s.engine.services := by
  have hhistory := history_iff_exists_logged.mpr ⟨log, h⟩
  have hpublished := Published.of_history hhistory
  have hlists := lists_of_logged h
  refine forall₂_filterMap hlists.inOrder.latest ?_
  intro name id hid
  obtain ⟨d, hfound, hcurrent⟩ := hpublished.services name id ((hlists.found name id).mpr hid)
  exact ⟨d, hfound, hcurrent.service, id, hid, hfound⟩

/-- The handlers that are in use under the registered names are those of the services. -/
theorem map_usedUnder (h : Logged config past log s) :
    s.engine.registry.names.map s.engine.usedUnder =
      s.engine.services.map fun d => d.flows.firstSeen := by
  have hlists := lists_of_logged h
  refine List.forall₂_eq_eq_eq ▸ ?_
  rw [List.forall₂_map_left_iff, List.forall₂_map_right_iff]
  refine (forall₂_services h).imp ?_
  intro name d hserves
  obtain ⟨-, id, hid, hfound⟩ := hserves
  have hdeployed : s.engine.deployed? name = some (id, d) :=
    deployed?_eq_some_iff.mpr ⟨(hlists.found name id).mpr hid, hfound⟩
  unfold usedUnder
  rw [hdeployed]
  exact Flows.handlers_eq_firstSeen

/-- Where nobody else holds a deployment, everything is cleaned up in reverse order. -/
theorem cleanups_of_shutdown (h : Logged config past log s) (hheld : s.held = [])
    (hrun : Run s.engine.shutdown events e) : events = cleanups s.engine.unwinding := by
  have hhistory := history_iff_exists_logged.mpr ⟨log, h⟩
  have hsound := sound_of_history hhistory
  cases shutDown_of_shutdown hrun with
  | @shutDown front mid hremoved =>
    rw [cleanups_of_removeAll hsound (Whole.of_history hhistory) hheld
      (List.nodup_reverse.mpr hsound.names) hremoved, eq_of_removeAll hremoved]
    have hservices : (s.engine.registry.names.reverse.flatMap fun name =>
        (s.engine.usedUnder name).reverse) =
          s.engine.services.reverse.flatMap fun d => d.flows.firstSeen.reverse := by
      rw [← List.flatMap_map s.engine.usedUnder List.reverse, List.map_reverse, map_usedUnder h,
        ← List.map_reverse, List.flatMap_map]
    rw [hservices, Flows.handlers_eq_firstSeen]
    unfold unwinding cleanups
    rw [List.map_append]

/-- A shutdown leaves no service, no global handler and no handler in the global chains. -/
theorem left_of_shutdown (h : Logged config past log s) (hrun : Run s.engine.shutdown events e) :
    e.registry = .empty ∧ e.globals = .empty ∧
      ∀ flow, (e.globalChains.forFlow flow).handlers = [] := by
  have hhistory := history_iff_exists_logged.mpr ⟨log, h⟩
  have hpublished := Published.of_history (hhistory.step (.shutdown hrun))
  have hglobals : e.globals = .empty := by
    cases shutDown_of_shutdown hrun
    rfl
  refine ⟨?_, hglobals, ?_⟩
  · cases shutDown_of_shutdown hrun with
    | @shutDown front mid hremoved =>
      show mid.registry = .empty
      exact registry_of_shutDown hremoved
  · intro flow
    have hperm := Chains.handlers_perm_of_build hpublished.globalChains flow
    rw [show (⟨e, s.held⟩ : Session).engine.globals = .empty from hglobals] at hperm
    cases flow <;> exact hperm.eq_nil

/-- Where nobody else holds a deployment there is one way to shut down. -/
theorem exists_shutdown_iff (h : Logged config past log s) (hheld : s.held = []) :
    ∃ left, ∀ events e,
      Run s.engine.shutdown events e ↔ events = cleanups s.engine.unwinding ∧ e = left := by
  obtain ⟨events, left, hrun⟩ := exists_end s.engine.shutdown
  obtain rfl := cleanups_of_shutdown h hheld hrun
  refine ⟨left, ?_⟩
  intro events e
  constructor
  · intro hrun'
    obtain rfl := cleanups_of_shutdown h hheld hrun'
    exact ⟨rfl, hrun'.unique hrun⟩
  · intro hsame
    obtain ⟨rfl, rfl⟩ := hsame
    exact hrun

end Shutdown

/-- A registry has its names in the order in which they were last inserted while they were absent,
and under each of them what was inserted last; inserting and removing give back exactly what they
displace.  It makes no difference whether it is kept as one list or as a map and a list of names
that change one after the other.

The registry of an engine is the one that its operations made.  So, once nobody else holds a
deployment, a shutdown has exactly these instances clean up: those of the services, the last one in
the registry first, then the global ones, and of each service and of the engine those that come last
going in, out and through faults first.  It leaves nothing registered, no global handler, and none
in the global chains. -/
theorem shutdown_unwinds :
    (∀ (α : Type) (calls : List (Registry.Call α)),
      Registry.InOrder calls (Registry.after calls).names (Registry.after calls).items ∧
      (∀ name item old, ((Registry.after calls).insert name item).1 = some old ↔
        Registry.Latest calls name old) ∧
      (∀ name old, ((Registry.after calls).remove name).1 = some old ↔
        Registry.Latest calls name old) ∧
      (Catalogue.after calls).order = (Registry.after calls).names ∧
      (Catalogue.after calls).items = (Registry.after calls).items ∧
      ∀ c, ((Catalogue.after calls).call c).1 = ((Registry.after calls).call c).1) ∧
    (∀ config past s, History config past s ↔ ∃ log, Logged config past log s) ∧
    ∀ config past log s, Logged config past log s →
      s.engine.registry = Registry.after log ∧
      List.Forall₂ (ServesLatest s log) s.engine.registry.names s.engine.services ∧
      (s.held = [] → ∃ left,
        (∀ events e,
          Run s.engine.shutdown events e ↔ events = cleanups s.engine.unwinding ∧ e = left) ∧
        left.registry = .empty ∧ left.globals = .empty ∧
        ∀ flow, (left.globalChains.forFlow flow).handlers = []) := by
  refine ⟨?_, fun config past s => history_iff_exists_logged, ?_⟩
  · intro α calls
    have hlists := Registry.lists_after calls
    have hmirrors := Catalogue.mirrors_after calls
    exact ⟨hlists.inOrder, fun name _ => hlists.found name, hlists.found, hmirrors.order,
      hmirrors.items hlists.nodup, fun c => (hmirrors.call c).1⟩
  · intro config past log s h
    refine ⟨registry_of_logged h, forall₂_services h, ?_⟩
    intro hheld
    obtain ⟨left, hleft⟩ := exists_shutdown_iff h hheld
    exact ⟨left, hleft, left_of_shutdown h ((hleft _ _).mpr ⟨rfl, rfl⟩)⟩

/-! ### Two services with one guard -/

/-- A service behind a lock, which the guard of the vault looks after too. -/
def cellarService : ServiceSpec :=
  ⟨⟨"", "cellar"⟩, [], [⟨some ⟨"", "lock"⟩, lock, .inPhase "main", .empty⟩,
    ⟨some ⟨"", "guard"⟩, guard, .inPhase "main", .empty⟩], [], []⟩

def cellarFlows : Flows := (Namer.start.describeService cellarService).1

theorem resolve_cellar : Phase.resolve "main" cellarFlows.inbound =
    .ok ⟨"main", Phase.seats cellarFlows.inbound [0, 1]⟩ := by
  have hcycle : Graph.findCycle? [[], []] = none := by cbv
  exact Phase.resolve_of_stages rfl rfl hcycle rfl rfl

theorem build_cellar : ∃ chains,
    Chains.build onePhase.order (.service cellarService.name) .empty cellarFlows = .ok chains := by
  have htargets : ∀ d ∈ cellarFlows.inbound, d.rule.phase = "main" := by decide
  exact ⟨_, build_inbound _ htargets resolve_cellar⟩

theorem deploy_cellar : ∃ chains,
    Run (vaultInPlace.deploy cellarService) [⟨.init lock, none⟩, ⟨.init guard, none⟩]
      (vaultEngine [(vaultService.name, 0), (cellarService.name, 1)]
        ⟨2, [⟨0, vault [], 1⟩, ⟨1, ⟨cellarService.name, [], cellarFlows, chains, []⟩, 1⟩]⟩,
        .ok 1) := by
  obtain ⟨chains, hchains⟩ := build_cellar
  refine ⟨chains, ?_⟩
  unfold Engine.deploy vaultInPlace vaultEngine
  dsimp only
  rw [show Namer.start.describeService cellarService = (cellarFlows, Namer.start) from rfl]
  dsimp only
  rw [hchains]
  exact Run.ask (Run.ask (Run.done _))

/-- The cellar goes before the vault, and the guard cleans up once for each of them. -/
theorem vault_and_cellar_unwound : ∃ past s log, Logged onePhase past log s ∧ s.held = [] ∧
    Registry.InOrder log [vaultService.name, cellarService.name] [0, 1] ∧
    ∃ left, Run s.engine.shutdown (cleanups [guard, lock, guard]) left ∧
      left.registry = .empty := by
  obtain ⟨chains, hcellar⟩ := deploy_cellar
  have hlogged := Logged.new new_onePhase
    |>.step (Session.Logs.deploy deploy_vault)
    |>.step (Session.Logs.deploy hcellar)
  have horder := (shutdown_unwinds.1 Nat
    [.insert vaultService.name 0, .insert cellarService.name 1]).1
  obtain ⟨left, hleft, hempty, -⟩ := (shutdown_unwinds.2.2 _ _ _ _ hlogged).2.2 rfl
  exact ⟨_, _, _, hlogged, rfl, horder, left, (hleft _ _).mpr ⟨rfl, rfl⟩, hempty⟩

end SoapPipeline
