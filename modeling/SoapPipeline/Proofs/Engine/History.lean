/-
  SoapPipeline.Proofs.Engine.History

  Engines in use.

  A session is an engine together with the holds on its deployments that others
  than the registry have: dispatches that run on a deployment, and whoever has
  asked for one.  A history is any sequence of operations on a new engine,
  successful or failing, in which deployments are held and let go in between,
  with everything that handlers were asked.

  Main results:
    * `Sound`: the registry lists every name and every deployment once, and the
      holds are accounted for;
    * `sound_of_history`: this is so after every history.
-/
import SoapPipeline.Proofs.Engine.Holdings
import SoapPipeline.Proofs.Engine.Operations
import SoapPipeline.Proofs.Registry

namespace SoapPipeline

open Program

/-- What is deployed under a name is registered and lives. -/
theorem Engine.deployed?_eq_some_iff {e : Engine} {service : QName} {id : Nat} {d : Deployment} :
    e.deployed? service = some (id, d) ↔
      e.registry.get? service = some id ∧ e.deployments.find? id = some d := by
  unfold deployed?
  constructor
  · intro h
    obtain ⟨id', hget, h⟩ := Option.bind_eq_some_iff.mp h
    obtain ⟨d', hfind, h⟩ := Option.bind_eq_some_iff.mp h
    obtain ⟨rfl, rfl⟩ := Prod.mk.inj (Option.some.inj h)
    exact ⟨hget, hfind⟩
  · intro h
    exact Option.bind_eq_some_iff.mpr ⟨id, h.1, Option.bind_eq_some_iff.mpr ⟨d, h.2, rfl⟩⟩

/-- An engine in use. -/
structure Session where
  engine : Engine
  /-- The deployments that others than the registry hold, once for each holder. -/
  held : List Nat

/-- One thing that happens to an engine in use, with what handlers are asked meanwhile. -/
inductive Session.Step : Session → List LifecycleEvent → Session → Prop
  | engage {s : Session} {flow : Flow} {spec : HandlerSpec} {events : List LifecycleEvent}
      {e : Engine} {result : Except DeployError Descriptor}
      (h : Run (s.engine.engage flow spec) events (e, result)) : s.Step events ⟨e, s.held⟩
  | deploy {s : Session} {spec : ServiceSpec} {events : List LifecycleEvent} {e : Engine}
      {result : Except DeployError Nat} (h : Run (s.engine.deploy spec) events (e, result)) :
      s.Step events ⟨e, s.held⟩
  | undeploy {s : Session} {service : QName} {events : List LifecycleEvent} {e : Engine}
      {result : Except DeployError Unit}
      (h : Run (s.engine.undeploy service) events (e, result)) : s.Step events ⟨e, s.held⟩
  | shutdown {s : Session} {events : List LifecycleEvent} {e : Engine}
      (h : Run s.engine.shutdown events e) : s.Step events ⟨e, s.held⟩
  /-- Someone takes hold of a deployment that lives. -/
  | hold {s : Session} {id : Nat} {d : Deployment}
      (hlives : s.engine.deployments.find? id = some d) :
      s.Step [] ⟨s.engine.retain id, id :: s.held⟩
  /-- Someone lets go of a deployment. -/
  | letGo {s : Session} {id : Nat} {events : List LifecycleEvent} {e : Engine}
      (hheld : id ∈ s.held) (h : Run (s.engine.release id) events e) :
      s.Step events ⟨e, s.held.erase id⟩

/-- What can have happened to an engine of this configuration, and the session it led to. -/
inductive History (config : Config) : List LifecycleEvent → Session → Prop
  | new {e : Engine} (h : Engine.new config = .ok e) : History config [] ⟨e, []⟩
  | step {past events : List LifecycleEvent} {s s' : Session} (h : History config past s)
      (hstep : s.Step events s') : History config (past ++ events) s'

/-! ## Sound sessions -/

namespace Session

/-- The holds on deployments: those of the registry and those of others. -/
def holds (s : Session) : List Nat := s.engine.registry.items ++ s.held

/-- The holds that stay when one of the others lets go. -/
theorem perm_holds {s : Session} {id : Nat} (hheld : id ∈ s.held) :
    s.holds.Perm (id :: (s.engine.registry.items ++ s.held.erase id)) :=
  ((List.perm_cons_erase hheld).append_left _).trans List.perm_middle

end Session

/-- The registry lists every name and every deployment once, and the holds are accounted for. -/
structure Sound (s : Session) : Prop where
  names : s.engine.registry.names.Nodup
  items : s.engine.registry.items.Nodup
  accounted : s.engine.deployments.Accounted s.holds

namespace Sound

open Engine Deployments

variable {s : Session} {e : Engine} {events : List LifecycleEvent}

/-- Soundness speaks of the registry, the deployments and the holds only. -/
theorem congr (h : Sound s) (hregistry : e.registry = s.engine.registry)
    (hdeployments : e.deployments = s.engine.deployments) : Sound ⟨e, s.held⟩ := by
  refine ⟨?_, ?_, ?_⟩
  · show e.registry.names.Nodup
    rw [hregistry]
    exact h.names
  · show e.registry.items.Nodup
    rw [hregistry]
    exact h.items
  · show e.deployments.Accounted (e.registry.items ++ s.held)
    rw [hregistry, hdeployments]
    exact h.accounted

theorem publish (h : Sound s) (rebuilt : List (Nat × Chains)) :
    (Engine.publish s.engine.deployments rebuilt).Accounted s.holds := by
  have haccounted := h.accounted
  unfold Engine.publish
  generalize s.engine.deployments = ds at haccounted
  induction rebuilt generalizing ds with
  | nil => exact haccounted
  | cons entry rest ih => exact ih _ (haccounted.modify _ _)

theorem engaged {flow : Flow} {spec : HandlerSpec} {result : Except DeployError Descriptor}
    (h : Sound s) (hengaged : Engaged s.engine flow spec events e result) :
    Sound ⟨e, s.held⟩ := by
  cases hengaged with
  | refused => exact h.congr rfl rfl
  | notReady => exact h.congr rfl rfl
  | engaged => exact ⟨h.names, h.items, h.publish _⟩

/-! ### Deploying -/

theorem handed (h : Sound s) (previous : Option (Nat × Deployment)) (flows : Flows) :
    (s.engine.handed previous flows).Accounted s.holds := by
  unfold Engine.handed
  split
  next => exact h.accounted.modify _ _
  next => exact h.accounted

section Installed

variable {d : Deployment} {previous : Option (Nat × Deployment)} {id : Nat}

/-- The holds once the new deployment is registered and what it displaces is not let go yet. -/
theorem accounted_add (h : Sound s) (d : Deployment) (previous : Option (Nat × Deployment)) :
    ((s.engine.handed previous d.flows).add d).2.Accounted
      ((s.engine.registry.get? d.service).toList ++
        (s.engine.registry.insert d.service ((s.engine.handed previous d.flows).add d).1).2.items ++
        s.held) := by
  -- The hold of the registry on the new deployment displaces the one on the old.
  refine ((h.handed previous d.flows).add d).perm ?_
  exact (Registry.perm_items_insert.symm.append_right s.held)

/-- A new deployment has a new id. -/
theorem nodup_items_add (h : Sound s) (d : Deployment) (previous : Option (Nat × Deployment)) :
    ((s.engine.registry.get? d.service).toList ++
      (s.engine.registry.insert d.service
        ((s.engine.handed previous d.flows).add d).1).2.items).Nodup := by
  have hfresh : ((s.engine.handed previous d.flows).add d).1 ∉ s.engine.registry.items := by
    intro hmem
    have hlt := (h.handed previous d.flows).lt_nextId (List.mem_append_left s.held hmem)
    exact absurd hlt (Nat.lt_irrefl _)
  exact Registry.perm_items_insert.nodup_iff.mpr (List.nodup_cons.mpr ⟨hfresh, h.items⟩)

theorem installed (h : Sound s) (hinstalled : Installed s.engine d previous events e id) :
    Sound ⟨e, s.held⟩ := by
  have haccounted := h.accounted_add d previous
  have hnodup := h.nodup_items_add d previous
  cases hinstalled with
  | added hfree =>
    rw [hfree] at haccounted hnodup
    exact ⟨Registry.nodup_names_insert h.names, hnodup, haccounted⟩
  | replaced hold =>
    rw [hold] at haccounted hnodup
    -- What the registry held on the displaced deployment is let go, whoever else holds it.
    exact ⟨Registry.nodup_names_insert h.names, (List.nodup_cons.mp hnodup).2,
      haccounted.release_head⟩

end Installed

theorem deployed {spec : ServiceSpec} {result : Except DeployError Nat} (h : Sound s)
    (hdeployed : Deployed s.engine spec events e result) : Sound ⟨e, s.held⟩ := by
  cases hdeployed with
  | refused => exact h.congr rfl rfl
  | notReady => exact h.congr rfl rfl
  | @deployed flows namer _ _ _ _ _ _ _ _ hinstalled =>
    have hnamed : Sound ⟨{ s.engine with namer }, s.held⟩ := h.congr rfl rfl
    exact hnamed.installed hinstalled

/-! ### Removing and holding -/

/-- The holds once a name is out of the registry and what it named is not let go yet. -/
theorem accounted_remove (h : Sound s) (name : QName) :
    s.engine.deployments.Accounted ((s.engine.registry.get? name).toList ++
      (s.engine.registry.remove name).2.items ++ s.held) := by
  refine h.accounted.perm ?_
  exact (Registry.perm_items_remove h.names).symm.append_right s.held

theorem removed {name : QName} (h : Sound s) (hremoved : Removed s.engine name events e) :
    Sound ⟨e, s.held⟩ := by
  have hnames : (s.engine.registry.remove name).2.names.Nodup :=
    Registry.nodup_names_remove h.names
  have hnodup : ((s.engine.registry.get? name).toList ++
      (s.engine.registry.remove name).2.items).Nodup :=
    (Registry.perm_items_remove h.names).nodup_iff.mpr h.items
  have haccounted := h.accounted_remove name
  cases hremoved with
  | absent habsent =>
    rw [habsent] at hnodup haccounted
    exact ⟨hnames, hnodup, haccounted⟩
  | removed hget =>
    rw [hget] at hnodup haccounted
    exact ⟨hnames, (List.nodup_cons.mp hnodup).2, haccounted.release_head⟩

theorem removeAll {names : List QName} (h : Sound s)
    (hrun : Run (s.engine.removeAll names) events e) : Sound ⟨e, s.held⟩ := by
  induction names generalizing s events with
  | nil =>
    obtain ⟨rfl, rfl⟩ := Run.pure_iff.mp hrun
    exact h
  | cons name rest ih =>
    obtain ⟨front, mid, back, rfl, hremoved, hrest⟩ := removed_of_removeAll hrun
    exact ih (s := ⟨mid, s.held⟩) (h.removed hremoved) hrest

theorem shutDown (h : Sound s) (hshut : ShutDown s.engine events e) : Sound ⟨e, s.held⟩ := by
  cases hshut with
  | shutDown hremoved =>
    have hmid := h.removeAll hremoved
    exact ⟨hmid.names, hmid.items, hmid.accounted⟩

theorem hold {id : Nat} (h : Sound s) {d : Deployment}
    (hlives : s.engine.deployments.find? id = some d) :
    Sound ⟨s.engine.retain id, id :: s.held⟩ := by
  refine ⟨h.names, h.items, ?_⟩
  refine (h.accounted.retain (h.accounted.mem_of_find? hlives)).perm ?_
  exact List.perm_middle.symm

theorem letGo {id : Nat} (h : Sound s) (hheld : id ∈ s.held)
    (hrun : Run (s.engine.release id) events e) : Sound ⟨e, s.held.erase id⟩ := by
  obtain ⟨-, rfl⟩ := eq_of_release hrun
  exact ⟨h.names, h.items, (h.accounted.perm (Session.perm_holds hheld)).release_head⟩

/-! ### Histories -/

/-- Whatever happens keeps a session sound. -/
theorem step {s' : Session} (h : Sound s) (hstep : s.Step events s') : Sound s' := by
  cases hstep with
  | engage hrun => exact h.engaged (engaged_of_engage hrun)
  | deploy hrun => exact h.deployed (deployed_of_deploy hrun)
  | undeploy hrun =>
    cases undeployed_of_undeploy hrun with
    | notDeployed => exact h
    | undeployed _ hremoved => exact h.removed hremoved
  | shutdown hrun => exact h.shutDown (shutDown_of_shutdown hrun)
  | hold hlives => exact h.hold hlives
  | letGo hheld hrun => exact h.letGo hheld hrun

end Sound

theorem eq_of_new {config : Config} {e : Engine} (h : Engine.new config = .ok e) :
    ∃ chains, Chains.build config.order .engine .empty .empty = .ok chains ∧
      e = ⟨config, Namer.start, .empty, chains, .empty, .empty⟩ := by
  unfold Engine.new at h
  cases hchains : Chains.build config.order .engine .empty .empty with
  | error error =>
    rw [hchains] at h
    cases h
  | ok chains =>
    rw [hchains] at h
    exact ⟨chains, rfl, (Except.ok.inj h).symm⟩

/-! ## The configuration -/

/-- Removing names changes nothing but the registry and the deployments. -/
theorem eq_of_removeAll {e e' : Engine} {events : List LifecycleEvent} {names : List QName}
    (hrun : Run (e.removeAll names) events e') :
    e' = { e with registry := e'.registry, deployments := e'.deployments } := by
  induction names generalizing e events with
  | nil =>
    obtain ⟨-, rfl⟩ := Run.pure_iff.mp hrun
    rfl
  | cons name rest ih =>
    obtain ⟨front, mid, back, -, hremoved, hrest⟩ := Engine.removed_of_removeAll hrun
    have hlater := ih hrest
    cases hremoved <;> exact hlater

/-- No operation changes the configuration. -/
theorem config_of_step {s s' : Session} {events : List LifecycleEvent} (hstep : s.Step events s') :
    s'.engine.config = s.engine.config := by
  cases hstep with
  | engage hrun => cases Engine.engaged_of_engage hrun <;> rfl
  | deploy hrun =>
    cases Engine.deployed_of_deploy hrun with
    | refused => rfl
    | notReady => rfl
    | deployed _ _ _ hinstalled => cases hinstalled <;> rfl
  | undeploy hrun =>
    cases Engine.undeployed_of_undeploy hrun with
    | notDeployed => rfl
    | undeployed _ hremoved => cases hremoved <;> rfl
  | shutdown hrun =>
    cases Engine.shutDown_of_shutdown hrun with
    | @shutDown front mid hremoved =>
      show mid.config = s.engine.config
      rw [eq_of_removeAll hremoved]
  | hold => rfl
  | letGo _ hrun =>
    obtain ⟨-, rfl⟩ := Engine.eq_of_release hrun
    rfl

theorem config_of_history {config : Config} {past : List LifecycleEvent} {s : Session}
    (h : History config past s) : s.engine.config = config := by
  induction h with
  | new hnew =>
    obtain ⟨chains, -, rfl⟩ := eq_of_new hnew
    rfl
  | step _ hstep ih => rw [config_of_step hstep, ih]

/-! ## Soundness after every history -/

theorem sound_of_history {config : Config} {past : List LifecycleEvent} {s : Session}
    (h : History config past s) : Sound s := by
  induction h with
  | new hnew =>
    obtain ⟨chains, -, rfl⟩ := eq_of_new hnew
    exact ⟨List.nodup_nil, List.nodup_nil, Deployments.Accounted.empty⟩
  | step _ hstep ih => exact ih.step hstep

end SoapPipeline
