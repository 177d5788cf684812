/-
  SoapPipeline.Proofs.Engine.PublishedChains

  The chains that are published are those that the declared handlers resolve to.

  An operation refreshes three things: the global handlers, the global chains
  and the chains of every registered deployment.  Engaging a handler changes the
  first and must bring the other two up to date; deploying builds chains over
  the global handlers there are; everything else may only take deployments away.

  Main results:
    * `Published.step`: no operation leaves a chain behind;
    * `published_of_history`: after every history the chains of all scopes
      resolve, and are what is published.
-/
import SoapPipeline.Proofs.Chain.Partition
import SoapPipeline.Proofs.Engine.History

namespace SoapPipeline

open Program

/-! ## Published chains -/

/-- The deployment serves this name with the chains that the global handlers followed by its own
ones resolve to. -/
structure Current (order : PhaseOrder) (globals : Flows) (name : QName) (d : Deployment) :
    Prop where
  service : d.service = name
  chains : Chains.build order (.service name) globals d.flows = .ok d.chains

/-- All published chains are up to date, and the chains of no handlers at all resolve. -/
structure Published (e : Engine) : Prop where
  noHandlers : ∃ chains, Chains.build e.config.order .engine .empty .empty = .ok chains
  globalChains : Chains.build e.config.order .engine e.globals .empty = .ok e.globalChains
  services : ∀ name id, e.registry.get? name = some id →
    ∃ d, e.deployments.find? id = some d ∧ Current e.config.order e.globals name d

theorem Current.handOver {order : PhaseOrder} {globals : Flows} {name : QName} {d : Deployment}
    (h : Current order globals name d) (handlers : List Handler) :
    Current order globals name (d.handOver handlers) :=
  ⟨h.service, h.chains⟩

/-! ## Building all chains anew -/

/-- A list that is mapped to results with the key of their origin: the keys keep their order, and
everything that gives a result has it listed. -/
theorem filterMapM_eq_ok {α β ε : Type} {f : α → Except ε (Option β)} {key : β → α} {l : List α}
    {out : List β} (hkey : ∀ a b, f a = .ok (some b) → key b = a)
    (h : l.filterMapM f = .ok out) :
    (out.map key).Sublist l ∧ ∀ a ∈ l, f a = .ok none ∨ ∃ b ∈ out, f a = .ok (some b) := by
  induction l generalizing out with
  | nil =>
    obtain rfl := Except.ok.inj h
    exact ⟨List.Sublist.slnil, fun a ha => absurd ha List.not_mem_nil⟩
  | cons a l ih =>
    rw [List.filterMapM_cons] at h
    cases ha : f a with
    | error error =>
      rw [ha] at h
      cases h
    | ok found =>
      rw [ha] at h
      cases found with
      | none =>
        obtain ⟨hsub, hall⟩ := ih h
        refine ⟨hsub.cons a, ?_⟩
        intro x hx
        rcases List.mem_cons.mp hx with rfl | hx
        · exact Or.inl ha
        · exact hall x hx
      | some b =>
        cases hrest : l.filterMapM f with
        | error error =>
          change (l.filterMapM f >>= fun out => pure (b :: out)) = .ok out at h
          rw [hrest] at h
          cases h
        | ok rest =>
          change (l.filterMapM f >>= fun out => pure (b :: out)) = .ok out at h
          rw [hrest] at h
          obtain rfl := Except.ok.inj h
          obtain ⟨hsub, hall⟩ := ih hrest
          refine ⟨?_, ?_⟩
          · rw [List.map_cons, hkey a b ha]
            exact hsub.cons_cons a
          · intro x hx
            rcases List.mem_cons.mp hx with rfl | hx
            · exact Or.inr ⟨b, List.mem_cons_self, ha⟩
            · rcases hall x hx with hnone | ⟨c, hc, hsome⟩
              · exact Or.inl hnone
              · exact Or.inr ⟨c, List.mem_cons_of_mem b hc, hsome⟩

namespace Engine

variable {e : Engine} {globals : Flows} {rebuilt : List (Nat × Chains)}

/-- The new chains of one deployment, if it lives. -/
def rebuild (e : Engine) (globals : Flows) (id : Nat) :
    Except DeployError (Option (Nat × Chains)) :=
  match e.deployments.find? id with
  | none => .ok none
  | some d =>
    match Chains.build e.config.order (.service d.service) globals d.flows with
    | .ok chains => .ok (some (id, chains))
    | .error error => .error error

theorem rebuildAll_eq : e.rebuildAll globals = e.registry.items.filterMapM (e.rebuild globals) :=
  rfl

theorem fst_of_rebuild {id : Nat} {entry : Nat × Chains}
    (h : e.rebuild globals id = .ok (some entry)) : entry.1 = id := by
  unfold rebuild at h
  split at h
  next => cases h
  next d hd =>
    split at h
    next => rw [← Option.some.inj (Except.ok.inj h)]
    next => cases h

/-- Every registered deployment that lives has its new chains, under its own id only. -/
theorem rebuilt_of_rebuildAll (hitems : e.registry.items.Nodup)
    (h : e.rebuildAll globals = .ok rebuilt) :
    (rebuilt.map Prod.fst).Nodup ∧
      ∀ id ∈ e.registry.items, ∀ d, e.deployments.find? id = some d →
        ∃ chains, Chains.build e.config.order (.service d.service) globals d.flows = .ok chains ∧
          (id, chains) ∈ rebuilt := by
  rw [rebuildAll_eq] at h
  obtain ⟨hsub, hall⟩ := filterMapM_eq_ok (fun _ _ => fst_of_rebuild) h
  refine ⟨hitems.sublist hsub, ?_⟩
  intro id hid d hd
  have hrebuild := hall id hid
  unfold rebuild at hrebuild
  rw [hd] at hrebuild
  dsimp only at hrebuild
  cases hchains : Chains.build e.config.order (.service d.service) globals d.flows with
  | error error =>
    rw [hchains] at hrebuild
    rcases hrebuild with hnone | ⟨entry, -, hsome⟩
    · cases hnone
    · cases hsome
  | ok chains =>
    rw [hchains] at hrebuild
    rcases hrebuild with hnone | ⟨entry, hentry, hsome⟩
    · cases hnone
    · obtain rfl := Option.some.inj (Except.ok.inj hsome)
      exact ⟨chains, rfl, hentry⟩

/-- Where one service is registered, its new chains are all that there are. -/
theorem rebuildAll_singleton {id : Nat} {d : Deployment} {chains : Chains}
    (hitems : e.registry.items = [id]) (hd : e.deployments.find? id = some d)
    (hchains : Chains.build e.config.order (.service d.service) globals d.flows = .ok chains) :
    e.rebuildAll globals = .ok [(id, chains)] := by
  have hrebuild : e.rebuild globals id = .ok (some (id, chains)) := by
    unfold rebuild
    rw [hd]
    dsimp only
    rw [hchains]
  rw [rebuildAll_eq, hitems, List.filterMapM_cons, hrebuild]
  rfl

/-! ## Publishing -/

theorem find?_publish_of_not_mem {ds : Deployments} {id : Nat}
    (h : id ∉ rebuilt.map Prod.fst) : (publish ds rebuilt).find? id = ds.find? id := by
  induction rebuilt generalizing ds with
  | nil => rfl
  | cons entry rest ih =>
    rw [List.map_cons, List.mem_cons, not_or] at h
    show (publish (ds.modify entry.1 _) rest).find? id = _
    rw [ih h.2, Deployments.find?_modify_of_ne _ h.1]

theorem find?_publish {ds : Deployments} {id : Nat} {chains : Chains}
    (hnodup : (rebuilt.map Prod.fst).Nodup) (hmem : (id, chains) ∈ rebuilt) :
    (publish ds rebuilt).find? id = (ds.find? id).map fun d => { d with chains } := by
  induction rebuilt generalizing ds with
  | nil => exact absurd hmem List.not_mem_nil
  | cons entry rest ih =>
    obtain ⟨hnew, hrest⟩ := List.nodup_cons.mp hnodup
    show (publish (ds.modify entry.1 _) rest).find? id = _
    -- Every id is published once, so that no later entry overwrites this one.
    rcases List.mem_cons.mp hmem with rfl | hmem
    · rw [find?_publish_of_not_mem hnew, Deployments.find?_modify_self]
    · have hne : id ≠ entry.1 := by
        intro heq
        exact hnew (heq ▸ List.mem_map_of_mem hmem)
      rw [ih hrest hmem, Deployments.find?_modify_of_ne _ hne]

end Engine

/-! ## Operations -/

namespace Published

open Engine Deployments

variable {s : Session} {e : Engine} {events : List LifecycleEvent}

/-- Nothing that is published depends on the names given so far. -/
theorem named {namer : Namer} (h : Published e) : Published { e with namer } :=
  ⟨h.noHandlers, h.globalChains, h.services⟩

theorem engaged {flow : Flow} {spec : HandlerSpec} {result : Except DeployError Descriptor}
    (hsound : Sound s) (h : Published s.engine)
    (hengaged : Engaged s.engine flow spec events e result) : Published e := by
  cases hengaged with
  | refused => exact h.named
  | notReady => exact h.named
  | @engaged d namer _ globalChains rebuilt _ hglobal hrebuilt =>
    -- The rebuilt chains are over the flows of the deployments as they are now, and publishing
    -- changes nothing but chains.
    obtain ⟨hnodup, hall⟩ := rebuilt_of_rebuildAll hsound.items hrebuilt
    refine ⟨h.noHandlers, hglobal, ?_⟩
    intro name id hget
    obtain ⟨old, hold, hcurrent⟩ := h.services name id hget
    obtain ⟨chains, hchains, hmem⟩ := hall id (Registry.mem_items_of_get? hget) old hold
    refine ⟨{ old with chains }, ?_, hcurrent.service, ?_⟩
    · rw [find?_publish hnodup hmem, hold]
      rfl
    · rw [hcurrent.service] at hchains
      exact hchains

/-! ### Deploying -/

/-- Handing handlers over changes no chain. -/
theorem exists_find?_handed {order : PhaseOrder} {globals flows : Flows} {name : QName} {id : Nat}
    {d : Deployment} (previous : Option (Nat × Deployment))
    (hd : e.deployments.find? id = some d) (hcurrent : Current order globals name d) :
    ∃ d', (e.handed previous flows).find? id = some d' ∧ Current order globals name d' := by
  unfold Engine.handed
  split
  next old replaced =>
    by_cases heq : id = old
    · -- The replaced deployment is still found until it is let go.
      rw [heq] at hd ⊢
      rw [find?_modify_self, hd]
      exact ⟨_, rfl, hcurrent.handOver _⟩
    · rw [find?_modify_of_ne _ heq]
      exact ⟨d, hd, hcurrent⟩
  next => exact ⟨d, hd, hcurrent⟩

/-- Once the new deployment is added, it is found under the name it is registered under, and all
others are found as before. -/
theorem services_add {d : Deployment} (hsound : Sound s) (h : Published s.engine)
    (previous : Option (Nat × Deployment))
    (hcurrent : Current s.engine.config.order s.engine.globals d.service d) (name : QName)
    (id : Nat) (hget : (s.engine.registry.insert d.service
      ((s.engine.handed previous d.flows).add d).1).2.get? name = some id) :
    ∃ d', ((s.engine.handed previous d.flows).add d).2.find? id = some d' ∧
      Current s.engine.config.order s.engine.globals name d' := by
  rw [Registry.get?_insert] at hget
  by_cases heq : name = d.service
  · rw [if_pos heq] at hget
    obtain rfl := Option.some.inj hget
    rw [heq]
    exact ⟨d, (hsound.handed previous d.flows).find?_add_self d, hcurrent⟩
  · rw [if_neg heq] at hget
    obtain ⟨old, hold, hcurrent_old⟩ := h.services name id hget
    obtain ⟨d', hd', hcurrent'⟩ := exists_find?_handed previous hold hcurrent_old
    exact ⟨d', find?_add_of_some hd', hcurrent'⟩

theorem installed {d : Deployment} {previous : Option (Nat × Deployment)} {id : Nat}
    (hsound : Sound s) (h : Published s.engine)
    (hcurrent : Current s.engine.config.order s.engine.globals d.service d)
    (hinstalled : Installed s.engine d previous events e id) : Published e := by
  have hservices := services_add hsound h previous hcurrent
  have haccounted := hsound.accounted_add d previous
  cases hinstalled with
  | added => exact ⟨h.noHandlers, h.globalChains, hservices⟩
  | replaced hold =>
    refine ⟨h.noHandlers, h.globalChains, ?_⟩
    intro name id hget
    obtain ⟨d', hd', hcurrent'⟩ := hservices name id hget
    refine ⟨d', ?_, hcurrent'⟩
    rw [hold] at haccounted
    -- The registry holds what it lists, so that the displaced hold is not the last one on it.
    have hheld := List.mem_append_left s.held (Registry.mem_items_of_get? hget)
    show (((s.engine.handed previous d.flows).add d).2.release _).2.find? id = some d'
    rw [haccounted.find?_release_head hheld]
    exact hd'

theorem deployed {spec : ServiceSpec} {result : Except DeployError Nat} (hsound : Sound s)
    (h : Published s.engine) (hdeployed : Deployed s.engine spec events e result) :
    Published e := by
  cases hdeployed with
  | refused => exact h.named
  | notReady => exact h.named
  | @deployed flows namer _ _ _ _ _ _ hchains _ hinstalled =>
    have hnamed : Sound ⟨{ s.engine with namer }, s.held⟩ := hsound.congr rfl rfl
    exact installed hnamed h.named ⟨rfl, hchains⟩ hinstalled

/-! ### Removing and holding -/

theorem removed {name : QName} (hsound : Sound s) (h : Published s.engine)
    (hremoved : Removed s.engine name events e) : Published e := by
  have haccounted := hsound.accounted_remove name
  have hget_old : ∀ other id, (s.engine.registry.remove name).2.get? other = some id →
      s.engine.registry.get? other = some id := by
    intro other id hget
    rw [Registry.get?_remove] at hget
    split at hget
    next => exact absurd hget (by simp)
    next => exact hget
  cases hremoved with
  | absent =>
    exact ⟨h.noHandlers, h.globalChains,
      fun other id hget => h.services other id (hget_old other id hget)⟩
  | removed hid =>
    refine ⟨h.noHandlers, h.globalChains, ?_⟩
    intro other id hget
    obtain ⟨d, hd, hcurrent⟩ := h.services other id (hget_old other id hget)
    refine ⟨d, ?_, hcurrent⟩
    rw [hid] at haccounted
    have hheld := List.mem_append_left s.held (Registry.mem_items_of_get? hget)
    show (s.engine.deployments.release _).2.find? id = some d
    rw [haccounted.find?_release_head hheld]
    exact hd

theorem removeAll {names : List QName} (hsound : Sound s) (h : Published s.engine)
    (hrun : Run (s.engine.removeAll names) events e) : Published e := by
  induction names generalizing s events with
  | nil =>
    obtain ⟨rfl, rfl⟩ := Run.pure_iff.mp hrun
    exact h
  | cons name rest ih =>
    obtain ⟨front, mid, back, rfl, hremoved, hrest⟩ := removed_of_removeAll hrun
    exact ih (s := ⟨mid, s.held⟩) (hsound.removed hremoved) (h.removed hsound hremoved) hrest

end Published

theorem registry_of_removeAll {e e' : Engine} {events : List LifecycleEvent} {names : List QName}
    (hrun : Run (e.removeAll names) events e') : e'.registry = e.registry.removeNames names := by
  induction names generalizing e events with
  | nil =>
    obtain ⟨rfl, rfl⟩ := Run.pure_iff.mp hrun
    rfl
  | cons name rest ih =>
    obtain ⟨front, mid, back, rfl, hremoved, hrest⟩ := Engine.removed_of_removeAll hrun
    have hmid : mid.registry = (e.registry.remove name).2 := by
      cases hremoved <;> rfl
    rw [ih hrest, hmid]
    rfl

/-- A shutdown leaves no service behind, so that no chain is left to be refreshed. -/
theorem registry_of_shutDown {e e' : Engine} {events : List LifecycleEvent}
    (hrun : Run (e.removeAll e.registry.names.reverse) events e') : e'.registry = .empty := by
  rw [registry_of_removeAll hrun, Registry.removeNames_names]

namespace Published

open Engine Deployments

variable {s : Session} {e : Engine} {events : List LifecycleEvent}

theorem shutDown (hsound : Sound s) (h : Published s.engine)
    (hshut : ShutDown s.engine events e) : Published e := by
  cases hshut with
  | @shutDown front mid hremoved =>
    have hmid := removeAll hsound h hremoved
    obtain ⟨chains, hchains⟩ := hmid.noHandlers
    refine ⟨⟨chains, hchains⟩, ?_, ?_⟩
    · show Chains.build mid.config.order .engine .empty .empty = .ok mid.clearedChains
      -- The chains of no handlers resolved when the engine was made, and they do so now.
      unfold clearedChains
      rw [hchains]
    · intro name id hget
      change mid.registry.get? name = some id at hget
      rw [registry_of_shutDown hremoved] at hget
      cases hget

theorem hold {id : Nat} (h : Published s.engine) : Published (s.engine.retain id) := by
  refine ⟨h.noHandlers, h.globalChains, ?_⟩
  intro name other hget
  obtain ⟨d, hd, hcurrent⟩ := h.services name other hget
  refine ⟨d, ?_, hcurrent⟩
  show (s.engine.deployments.retain id).find? other = some d
  rw [find?_retain]
  exact hd

theorem letGo {id : Nat} (hsound : Sound s) (h : Published s.engine) (hheld : id ∈ s.held)
    (hrun : Run (s.engine.release id) events e) : Published e := by
  obtain ⟨-, rfl⟩ := eq_of_release hrun
  refine ⟨h.noHandlers, h.globalChains, ?_⟩
  intro name other hget
  obtain ⟨d, hd, hcurrent⟩ := h.services name other hget
  refine ⟨d, ?_, hcurrent⟩
  have haccounted := hsound.accounted.perm (Session.perm_holds hheld)
  show (s.engine.deployments.release id).2.find? other = some d
  rw [haccounted.find?_release_head
    (List.mem_append_left _ (Registry.mem_items_of_get? hget))]
  exact hd

/-! ### Histories -/

/-- No operation leaves a chain behind, whether it succeeds or fails. -/
theorem step {s' : Session} (hsound : Sound s) (h : Published s.engine)
    (hstep : s.Step events s') : Published s'.engine := by
  cases hstep with
  | engage hrun => exact h.engaged hsound (engaged_of_engage hrun)
  | deploy hrun => exact h.deployed hsound (deployed_of_deploy hrun)
  | undeploy hrun =>
    cases undeployed_of_undeploy hrun with
    | notDeployed => exact h
    | undeployed _ hremoved => exact h.removed hsound hremoved
  | shutdown hrun => exact h.shutDown hsound (shutDown_of_shutdown hrun)
  | hold => exact h.hold
  | letGo hheld hrun => exact h.letGo hsound hheld hrun

theorem new {config : Config} (hnew : Engine.new config = .ok e) : Published e := by
  obtain ⟨chains, hchains, rfl⟩ := eq_of_new hnew
  refine ⟨⟨chains, hchains⟩, hchains, ?_⟩
  intro name id hget
  exact absurd hget (by simp [Registry.get?, Registry.empty])

end Published

theorem Published.of_history {config : Config} {past : List LifecycleEvent} {s : Session}
    (h : History config past s) : Published s.engine := by
  induction h with
  | new hnew => exact Published.new hnew
  | step hpast hstep ih => exact ih.step (sound_of_history hpast) hstep

/-- After every history the global chains are those that the global handlers resolve to, every
registered service is found with the chains that the global handlers followed by its own ones
resolve to, and the chains of no handlers at all, which a shutdown asks for, resolve. -/
theorem published_of_history {config : Config} {past : List LifecycleEvent} {s : Session}
    (h : History config past s) :
    Chains.build config.order .engine s.engine.globals .empty = .ok s.engine.globalChains ∧
      (∀ name ∈ s.engine.registry.names, ∃ id d, s.engine.deployed? name = some (id, d) ∧
        Chains.build config.order (.service name) s.engine.globals d.flows = .ok d.chains) ∧
      ∃ chains, Chains.build config.order .engine .empty .empty = .ok chains := by
  have hpublished := Published.of_history h
  rw [← config_of_history h]
  refine ⟨hpublished.globalChains, ?_, hpublished.noHandlers⟩
  intro name hname
  obtain ⟨id, hget⟩ := Registry.mem_names_iff.mp hname
  obtain ⟨d, hd, hcurrent⟩ := hpublished.services name id hget
  refine ⟨id, d, ?_, hcurrent.chains⟩
  unfold Engine.deployed?
  rw [hget]
  show (s.engine.deployments.find? id >>= fun d => some (id, d)) = _
  rw [hd]
  rfl

/-! ### An engine with one phase -/

/-- A configuration with one phase in every direction. -/
def onePhase : Config := { Config.standard with order := PhaseOrder.ofInbound ["main"] }

/-- The chains of no handlers at all. -/
def emptyChains (scope : Scope) : Chains :=
  ⟨⟨.inbound, scope, [.empty "main"]⟩, ⟨.outbound, scope, [.empty "main"]⟩,
    ⟨.fault, scope, [.empty "main"]⟩⟩

theorem build_onePhase (scope : Scope) :
    Chains.build onePhase.order scope .empty .empty = .ok (emptyChains scope) := by
  cbv

theorem new_onePhase : Engine.new onePhase =
    .ok ⟨onePhase, Namer.start, .empty, emptyChains .engine, .empty, .empty⟩ := by
  unfold Engine.new
  rw [build_onePhase]
  rfl

/-- In one phase, the chains of inbound handlers are determined by how that phase is resolved. -/
theorem build_inbound {globals own : List Descriptor} {p : Phase} (scope : Scope)
    (htargets : ∀ d ∈ globals ++ own, d.rule.phase = "main")
    (hresolve : Phase.resolve "main" (globals ++ own) = .ok p) :
    Chains.build onePhase.order scope ⟨globals, [], []⟩ ⟨own, [], []⟩ =
      .ok { emptyChains scope with inbound := ⟨.inbound, scope, [p]⟩ } := by
  have hinbound : Chain.build onePhase.order .inbound scope (globals ++ own) =
      .ok ⟨.inbound, scope, [p]⟩ := Chain.resolve_singleton htargets hresolve
  have houtbound : Chains.buildFlow onePhase.order scope ⟨globals, [], []⟩ ⟨own, [], []⟩
      .outbound = .ok (emptyChains scope).outbound := by cbv
  have hfault : Chains.buildFlow onePhase.order scope ⟨globals, [], []⟩ ⟨own, [], []⟩ .fault =
      .ok (emptyChains scope).fault := by cbv
  unfold Chains.build
  rw [Chains.buildFlow, Flows.forFlow, Flows.forFlow, hinbound, houtbound, hfault]
  rfl

/-! ### Engaging handlers that have names -/

section Engaging

variable {e : Engine} {flow : Flow} {spec : HandlerSpec} {d : Descriptor} {globalChains : Chains}

/-- A handler that fits into all chains is engaged once it is ready. -/
theorem run_engage {rebuilt : List (Nat × Chains)}
    (hdescribed : e.namer.describe spec = (d, e.namer))
    (hglobal : Chains.build e.config.order .engine (e.globals.push flow d) .empty =
      .ok globalChains)
    (hservices : e.rebuildAll (e.globals.push flow d) = .ok rebuilt)
    (hnew : d.handler ∉ e.globals.handlers) :
    Run (e.engage flow spec) [⟨.init d.handler, none⟩]
      ({ e with
          globals := e.globals.push flow d
          globalChains
          deployments := Engine.publish e.deployments rebuilt }, .ok d) := by
  have hrebuilt : Engine.rebuildAll { e with namer := e.namer } (e.globals.push flow d) =
      .ok rebuilt := hservices
  unfold Engine.engage
  rw [hdescribed]
  dsimp only
  rw [hglobal]
  dsimp only
  rw [hrebuilt]
  dsimp only
  rw [if_neg hnew]
  exact Run.ask (Run.done _)

/-- One that does not fit into the chains of some service is asked for nothing. -/
theorem run_engage_refused {error : DeployError}
    (hdescribed : e.namer.describe spec = (d, e.namer))
    (hglobal : Chains.build e.config.order .engine (e.globals.push flow d) .empty =
      .ok globalChains)
    (hservices : e.rebuildAll (e.globals.push flow d) = .error error) :
    Run (e.engage flow spec) [] (e, .error error) := by
  have hrefused : Engine.rebuildAll { e with namer := e.namer } (e.globals.push flow d) =
      .error error := hservices
  unfold Engine.engage
  rw [hdescribed]
  dsimp only
  rw [hglobal]
  dsimp only
  rw [hrefused]
  exact Run.done _

end Engaging

/-! ### A shop whose handlers change -/

/-- Nothing runs ahead of the door. -/
def door : HandlerSpec :=
  ⟨some ⟨"", "door"⟩, ⟨1, []⟩, { Rule.inPhase "main" with first := true }, .empty⟩

def till : HandlerSpec := ⟨some ⟨"", "till"⟩, ⟨2, []⟩, .inPhase "main", .empty⟩

def audit : HandlerSpec := ⟨some ⟨"", "audit"⟩, ⟨3, []⟩, .inPhase "main", .empty⟩

/-- A shop with these handlers for what comes in. -/
def shop (own : List HandlerSpec) : ServiceSpec := ⟨⟨"", "shop"⟩, [], own, [], []⟩

/-- The flows of a scope that has nothing but these handlers for what comes in. -/
def inboundFlows (specs : List HandlerSpec) : Flows := (Namer.start.describeService (shop specs)).1

/-- The chains that run these handlers, in this order, on what comes in. -/
def inboundChains (scope : Scope) (specs : List HandlerSpec) : Chains :=
  { emptyChains scope with
    inbound := ⟨.inbound, scope, [⟨"main", (inboundFlows specs).inbound⟩]⟩ }

/-- The chains of the shop that run these handlers. -/
def shopChains (specs : List HandlerSpec) : Chains := inboundChains (.service ⟨"", "shop"⟩) specs

/-- The engine with these global handlers and one deployment of the shop, which has handlers of its
own and is served by those of a chain. -/
def shopEngine (globals : List HandlerSpec) (id : Nat) (own chain : List HandlerSpec) : Engine :=
  ⟨onePhase, Namer.start, inboundFlows globals, inboundChains .engine globals,
    ⟨[(⟨"", "shop"⟩, id)]⟩,
    ⟨id + 1, [⟨id, ⟨⟨"", "shop"⟩, [], inboundFlows own, shopChains chain, []⟩, 1⟩]⟩⟩

/-- The door goes ahead, and the others stay as they are declared. -/
theorem resolve_door : Phase.resolve "main" (inboundFlows [door]).inbound =
    .ok ⟨"main", (inboundFlows [door]).inbound⟩ := by
  have hcycle : Graph.findCycle? [[]] = none := by cbv
  have hresolve : Phase.resolve "main" (inboundFlows [door]).inbound =
      .ok ⟨"main", Phase.seats (inboundFlows [door]).inbound [0]⟩ :=
    Phase.resolve_of_stages rfl rfl hcycle rfl rfl
  exact hresolve

theorem resolve_audit : Phase.resolve "main" (inboundFlows [audit]).inbound =
    .ok ⟨"main", (inboundFlows [audit]).inbound⟩ := by
  have hcycle : Graph.findCycle? [[]] = none := by cbv
  have hresolve : Phase.resolve "main" (inboundFlows [audit]).inbound =
      .ok ⟨"main", Phase.seats (inboundFlows [audit]).inbound [0]⟩ :=
    Phase.resolve_of_stages rfl rfl hcycle rfl rfl
  exact hresolve

theorem resolve_audit_door : Phase.resolve "main" (inboundFlows [audit, door]).inbound =
    .ok ⟨"main", (inboundFlows [door, audit]).inbound⟩ := by
  have hcycle : Graph.findCycle? [[], []] = none := by cbv
  have hresolve : Phase.resolve "main" (inboundFlows [audit, door]).inbound =
      .ok ⟨"main", Phase.seats (inboundFlows [audit, door]).inbound [1, 0]⟩ :=
    Phase.resolve_of_stages rfl rfl hcycle rfl rfl
  exact hresolve

theorem resolve_audit_door_till : Phase.resolve "main" (inboundFlows [audit, door, till]).inbound =
    .ok ⟨"main", (inboundFlows [door, audit, till]).inbound⟩ := by
  have hcycle : Graph.findCycle? [[], [], []] = none := by cbv
  have hresolve : Phase.resolve "main" (inboundFlows [audit, door, till]).inbound =
      .ok ⟨"main", Phase.seats (inboundFlows [audit, door, till]).inbound [1, 0, 2]⟩ :=
    Phase.resolve_of_stages rfl rfl hcycle rfl rfl
  exact hresolve

/-- The shop opens with a door. -/
theorem deploy_shop :
    Run (Engine.deploy ⟨onePhase, Namer.start, .empty, emptyChains .engine, .empty, .empty⟩
      (shop [door])) [⟨.init door.handler, none⟩] (shopEngine [] 0 [door] [door], .ok 0) := by
  have hdescribed : Namer.start.describeService (shop [door]) =
      (inboundFlows [door], Namer.start) := rfl
  have hchains : Chains.build onePhase.order (.service (shop [door]).name) .empty
      (inboundFlows [door]) = .ok (shopChains [door]) :=
    build_inbound _ (by decide) resolve_door
  unfold Engine.deploy
  dsimp only
  rw [hdescribed]
  dsimp only
  rw [hchains]
  exact Run.ask (Run.done _)

/-- The global audit is declared ahead of the door and runs behind it. -/
theorem engage_audit : ∃ d, Run ((shopEngine [] 0 [door] [door]).engage .inbound audit)
    [⟨.init audit.handler, none⟩] (shopEngine [audit] 0 [door] [door, audit], .ok d) := by
  let e := shopEngine [] 0 [door] [door]
  let d := (e.namer.describe audit).1
  have hdescribed : e.namer.describe audit = (d, e.namer) := rfl
  have hglobal : Chains.build e.config.order .engine (e.globals.push .inbound d) .empty =
      .ok (inboundChains .engine [audit]) := build_inbound _ (by decide) resolve_audit
  have hshop : Chains.build onePhase.order (.service ⟨"", "shop"⟩) (e.globals.push .inbound d)
      (inboundFlows [door]) = .ok (shopChains [door, audit]) :=
    build_inbound _ (by decide) resolve_audit_door
  have hservices : e.rebuildAll (e.globals.push .inbound d) =
      .ok [(0, shopChains [door, audit])] := Engine.rebuildAll_singleton rfl rfl hshop
  exact ⟨d, run_engage hdescribed hglobal hservices (by decide)⟩

/-- A global door would be in order for the engine, but the shop has one already. -/
theorem engage_door : ∃ error,
    Run ((shopEngine [audit] 0 [door] [door, audit]).engage .inbound door) []
      (shopEngine [audit] 0 [door] [door, audit], .error error) := by
  let e := shopEngine [audit] 0 [door] [door, audit]
  let d := (e.namer.describe door).1
  have hdescribed : e.namer.describe door = (d, e.namer) := rfl
  have hglobal : Chains.build e.config.order .engine (e.globals.push .inbound d) .empty =
      .ok (inboundChains .engine [door, audit]) :=
    build_inbound _ (by decide) resolve_audit_door
  have hservices : e.rebuildAll (e.globals.push .inbound d) = .error
      (.resolution (.service ⟨"", "shop"⟩) .inbound (.duplicateHandler "main" "door")) := rfl
  exact ⟨_, run_engage_refused hdescribed hglobal hservices⟩

/-- The engine with the new shop. -/
def renewedShop : Engine := shopEngine [audit] 1 [door, till] [door, audit, till]

/-- The new shop has a till as well, and keeps its door. -/
theorem redeploy_shop :
    Run ((shopEngine [audit] 0 [door] [door, audit]).deploy (shop [door, till]))
      [⟨.init till.handler, none⟩] (renewedShop, .ok 1) := by
  have hdescribed : Namer.start.describeService (shop [door, till]) =
      (inboundFlows [door, till], Namer.start) := rfl
  have hchains : Chains.build onePhase.order (.service (shop [door, till]).name)
      (inboundFlows [audit]) (inboundFlows [door, till]) =
        .ok (shopChains [door, audit, till]) :=
    build_inbound _ (by decide) resolve_audit_door_till
  unfold Engine.deploy
  dsimp only [shopEngine]
  rw [hdescribed]
  dsimp only
  rw [hchains]
  exact Run.ask (Run.done _)

/-- The shop is deployed, a handler is engaged for all services, another one is refused, the shop is
deployed again, and a service that nobody knows cannot be removed.  What is published then is what
the handlers resolve to, global and own ones. -/
theorem shop_published :
    History onePhase
        [⟨.init door.handler, none⟩, ⟨.init audit.handler, none⟩, ⟨.init till.handler, none⟩]
        ⟨renewedShop, []⟩ ∧
      Chains.build onePhase.order .engine renewedShop.globals .empty =
        .ok renewedShop.globalChains ∧
      renewedShop.globalChains.inbound.handlerNames = ["audit"] ∧
      ∃ id d, renewedShop.deployed? ⟨"", "shop"⟩ = some (id, d) ∧
        Chains.build onePhase.order (.service ⟨"", "shop"⟩) renewedShop.globals d.flows =
          .ok d.chains ∧
        d.chains.inbound.handlerNames = ["door", "audit", "till"] := by
  obtain ⟨engaged, haudit⟩ := engage_audit
  obtain ⟨error, hdoor⟩ := engage_door
  have habsent : Run (renewedShop.undeploy ⟨"", "archive"⟩) []
      (renewedShop, .error (.notDeployed ⟨"", "archive"⟩)) := Run.done _
  have hpast : History onePhase
      [⟨.init door.handler, none⟩, ⟨.init audit.handler, none⟩, ⟨.init till.handler, none⟩]
      ⟨renewedShop, []⟩ := History.new new_onePhase
    |>.step (Session.Step.deploy deploy_shop)
    |>.step (Session.Step.engage haudit)
    |>.step (Session.Step.engage hdoor)
    |>.step (Session.Step.deploy redeploy_shop)
    |>.step (Session.Step.undeploy habsent)
  obtain ⟨hglobal, hservices, -⟩ := published_of_history hpast
  obtain ⟨id, d, hdeployed, hchains⟩ := hservices ⟨"", "shop"⟩ List.mem_cons_self
  have hlatest : d.chains = shopChains [door, audit, till] := by
    cases hdeployed
    rfl
  refine ⟨hpast, hglobal, rfl, id, d, hdeployed, hchains, ?_⟩
  rw [hlatest]
  rfl

end SoapPipeline
