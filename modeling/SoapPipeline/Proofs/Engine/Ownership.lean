/-
  SoapPipeline.Proofs.Engine.Ownership

  Who has to clean up which instances.

  A living deployment owns the instances among its descriptors except those that
  it has handed over to a successor, and the engine owns those among its global
  handlers.  An instance gains an owner each time it gets ready and loses one each
  time it cleans up, whether the operation in question succeeds or fails.

  Main results:
    * `owners_add`, `owners_modify`, `owners_release`: what the changes to the
      deployments do to the number of owners;
    * `Whole.step`: what is registered has handed nothing over yet;
    * `Conserves.step`: every operation conserves the balance of an instance;
    * `readied_eq_cleaned_add_owners`: the balance after every history.
-/
import SoapPipeline.Proofs.Engine.PublishedChains
import SoapPipeline.Proofs.Flows

namespace SoapPipeline

open Program

/-! ## Owners -/

/-- The deployment has to clean the instance up when it goes. -/
def Deployment.Owns (d : Deployment) (h : Handler) : Prop :=
  h ∈ d.flows.handlers ∧ h ∉ d.handedOver

instance (d : Deployment) (h : Handler) : Decidable (d.Owns h) :=
  inferInstanceAs (Decidable (_ ∧ _))

/-- What is cleaned up when a deployment goes is what it owns, each instance once. -/
theorem Deployment.count_leftovers (d : Deployment) (h : Handler) :
    d.leftovers.count h = if d.Owns h then 1 else 0 := by
  have hmem : h ∈ d.flows.handlers.filter (fun h => h ∉ d.handedOver) ↔ d.Owns h := by
    rw [List.mem_filter]
    simp [Owns]
  unfold leftovers
  rw [List.count_reverse, (Flows.nodup_handlers.filter _).count]
  exact if_congr hmem rfl rfl

/-- The number of living deployments that own the instance. -/
def Deployments.owners (ds : Deployments) (h : Handler) : Nat :=
  ds.living.countP fun holding => holding.deployment.Owns h

/-- The number of owners of the instance: the living deployments that own it, and the engine
while the instance is among its global handlers. -/
def Engine.owners (e : Engine) (h : Handler) : Nat :=
  e.deployments.owners h + if h ∈ e.globals.handlers then 1 else 0

namespace Lifecycle

/-- The instance gets ready, and does not fail. -/
def getsReady (h : Handler) : LifecycleEvent → Bool
  | ⟨.init h', failure⟩ => h' = h && (failure : Option Failure).isNone
  | ⟨.cleanup _, _⟩ => false

/-- The instance cleans up. -/
def cleansUp (h : Handler) : LifecycleEvent → Bool
  | ⟨.init _, _⟩ => false
  | ⟨.cleanup h', _⟩ => h' = h

/-- How often the instance got ready. -/
def readied (h : Handler) (events : List LifecycleEvent) : Nat := events.countP (getsReady h)

/-- How often the instance cleaned up. -/
def cleaned (h : Handler) (events : List LifecycleEvent) : Nat := events.countP (cleansUp h)

variable {h : Handler} {events events' : List LifecycleEvent}

theorem readied_append : readied h (events ++ events') = readied h events + readied h events' :=
  List.countP_append

theorem cleaned_append : cleaned h (events ++ events') = cleaned h events + cleaned h events' :=
  List.countP_append

theorem readied_inits (handlers : List Handler) :
    readied h (inits handlers) = handlers.count h := by
  unfold readied inits List.count
  rw [List.countP_map]
  congr 1
  funext h'
  show (decide (h' = h) && true) = (h' == h)
  rw [Bool.and_true]
  rfl

theorem cleaned_cleanups (handlers : List Handler) :
    cleaned h (cleanups handlers) = handlers.count h := by
  unfold cleaned cleanups List.count
  rw [List.countP_map]
  rfl

theorem cleaned_inits (handlers : List Handler) : cleaned h (inits handlers) = 0 := by
  unfold cleaned inits
  rw [List.countP_map, List.countP_eq_zero]
  exact fun h' _ => Bool.false_ne_true

theorem readied_cleanups (handlers : List Handler) : readied h (cleanups handlers) = 0 := by
  unfold readied cleanups
  rw [List.countP_map, List.countP_eq_zero]
  exact fun h' _ => Bool.false_ne_true

/-- When all get ready, each does so as often as it is listed. -/
theorem balance_of_ready {fresh : List (QName × Handler)} (hready : Readied fresh events none) :
    readied h events = (fresh.map Prod.snd).count h ∧ cleaned h events = 0 := by
  cases hready with
  | all => exact ⟨readied_inits _, cleaned_inits _⟩

/-- When one fails, those that are ready clean up as often as they got ready. -/
theorem balance_of_failed {fresh : List (QName × Handler)} {failed : QName × Failure}
    (hready : Readied fresh events (some failed)) : readied h events = cleaned h events := by
  cases hready with
  | @failed front back name h' failure _ =>
    have hfailed : ∀ rest : List LifecycleEvent,
        readied h (⟨.init h', some failure⟩ :: rest) = readied h rest ∧
          cleaned h (⟨.init h', some failure⟩ :: rest) = cleaned h rest := by
      intro rest
      unfold readied cleaned
      rw [List.countP_cons_of_neg (by simp [getsReady]),
        List.countP_cons_of_neg (by simp [cleansUp])]
      exact ⟨rfl, rfl⟩
    rw [readied_append, cleaned_append, (hfailed _).1, (hfailed _).2, readied_inits,
      cleaned_inits, readied_cleanups, cleaned_cleanups, List.count_reverse, Nat.add_comm]

end Lifecycle

/-! ## What changes to the deployments do -/

namespace Deployments

variable {ds : Deployments} {holds : List Nat} {id : Nat} {h : Handler} {d : Deployment}

/-- No id is listed twice, so that a deployment that is found splits the list. -/
theorem exists_split (haccounted : ds.Accounted holds) {holding : Holding}
    (hfound : ds.living.find? (fun holding => holding.id = id) = some holding) :
    ∃ front back, ds.living = front ++ holding :: back ∧ holding.id = id ∧
      (∀ other ∈ front, other.id ≠ id) ∧ ∀ other ∈ back, other.id ≠ id := by
  have hid : holding.id = id := by simpa using List.find?_some hfound
  obtain ⟨front, back, hsplit⟩ := List.append_of_mem (List.mem_of_find?_eq_some hfound)
  have hnodup := haccounted.nodup
  rw [hsplit, List.map_append, List.map_cons, List.nodup_middle, List.nodup_cons, hid] at hnodup
  have hother : ∀ other, other ∈ front ∨ other ∈ back → other.id ≠ id := by
    intro other hmem heq
    refine hnodup.1 (List.mem_append.mpr ?_)
    rw [← heq]
    exact hmem.imp (List.mem_map_of_mem ·) (List.mem_map_of_mem ·)
  exact ⟨front, back, hsplit, hid, fun other hmem => hother other (Or.inl hmem),
    fun other hmem => hother other (Or.inr hmem)⟩

theorem owners_add (d : Deployment) :
    (ds.add d).2.owners h = ds.owners h + if d.Owns h then 1 else 0 := by
  show (ds.living ++ [_]).countP _ = _
  rw [List.countP_append, List.countP_singleton]
  simp [owners]

/-- Changes that leave every deployment its instances leave the number of owners. -/
theorem owners_map {change : Holding → Holding} (hsame : ∀ holding ∈ ds.living,
      (change holding).deployment.Owns h ↔ holding.deployment.Owns h) :
    owners { ds with living := ds.living.map change } h = ds.owners h := by
  show (ds.living.map change).countP _ = ds.living.countP _
  rw [List.countP_map]
  refine List.countP_congr ?_
  intro holding hmem
  simpa using hsame holding hmem

theorem owners_retain : (ds.retain id).owners h = ds.owners h := by
  refine owners_map ?_
  intro holding _
  split <;> exact Iff.rfl

/-- Changing one deployment trades what it owned for what it owns then. -/
theorem owners_modify (haccounted : ds.Accounted holds) (hfound : ds.find? id = some d)
    (change : Deployment → Deployment) :
    (ds.modify id change).owners h + (if d.Owns h then 1 else 0) =
      ds.owners h + if (change d).Owns h then 1 else 0 := by
  unfold find? at hfound
  obtain ⟨holding, hliving, rfl⟩ := Option.map_eq_some_iff.mp hfound
  obtain ⟨front, back, hsplit, hid, hfront, hback⟩ := exists_split haccounted hliving
  have hkeep : ∀ part : List Holding, (∀ other ∈ part, other.id ≠ id) →
      part.map (fun holding => if holding.id = id then
        { holding with deployment := change holding.deployment } else holding) = part := by
    intro part hpart
    refine Eq.trans (List.map_congr_left fun other hmem => ?_) (List.map_id part)
    exact if_neg (hpart other hmem)
  unfold owners modify
  rw [hsplit, List.map_append, List.map_cons, hkeep front hfront, hkeep back hback, if_pos hid]
  simp only [List.countP_append, List.countP_cons, decide_eq_true_eq]
  omega

/-- A hold that is let go takes as many owners away as instances are to be cleaned up. -/
theorem owners_release (haccounted : ds.Accounted holds) :
    ds.owners h = (ds.release id).2.owners h + (ds.release id).1.count h := by
  cases hfound : ds.living.find? fun holding => holding.id = id with
  | none =>
    have hnone : ds.release id = ([], ds) := by
      unfold release
      rw [hfound]
    rw [hnone]
    rfl
  | some holding =>
    by_cases hlast : holding.holders ≤ 1
    · obtain ⟨front, back, hsplit, hid, hfront, hback⟩ := exists_split haccounted hfound
      have hkeep : ∀ part : List Holding, (∀ other ∈ part, other.id ≠ id) →
          part.filter (fun holding => holding.id ≠ id) = part := by
        intro part hpart
        exact List.filter_eq_self.mpr fun other hmem => decide_eq_true (hpart other hmem)
      rw [Accounted.release_last hfound hlast, Deployment.count_leftovers]
      unfold owners
      rw [hsplit, List.filter_append, List.filter_cons_of_neg (by simp [hid]), hkeep front hfront,
        hkeep back hback]
      simp only [List.countP_append, List.countP_cons, decide_eq_true_eq]
      omega
    · rw [Accounted.release_more hfound hlast, List.count_nil, Nat.add_zero]
      refine (owners_map ?_).symm
      intro other _
      split <;> exact Iff.rfl

end Deployments

namespace Engine

variable {e : Engine} {h : Handler}

/-- Publishing changes nothing of a deployment but its chains. -/
theorem find?_publish_cases {ds : Deployments} {rebuilt : List (Nat × Chains)} {id : Nat}
    {d : Deployment} (hfound : (publish ds rebuilt).find? id = some d) :
    ∃ old, ds.find? id = some old ∧ d = { old with chains := d.chains } := by
  induction rebuilt generalizing ds with
  | nil => exact ⟨d, hfound, rfl⟩
  | cons entry rest ih =>
    obtain ⟨mid, hmid, hd⟩ := ih hfound
    by_cases heq : id = entry.1
    · rw [heq, Deployments.find?_modify_self] at hmid
      obtain ⟨old, hold, hchanged⟩ := Option.map_eq_some_iff.mp hmid
      refine ⟨old, by rw [heq]; exact hold, ?_⟩
      rw [hd, ← hchanged]
    · rw [Deployments.find?_modify_of_ne _ heq] at hmid
      exact ⟨mid, hmid, hd⟩

theorem owners_publish {ds : Deployments} {rebuilt : List (Nat × Chains)} :
    (publish ds rebuilt).owners h = ds.owners h := by
  unfold publish
  induction rebuilt generalizing ds with
  | nil => rfl
  | cons entry rest ih =>
    rw [List.foldl_cons, ih]
    refine Deployments.owners_map ?_
    intro holding _
    split <;> exact Iff.rfl

/-- What is carried over is used by the successor. -/
theorem mem_handlers_of_mem_carried {previous : Option (Nat × Deployment)} {flows : Flows}
    (hcarried : h ∈ carried previous flows) : h ∈ flows.handlers := by
  unfold carried at hcarried
  split at hcarried
  next => exact of_decide_eq_true (List.mem_filter.mp hcarried).2
  next => exact absurd hcarried List.not_mem_nil

theorem map_snd_freshInstances {name : QName} {flows : Flows} :
    (e.freshInstances name flows).map Prod.snd =
      flows.handlers.filter fun h => h ∉ carried (e.deployed? name) flows := by
  unfold Flows.handlers
  rw [List.filter_map]
  rfl

/-- New flows get those of their instances ready that are not carried over, each once. -/
theorem count_freshInstances (name : QName) (flows : Flows) :
    ((e.freshInstances name flows).map Prod.snd).count h +
        (if h ∈ carried (e.deployed? name) flows then 1 else 0) =
      if h ∈ flows.handlers then 1 else 0 := by
  rw [map_snd_freshInstances, (Flows.nodup_handlers.filter _).count]
  by_cases hcarried : h ∈ carried (e.deployed? name) flows
  · simp [hcarried, mem_handlers_of_mem_carried hcarried]
  · simp [hcarried]

end Engine

/-! ## What is registered has handed nothing over -/

/-- A deployment hands instances over when it is replaced, and not before. -/
def Whole (s : Session) : Prop :=
  ∀ id ∈ s.engine.registry.items, ∀ d, s.engine.deployments.find? id = some d → d.handedOver = []

/-- The deployment registered under a name, if there is one, is the one that is looked up. -/
theorem Sound.deployed?_cases {s : Session} (h : Sound s) (name : QName) :
    (s.engine.registry.get? name = none ∧ s.engine.deployed? name = none) ∨
      ∃ id d, s.engine.registry.get? name = some id ∧
        s.engine.deployments.find? id = some d ∧ s.engine.deployed? name = some (id, d) := by
  cases hget : s.engine.registry.get? name with
  | none =>
    refine Or.inl ⟨rfl, ?_⟩
    unfold Engine.deployed?
    rw [hget]
    rfl
  | some id =>
    obtain ⟨d, hd⟩ := h.accounted.exists_find?
      (List.mem_append_left s.held (Registry.mem_items_of_get? hget))
    exact Or.inr ⟨id, d, rfl, hd, Engine.deployed?_eq_some_iff.mpr ⟨hget, hd⟩⟩

namespace Whole

open Engine Deployments

variable {s : Session} {e : Engine} {events : List LifecycleEvent}

theorem engaged {flow : Flow} {spec : HandlerSpec} {result : Except DeployError Descriptor}
    (h : Whole s) (hengaged : Engaged s.engine flow spec events e result) :
    Whole ⟨e, s.held⟩ := by
  cases hengaged with
  | refused => exact h
  | notReady => exact h
  | engaged =>
    intro id hid d hd
    obtain ⟨old, hold, heq⟩ := find?_publish_cases hd
    rw [heq]
    exact h id hid old hold

/-- Beside the new deployment only those stay registered that were not asked to hand over. -/
theorem find?_handed_add {d d' : Deployment} {id : Nat} (hsound : Sound s) (h : Whole s)
    (hnothing : d.handedOver = [])
    (hid : id ∈ (s.engine.registry.insert d.service
      ((s.engine.handed (s.engine.deployed? d.service) d.flows).add d).1).2.items)
    (hd' : ((s.engine.handed (s.engine.deployed? d.service) d.flows).add d).2.find? id = some d') :
    d'.handedOver = [] := by
  have hnodup := hsound.nodup_items_add d (s.engine.deployed? d.service)
  have hperm := @Registry.perm_items_insert _ s.engine.registry d.service
    ((s.engine.handed (s.engine.deployed? d.service) d.flows).add d).1
  rcases find?_add_cases hd' with ⟨-, rfl⟩ | hold
  · exact hnothing
  · -- What was there before the new deployment was added has an older id.
    have hne : id ≠ ((s.engine.handed (s.engine.deployed? d.service) d.flows).add d).1 := by
      intro heq
      have hheld := (hsound.handed (s.engine.deployed? d.service) d.flows).mem_of_find? hold
      have hlt := (hsound.handed (s.engine.deployed? d.service) d.flows).lt_nextId hheld
      exact absurd heq (Nat.ne_of_lt hlt)
    have hitem : id ∈ s.engine.registry.items :=
      (List.mem_cons.mp (hperm.mem_iff.mp (List.mem_append_right _ hid))).resolve_left hne
    rcases hsound.deployed?_cases d.service with ⟨-, hnone⟩ | ⟨old, replaced, hget, -, hsome⟩
    · rw [hnone] at hold
      exact h id hitem d' hold
    · rw [hsome] at hold
      obtain ⟨before, hbefore, ⟨heq, -⟩ | ⟨-, rfl⟩⟩ := find?_modify_cases hold
      · -- The replaced deployment is not registered any more.
        rw [hget] at hnodup
        rw [heq] at hid
        exact absurd hid (List.nodup_cons.mp hnodup).1
      · exact h id hitem d' hbefore

theorem installed {d : Deployment} {id : Nat} (hsound : Sound s) (h : Whole s)
    (hnothing : d.handedOver = [])
    (hinstalled : Installed s.engine d (s.engine.deployed? d.service) events e id) :
    Whole ⟨e, s.held⟩ := by
  cases hinstalled with
  | added => exact fun id hid d' hd' => find?_handed_add hsound h hnothing hid hd'
  | replaced =>
    exact fun id hid d' hd' => find?_handed_add hsound h hnothing hid (find?_of_find?_release hd')

theorem deployed {spec : ServiceSpec} {result : Except DeployError Nat} (hsound : Sound s)
    (h : Whole s) (hdeployed : Deployed s.engine spec events e result) : Whole ⟨e, s.held⟩ := by
  cases hdeployed with
  | refused => exact h
  | notReady => exact h
  | @deployed flows namer _ _ _ _ _ _ _ _ hinstalled =>
    have hnamed : Sound ⟨{ s.engine with namer }, s.held⟩ := hsound.congr rfl rfl
    exact installed (s := ⟨{ s.engine with namer }, s.held⟩) hnamed h rfl hinstalled

theorem removed {name : QName} (h : Whole s) (hremoved : Removed s.engine name events e) :
    Whole ⟨e, s.held⟩ := by
  have hstays : ∀ id ∈ (s.engine.registry.remove name).2.items, id ∈ s.engine.registry.items := by
    intro id hid
    obtain ⟨entry, hentry, rfl⟩ := List.mem_map.mp hid
    exact List.mem_map_of_mem (List.mem_of_mem_filter hentry)
  cases hremoved with
  | absent => exact fun id hid d hd => h id (hstays id hid) d hd
  | removed => exact fun id hid d hd => h id (hstays id hid) d (find?_of_find?_release hd)

theorem removeAll {names : List QName} (h : Whole s)
    (hrun : Run (s.engine.removeAll names) events e) : Whole ⟨e, s.held⟩ := by
  induction names generalizing s events with
  | nil =>
    obtain ⟨-, rfl⟩ := Run.pure_iff.mp hrun
    exact h
  | cons name rest ih =>
    obtain ⟨front, mid, back, -, hremoved, hrest⟩ := removed_of_removeAll hrun
    exact ih (s := ⟨mid, s.held⟩) (h.removed hremoved) hrest

theorem step {s' : Session} (hsound : Sound s) (h : Whole s) (hstep : s.Step events s') :
    Whole s' := by
  cases hstep with
  | engage hrun => exact h.engaged (engaged_of_engage hrun)
  | deploy hrun => exact h.deployed hsound (deployed_of_deploy hrun)
  | undeploy hrun =>
    cases undeployed_of_undeploy hrun with
    | notDeployed => exact h
    | undeployed _ hremoved => exact h.removed hremoved
  | shutdown hrun =>
    cases shutDown_of_shutdown hrun with
    | @shutDown front mid hremoved =>
      have hmid : Whole ⟨mid, s.held⟩ := h.removeAll hremoved
      exact hmid
  | hold =>
    intro id hid d hd
    change (s.engine.deployments.retain _).find? id = some d at hd
    rw [find?_retain] at hd
    exact h id hid d hd
  | letGo _ hrun =>
    obtain ⟨-, rfl⟩ := eq_of_release hrun
    exact fun id hid d hd => h id hid d (find?_of_find?_release hd)

theorem of_history {config : Config} {past : List LifecycleEvent} (h : History config past s) :
    Whole s := by
  induction h with
  | new hnew =>
    obtain ⟨chains, -, rfl⟩ := eq_of_new hnew
    exact fun id hid => absurd hid List.not_mem_nil
  | step hpast hstep ih => exact ih.step (sound_of_history hpast) hstep

end Whole

/-! ## The balance of an instance -/

open Lifecycle

/-- Between these engines the instance gains an owner each time it gets ready and loses one each
time it cleans up. -/
def Conserves (h : Handler) (e : Engine) (events : List LifecycleEvent) (e' : Engine) : Prop :=
  e.owners h + readied h events = e'.owners h + cleaned h events

namespace Conserves

open Engine Deployments

variable {h : Handler} {s : Session} {e mid e' : Engine} {events front back : List LifecycleEvent}

theorem of_eq (howners : e'.owners h = e.owners h)
    (hbalance : readied h events = cleaned h events) :
    Conserves h e events e' := by
  unfold Conserves
  rw [howners, hbalance]

theorem trans (hfront : Conserves h e front mid) (hback : Conserves h mid back e') :
    Conserves h e (front ++ back) e' := by
  unfold Conserves at *
  rw [readied_append, cleaned_append]
  omega

/-- While the global handlers stay, only the deployments count. -/
theorem of_deployments (hglobals : e'.globals = e.globals)
    (hdeployments : e.deployments.owners h + readied h events =
      e'.deployments.owners h + cleaned h events) : Conserves h e events e' := by
  unfold Conserves Engine.owners
  rw [hglobals]
  omega

theorem released {id : Nat} {holds : List Nat} (haccounted : e.deployments.Accounted holds)
    (hdeployments : e'.deployments = (e.deployments.release id).2)
    (hglobals : e'.globals = e.globals) :
    Conserves h e (cleanups (e.deployments.release id).1) e' := by
  refine of_deployments hglobals ?_
  rw [readied_cleanups, cleaned_cleanups, hdeployments]
  exact owners_release haccounted

/-! ### Engaging -/

theorem engaged {flow : Flow} {spec : HandlerSpec} {result : Except DeployError Descriptor}
    (hengaged : Engaged e flow spec events e' result) : Conserves h e events e' := by
  cases hengaged with
  | refused => exact of_eq rfl rfl
  | notReady _ hready => exact of_eq rfl (balance_of_failed hready)
  | @engaged d namer _ globalChains rebuilt _ _ _ hready =>
    obtain ⟨hreadied, hcleaned⟩ := balance_of_ready (h := h) hready
    unfold Conserves Engine.owners
    rw [hreadied, hcleaned, owners_publish]
    -- The engine becomes an owner of the new instance unless it is one already.
    show _ = _ + (if h ∈ (e.globals.push flow d).handlers then 1 else 0) + 0
    unfold freshGlobal
    by_cases hknown : d.handler ∈ e.globals.handlers
    · rw [if_pos hknown]
      have hsame : h ∈ (e.globals.push flow d).handlers ↔ h ∈ e.globals.handlers := by
        rw [Flows.mem_handlers_push, or_iff_left_iff_imp]
        intro heq
        rw [heq]
        exact hknown
      rw [if_congr hsame rfl rfl]
      rfl
    · rw [if_neg hknown]
      by_cases heq : h = d.handler
      · simp [Flows.mem_handlers_push, heq, hknown]
      · simp [Flows.mem_handlers_push, heq, Ne.symm heq]

/-! ### Deploying -/

/-- The replaced deployment stops owning what it hands over. -/
theorem owners_handed (hsound : Sound s) (hwhole : Whole s) (name : QName) (flows : Flows) :
    (s.engine.handed (s.engine.deployed? name) flows).owners h +
        (if h ∈ carried (s.engine.deployed? name) flows then 1 else 0) =
      s.engine.deployments.owners h := by
  rcases hsound.deployed?_cases name with ⟨-, hnone⟩ | ⟨old, replaced, hget, hfound, hsome⟩
  · rw [hnone]
    rfl
  · have hnothing := hwhole old (Registry.mem_items_of_get? hget) replaced hfound
    have hmodified := owners_modify (h := h) hsound.accounted hfound
      fun o => o.handOver (replaced.shared flows)
    rw [hsome]
    show (s.engine.deployments.modify old _).owners h +
      (if h ∈ replaced.shared flows then 1 else 0) = _
    have hbefore : replaced.Owns h ↔ h ∈ replaced.flows.handlers := by
      unfold Deployment.Owns
      simp [hnothing]
    have hafter : (replaced.handOver (replaced.shared flows)).Owns h ↔
        h ∈ replaced.flows.handlers ∧ h ∉ replaced.shared flows := by
      unfold Deployment.Owns Deployment.handOver
      simp [hnothing]
    rw [if_congr hbefore rfl rfl, if_congr hafter rfl rfl] at hmodified
    by_cases hshared : h ∈ replaced.shared flows
    · have hmem : h ∈ replaced.flows.handlers := List.mem_of_mem_filter hshared
      simp only [hmem, hshared, not_true_eq_false, and_false, if_true, if_false] at hmodified ⊢
      omega
    · simp only [hshared, not_false_eq_true, and_true, if_false] at hmodified ⊢
      omega

theorem deployed {spec : ServiceSpec} {result : Except DeployError Nat} (hsound : Sound s)
    (hwhole : Whole s) (hdeployed : Deployed s.engine spec events e result) :
    Conserves h s.engine events e := by
  cases hdeployed with
  | refused => exact of_eq rfl rfl
  | notReady _ hready => exact of_eq rfl (balance_of_failed hready)
  | @deployed flows namer chains front back _ id _ _ hready hinstalled =>
    obtain ⟨hreadied, hcleaned⟩ := balance_of_ready (h := h) hready
    have hfresh := count_freshInstances (e := s.engine) (h := h) spec.name flows
    have hhanded := owners_handed (h := h) hsound hwhole spec.name flows
    have haccounted :=
      hsound.accounted_add ⟨spec.name, spec.operations, flows, chains, []⟩
        (s.engine.deployed? spec.name)
    have howns : Deployment.Owns ⟨spec.name, spec.operations, flows, chains, []⟩ h ↔
        h ∈ flows.handlers := by
      unfold Deployment.Owns
      simp
    -- With the new deployment in place every instance of it has one owner more, or was carried.
    have hadded : Conserves h s.engine front { s.engine with
        deployments := ((s.engine.handed (s.engine.deployed? spec.name) flows).add
          ⟨spec.name, spec.operations, flows, chains, []⟩).2 } := by
      refine of_deployments rfl ?_
      rw [owners_add, if_congr howns rfl rfl, hreadied, hcleaned]
      omega
    refine hadded.trans ?_
    cases hinstalled with
    | added => exact of_eq rfl rfl
    | replaced => exact released haccounted rfl rfl

/-! ### Removing and holding -/

theorem removed {name : QName} (hsound : Sound s) (hremoved : Removed s.engine name events e) :
    Conserves h s.engine events e := by
  cases hremoved with
  | absent => exact of_eq rfl rfl
  | removed => exact released hsound.accounted rfl rfl

theorem removeAll {names : List QName} (hsound : Sound s)
    (hrun : Run (s.engine.removeAll names) events e) : Conserves h s.engine events e := by
  induction names generalizing s events with
  | nil =>
    obtain ⟨rfl, rfl⟩ := Run.pure_iff.mp hrun
    exact of_eq rfl rfl
  | cons name rest ih =>
    obtain ⟨front, mid, back, rfl, hremoved, hrest⟩ := removed_of_removeAll hrun
    exact (removed hsound hremoved).trans (ih (s := ⟨mid, s.held⟩) (hsound.removed hremoved) hrest)

theorem shutDown (hsound : Sound s) (hshut : ShutDown s.engine events e) :
    Conserves h s.engine events e := by
  cases hshut with
  | @shutDown front mid hremoved =>
    refine (removeAll hsound hremoved).trans ?_
    unfold Conserves Engine.owners
    rw [readied_cleanups, cleaned_cleanups, List.count_reverse, Flows.count_handlers,
      Flows.handlers_empty]
    simp

/-! ### Histories -/

/-- Whatever happens conserves the balance, whether it succeeds or fails. -/
theorem step {s' : Session} (hsound : Sound s) (hwhole : Whole s) (hstep : s.Step events s') :
    Conserves h s.engine events s'.engine := by
  cases hstep with
  | engage hrun => exact engaged (engaged_of_engage hrun)
  | deploy hrun => exact deployed hsound hwhole (deployed_of_deploy hrun)
  | undeploy hrun =>
    cases undeployed_of_undeploy hrun with
    | notDeployed => exact of_eq rfl rfl
    | undeployed _ hremoved => exact removed hsound hremoved
  | shutdown hrun => exact shutDown hsound (shutDown_of_shutdown hrun)
  | hold =>
    refine of_eq ?_ rfl
    show (s.engine.deployments.retain _).owners h + _ = _
    rw [owners_retain]
    rfl
  | letGo _ hrun =>
    obtain ⟨rfl, rfl⟩ := eq_of_release hrun
    exact released hsound.accounted rfl rfl

end Conserves

theorem balance_of_history {config : Config} {past : List LifecycleEvent} {s : Session}
    (h : History config past s) (handler : Handler) :
    readied handler past = cleaned handler past + s.engine.owners handler := by
  induction h with
  | new hnew =>
    obtain ⟨chains, -, rfl⟩ := eq_of_new hnew
    rfl
  | @step past events s s' hpast hstep ih =>
    have hconserves : Conserves handler s.engine events s'.engine :=
      Conserves.step (sound_of_history hpast) (Whole.of_history hpast) hstep
    unfold Conserves at hconserves
    rw [readied_append, cleaned_append]
    omega

/-- Nothing lives that neither the registry nor anybody else holds. -/
theorem Sound.owners_eq_zero {s : Session} {handler : Handler} (h : Sound s)
    (hregistry : s.engine.registry.items = []) (hheld : s.held = [])
    (hglobals : handler ∉ s.engine.globals.handlers) : s.engine.owners handler = 0 := by
  have hliving : s.engine.deployments.living = [] := by
    rw [List.eq_nil_iff_forall_not_mem]
    intro holding hmem
    have hid := h.accounted.held holding hmem
    unfold Session.holds at hid
    rw [hregistry, hheld] at hid
    exact List.not_mem_nil hid
  unfold Engine.owners Deployments.owners
  rw [hliving, if_neg hglobals]
  rfl

/-- After every history an instance got ready as often as it cleaned up, and once more for each of
its owners.  So once no service is registered, nobody holds a deployment any more and the engine
does not have it among its global handlers, it has cleaned up exactly as often as it got ready. -/
theorem readied_eq_cleaned_add_owners {config : Config} {past : List LifecycleEvent} {s : Session}
    (h : History config past s) (handler : Handler) :
    readied handler past = cleaned handler past + s.engine.owners handler ∧
      (s.engine.registry.items = [] → s.held = [] → handler ∉ s.engine.globals.handlers →
        readied handler past = cleaned handler past) := by
  have hbalance := balance_of_history h handler
  refine ⟨hbalance, ?_⟩
  intro hregistry hheld hglobals
  rw [hbalance, (sound_of_history h).owners_eq_zero hregistry hheld hglobals, Nat.add_zero]

/-! ### A handler that is carried over -/

/-- The handler of the vault, the same instance in every deployment. -/
def guard : Handler := ⟨1, []⟩

def vaultService : ServiceSpec :=
  ⟨⟨"", "vault"⟩, [], [⟨some ⟨"", "guard"⟩, guard, .inPhase "main", .empty⟩], [], []⟩

def vaultFlows : Flows := ⟨[⟨⟨"", "guard"⟩, guard, .empty, .inPhase "main"⟩], [], []⟩

def vaultChains : Chains :=
  { emptyChains (.service vaultService.name) with
    inbound := ⟨.inbound, .service vaultService.name, [⟨"main", vaultFlows.inbound⟩]⟩ }

/-- The vault as it is deployed, with what it has handed over since. -/
def vault (handedOver : List Handler) : Deployment :=
  ⟨vaultService.name, [], vaultFlows, vaultChains, handedOver⟩

/-- An engine without global handlers on which these deployments live. -/
def vaultEngine (registered : List (QName × Nat)) (deployments : Deployments) : Engine :=
  ⟨onePhase, Namer.start, .empty, emptyChains .engine, ⟨registered⟩, deployments⟩

theorem resolve_vault :
    Phase.resolve "main" vaultFlows.inbound = .ok ⟨"main", vaultFlows.inbound⟩ := by
  have hcycle : Graph.findCycle? [[]] = none := by cbv
  have hresolve : Phase.resolve "main" vaultFlows.inbound =
      .ok ⟨"main", Phase.seats vaultFlows.inbound [0]⟩ :=
    Phase.resolve_of_stages rfl rfl hcycle rfl rfl
  exact hresolve

theorem build_vault :
    Chains.build onePhase.order (.service vaultService.name) .empty vaultFlows =
      .ok vaultChains :=
  build_inbound _ (by decide) resolve_vault

theorem describe_vault : Namer.start.describeService vaultService = (vaultFlows, Namer.start) := rfl

/-- The first deployment of the vault gets its handler ready. -/
theorem deploy_vault : Run ((vaultEngine [] .empty).deploy vaultService) [⟨.init guard, none⟩]
    (vaultEngine [(vaultService.name, 0)] ⟨1, [⟨0, vault [], 1⟩]⟩, .ok 0) := by
  unfold Engine.deploy vaultEngine
  dsimp only
  rw [describe_vault, build_vault]
  exact Run.ask (Run.done _)

/-- The second one carries it over from the first, which somebody else still holds. -/
theorem redeploy_vault :
    Run ((vaultEngine [(vaultService.name, 0)] ⟨1, [⟨0, vault [], 2⟩]⟩).deploy vaultService) []
      (vaultEngine [(vaultService.name, 1)] ⟨2, [⟨0, vault [guard], 1⟩, ⟨1, vault [], 1⟩]⟩,
        .ok 1) := by
  unfold Engine.deploy vaultEngine
  dsimp only
  rw [describe_vault, build_vault]
  exact Run.done _

/-- Without the second deployment the handler goes out of use. -/
theorem undeploy_vault :
    Run ((vaultEngine [(vaultService.name, 1)]
      ⟨2, [⟨0, vault [guard], 1⟩, ⟨1, vault [], 1⟩]⟩).undeploy vaultService.name)
      [⟨.cleanup guard, ()⟩] (vaultEngine [] ⟨2, [⟨0, vault [guard], 1⟩]⟩, .ok ()) :=
  Run.ask (Run.done _)

theorem vault_balanced : ∃ past s, History onePhase past s ∧
    s.engine.registry.items = [] ∧ s.held = [] ∧ guard ∉ s.engine.globals.handlers ∧
    readied guard past = 1 ∧ cleaned guard past = 1 ∧
    readied guard past = cleaned guard past + s.engine.owners guard ∧
    readied guard past = cleaned guard past := by
  have hreleased : Run ((vaultEngine [] ⟨2, [⟨0, vault [guard], 1⟩]⟩).release 0) []
      (vaultEngine [] ⟨2, []⟩) := Run.done _
  have hpast := History.new new_onePhase
    |>.step (Session.Step.deploy deploy_vault)
    |>.step (@Session.Step.hold _ 0 _ rfl)
    |>.step (Session.Step.deploy redeploy_vault)
    |>.step (Session.Step.undeploy undeploy_vault)
    |>.step (Session.Step.letGo List.mem_cons_self hreleased)
  have hbalanced := readied_eq_cleaned_add_owners hpast guard
  exact ⟨_, _, hpast, rfl, rfl, List.not_mem_nil, rfl, rfl, hbalanced.1,
    hbalanced.2 rfl rfl List.not_mem_nil⟩

end SoapPipeline
