/-
  SoapPipeline.Proofs.Traffic.Custody

  In whose hands an instance is.

  An operator is careful with an instance when no global handler uses it and a
  deployment that uses it is made only while no other one does, except the one
  that is replaced, which nobody but the registry holds.  Then the instance is in
  the hands of one deployment at a time, and it is not cleaned up while there is
  one.

  Main results:
    * `Fades.release`: letting go of a deployment cleans up nothing that another
      one uses;
    * `Keeps.deployed`: so does a careful deployment;
    * `Keeps.done`: and every other operation of a careful operator.
-/
import SoapPipeline.Proofs.Engine.Ownership
import SoapPipeline.Proofs.Traffic.Calls
import SoapPipeline.Proofs.Traffic.Interleaving

namespace SoapPipeline

open Program Lifecycle

/-- The deployment of this id lives and uses the instance. -/
def Engine.Serves (e : Engine) (h : Handler) (id : Nat) : Prop :=
  ∃ d, e.deployments.find? id = some d ∧ d.flows.Uses h

/-- Operations that are careful with the instance. -/
def Careful (h : Handler) (e : Engine) : Operation → Prop
  | .engage _ spec => ¬ (e.namer.describe spec).1.Uses h
  | .deploy spec =>
    (e.namer.describeService spec).1.Uses h → h ∈ (e.namer.describeService spec).1.handlers ∧
      ∀ holding ∈ e.deployments.living, holding.deployment.flows.Uses h →
        e.registry.get? spec.name = some holding.id ∧ holding.holders = 1
  | .undeploy _ => True
  | .shutdown => True

/-- The instance is in the hands of one deployment at most, which has it among its handlers. -/
structure Guarded (h : Handler) (e : Engine) : Prop where
  globals : ¬ e.globals.Uses h
  declared : ∀ id d, e.deployments.find? id = some d → d.flows.Uses h → h ∈ d.flows.handlers
  single : ∀ id id', e.Serves h id → e.Serves h id' → id = id'

theorem Flows.uses_of_mem_handlers {f : Flows} {h : Handler} (hmem : h ∈ f.handlers) :
    f.Uses h := by
  obtain ⟨d, hd, heq⟩ := Flows.mem_handlers_iff.mp hmem
  exact ⟨d, hd, Or.inl heq⟩

theorem Flows.uses_push_iff {f : Flows} {flow : Flow} {d : Descriptor} {h : Handler} :
    (f.push flow d).Uses h ↔ f.Uses h ∨ d.Uses h := by
  unfold Flows.Uses
  constructor
  · rintro ⟨d', hd', huses⟩
    rcases Flows.mem_all_push.mp hd' with hd' | rfl
    · exact Or.inl ⟨d', hd', huses⟩
    · exact Or.inr huses
  · rintro (⟨d', hd', huses⟩ | huses)
    · exact ⟨d', Flows.mem_all_push.mpr (Or.inl hd'), huses⟩
    · exact ⟨d, Flows.mem_all_push.mpr (Or.inr rfl), huses⟩

/-! ## What becomes of the deployments -/

namespace Deployments

variable {ds ds' : Deployments} {id : Nat} {h : Handler}

/-- What lives lived before, with the same flows. -/
def Stems (ds ds' : Deployments) : Prop :=
  ∀ id d', ds'.find? id = some d' → ∃ d, ds.find? id = some d ∧ d'.flows = d.flows

theorem Stems.refl (ds : Deployments) : Stems ds ds := fun _ d hd => ⟨d, hd, rfl⟩

theorem Stems.trans {mid : Deployments} (hfront : Stems ds mid) (hback : Stems mid ds') :
    Stems ds ds' := by
  intro id d' hd'
  obtain ⟨m, hm, hflows'⟩ := hback id d' hd'
  obtain ⟨d, hd, hflows⟩ := hfront id m hm
  exact ⟨d, hd, hflows'.trans hflows⟩

theorem stems_release : Stems ds (ds.release id).2 :=
  fun _ d hd => ⟨d, find?_of_find?_release hd, rfl⟩

theorem stems_retain : Stems ds (ds.retain id) := by
  intro id' d hd
  rw [find?_retain] at hd
  exact ⟨d, hd, rfl⟩

theorem stems_publish {rebuilt : List (Nat × Chains)} : Stems ds (Engine.publish ds rebuilt) := by
  intro id d' hd'
  obtain ⟨d, hd, heq⟩ := Engine.find?_publish_cases hd'
  refine ⟨d, hd, ?_⟩
  rw [heq]

/-- An instance is cleaned up for the deployment that owned it, which is gone then. -/
theorem owned_of_mem_release (hmem : h ∈ (ds.release id).1) :
    ∃ d, ds.find? id = some d ∧ d.Owns h ∧ (ds.release id).2.find? id = none := by
  cases hfound : ds.living.find? fun holding => holding.id = id with
  | none =>
    unfold release at hmem
    rw [hfound] at hmem
    exact absurd hmem List.not_mem_nil
  | some holding =>
    by_cases hlast : holding.holders ≤ 1
    · rw [Accounted.release_last hfound hlast] at hmem ⊢
      refine ⟨holding.deployment, ?_, ?_, ?_⟩
      · unfold find?
        rw [hfound]
        rfl
      · obtain ⟨hused, hkept⟩ := List.mem_filter.mp (List.mem_reverse.mp hmem)
        exact ⟨hused, of_decide_eq_true hkept⟩
      · rw [find?_eq_none_iff]
        intro other hother
        exact of_decide_eq_true (List.mem_filter.mp hother).2
    · rw [Accounted.release_more hfound hlast] at hmem
      exact absurd hmem List.not_mem_nil

end Deployments

open Deployments Engine

variable {h : Handler} {e mid e' : Engine} {events front back : List LifecycleEvent}

/-! ## Operations that bring no deployment -/

/-- No deployment comes, and the instance is not cleaned up while one of them uses it. -/
structure Fades (h : Handler) (e : Engine) (events : List LifecycleEvent) (e' : Engine) :
    Prop where
  stems : Stems e.deployments e'.deployments
  globals : ¬ e.globals.Uses h → ¬ e'.globals.Uses h
  quiet : ∀ id, e'.Serves h id → cleaned h events = 0

theorem Deployments.Stems.serves (hstems : Stems e.deployments e'.deployments) {id : Nat}
    (hserves : e'.Serves h id) : e.Serves h id := by
  obtain ⟨d', hd', huses⟩ := hserves
  obtain ⟨d, hd, hflows⟩ := hstems id d' hd'
  rw [hflows] at huses
  exact ⟨d, hd, huses⟩

namespace Fades

theorem guarded (hfades : Fades h e events e') (hguarded : Guarded h e) : Guarded h e' := by
  refine ⟨hfades.globals hguarded.globals, ?_, ?_⟩
  · intro id d' hd' huses
    obtain ⟨d, hd, hflows⟩ := hfades.stems id d' hd'
    rw [hflows] at huses ⊢
    exact hguarded.declared id d hd huses
  · exact fun id id' hid hid' =>
      hguarded.single id id' (hfades.stems.serves hid) (hfades.stems.serves hid')

theorem trans (hfront : Fades h e front mid) (hback : Fades h mid back e') :
    Fades h e (front ++ back) e' := by
  refine ⟨hfront.stems.trans hback.stems, fun hno => hback.globals (hfront.globals hno), ?_⟩
  intro id hserves
  rw [cleaned_append, hback.quiet id hserves, hfront.quiet id (hback.stems.serves hserves)]

theorem of_eq (hdeployments : e'.deployments = e.deployments) (hglobals : e'.globals = e.globals)
    (hquiet : ∀ id, e.Serves h id → cleaned h events = 0) : Fades h e events e' := by
  refine ⟨?_, ?_, ?_⟩
  · rw [hdeployments]
    exact Stems.refl _
  · rw [hglobals]
    exact id
  · intro id hserves
    refine hquiet id ?_
    unfold Serves at hserves ⊢
    rwa [hdeployments] at hserves

theorem release {id : Nat} (hguarded : Guarded h e)
    (hdeployments : e'.deployments = (e.deployments.release id).2)
    (hglobals : e'.globals = e.globals) :
    Fades h e (cleanups (e.deployments.release id).1) e' := by
  have hstems : Stems e.deployments e'.deployments := by
    rw [hdeployments]
    exact stems_release
  refine ⟨hstems, ?_, ?_⟩
  · rw [hglobals]
    exact fun hno => hno
  · intro id' hserves
    rw [cleaned_cleanups, List.count_eq_zero]
    intro hmem
    -- The deployment that goes is the only one in whose hands the instance was.
    obtain ⟨d, hd, howns, hgone⟩ := owned_of_mem_release hmem
    have hheld : e.Serves h id := ⟨d, hd, Flows.uses_of_mem_handlers howns.1⟩
    obtain rfl := hguarded.single id id' hheld (hstems.serves hserves)
    obtain ⟨d', hd', -⟩ := hserves
    rw [hdeployments, hgone] at hd'
    cases hd'

theorem retain {id : Nat} : Fades h e [] (e.retain id) :=
  ⟨stems_retain, fun hno => hno, fun _ _ => rfl⟩

theorem removed {name : QName} (hguarded : Guarded h e) (hremoved : Removed e name events e') :
    Fades h e events e' := by
  cases hremoved with
  | absent => exact of_eq rfl rfl fun _ _ => rfl
  | removed => exact release hguarded rfl rfl

theorem removeAll {names : List QName} (hguarded : Guarded h e)
    (hrun : Run (e.removeAll names) events e') : Fades h e events e' := by
  induction names generalizing e events with
  | nil =>
    obtain ⟨rfl, rfl⟩ := Run.pure_iff.mp hrun
    exact of_eq rfl rfl fun _ _ => rfl
  | cons name rest ih =>
    obtain ⟨front, mid, back, rfl, hremoved, hrest⟩ := removed_of_removeAll hrun
    have hfront := removed hguarded hremoved
    exact hfront.trans (ih (hfront.guarded hguarded) hrest)

theorem shutDown (hguarded : Guarded h e) (hshut : ShutDown e events e') :
    Fades h e events e' := by
  cases hshut with
  | @shutDown front mid hremoved =>
    have hfront := removeAll hguarded hremoved
    refine hfront.trans ⟨Stems.refl _, ?_, ?_⟩
    · rintro - ⟨d, hd, -⟩
      exact List.not_mem_nil hd
    · intro id _
      rw [cleaned_cleanups, List.count_reverse, List.count_eq_zero]
      exact fun hmem => hfront.globals hguarded.globals (Flows.uses_of_mem_handlers hmem)

end Fades

/-! ## Getting instances ready -/

/-- Nothing is asked of instances that need not get ready. -/
theorem Lifecycle.cleaned_of_readied {fresh : List (QName × Handler)}
    {result : Option (QName × Failure)} (hready : Readied fresh events result)
    (hnew : h ∉ fresh.map Prod.snd) : cleaned h events = 0 := by
  cases hready with
  | all => exact cleaned_inits _
  | @failed front back name h' failure hsplit =>
    have hfront : h ∉ (front.map Prod.snd).reverse := by
      intro hmem
      refine hnew ?_
      rw [hsplit, List.map_append]
      exact List.mem_append_left _ (List.mem_reverse.mp hmem)
    have hclean := cleaned_cleanups (h := h) (front.map Prod.snd).reverse
    rw [List.count_eq_zero.mpr hfront] at hclean
    rw [cleaned_append, cleaned_inits, Nat.zero_add]
    unfold cleaned at hclean ⊢
    rw [List.countP_cons_of_neg (by simp [cleansUp]), hclean]

/-! ## What a careful operator does -/

/-- The instance is in the hands of one deployment at most, deployments that stay keep their
flows, and where the instance is used afterwards it was not cleaned up, and it was in use before
or got ready. -/
structure Keeps (h : Handler) (e : Engine) (events : List LifecycleEvent) (e' : Engine) :
    Prop where
  guarded : Guarded h e'
  lasting : ∀ id d d', e.deployments.find? id = some d → e'.deployments.find? id = some d' →
    d'.flows = d.flows
  covered : ∀ id, e'.Serves h id →
    cleaned h events = 0 ∧ ((∃ id, e.Serves h id) ∨ 0 < readied h events)

theorem Fades.keeps (hfades : Fades h e events e') (hguarded : Guarded h e) :
    Keeps h e events e' := by
  refine ⟨hfades.guarded hguarded, ?_, ?_⟩
  · intro id d d' hd hd'
    obtain ⟨old, hold, hflows⟩ := hfades.stems id d' hd'
    rw [hd] at hold
    rw [hflows, Option.some.inj hold]
  · exact fun id hserves => ⟨hfades.quiet id hserves, Or.inl ⟨id, hfades.stems.serves hserves⟩⟩

namespace Keeps

variable {s : Session}

theorem engaged {flow : Flow} {spec : HandlerSpec} {result : Except DeployError Descriptor}
    (hguarded : Guarded h e) (hcareful : Careful h e (.engage flow spec))
    (hengaged : Engaged e flow spec events e' result) : Keeps h e events e' := by
  -- The instance is none of those that the new global handler brings.
  have hnew : ∀ {d : Descriptor}, ¬ d.Uses h → h ∉ (e.freshGlobal d).map Prod.snd := by
    intro d hd hmem
    unfold freshGlobal at hmem
    split at hmem
    next => exact List.not_mem_nil hmem
    next => exact hd (Or.inl (List.mem_singleton.mp hmem).symm)
  cases hengaged with
  | refused => exact Fades.keeps (Fades.of_eq rfl rfl fun _ _ => rfl) hguarded
  | notReady hd hready =>
    rw [Careful, hd] at hcareful
    have hquiet := cleaned_of_readied hready (hnew hcareful)
    exact Fades.keeps (Fades.of_eq rfl rfl fun _ _ => hquiet) hguarded
  | engaged hd _ _ hready =>
    rw [Careful, hd] at hcareful
    refine Fades.keeps ⟨stems_publish, ?_, ?_⟩ hguarded
    · intro hno huses
      exact (Flows.uses_push_iff.mp huses).elim hno hcareful
    · exact fun _ _ => cleaned_of_readied hready (hnew hcareful)

/-! ### Deploying -/

section Deploying

variable {spec : ServiceSpec} {name : QName} {flows : Flows} {namer : Namer} {id : Nat}
  {previous : Option (Nat × Deployment)}

/-- What a careful operator may rely on who deploys flows that use the instance. -/
structure Alone (h : Handler) (s : Session) (name : QName) (flows : Flows) : Prop where
  declared : h ∈ flows.handlers
  registered : ∀ id, s.engine.Serves h id → s.engine.registry.get? name = some id
  unheld : ∀ id, s.engine.Serves h id → id ∉ s.held

theorem alone_of_careful (hsound : Sound s)
    (hflows : s.engine.namer.describeService spec = (flows, namer))
    (hcareful : Careful h s.engine (.deploy spec)) (huses : flows.Uses h) :
    Alone h s spec.name flows := by
  rw [Careful, hflows] at hcareful
  obtain ⟨hdeclared, hrest⟩ := hcareful huses
  refine ⟨hdeclared, ?_, ?_⟩
  · rintro id ⟨d, hd, hserves⟩
    obtain ⟨holding, hmem, rfl, rfl⟩ := find?_eq_some hd
    exact (hrest holding hmem hserves).1
  · rintro id ⟨d, hd, hserves⟩ hheld
    obtain ⟨holding, hmem, rfl, rfl⟩ := find?_eq_some hd
    obtain ⟨hget, hone⟩ := hrest holding hmem hserves
    -- The registry is its one holder, and whoever else holds it would be a second one.
    have hcount := hsound.accounted.holders holding hmem
    unfold Session.holds at hcount
    have hregistry := List.count_pos_iff.mpr (Registry.mem_items_of_get? hget)
    have hothers := List.count_pos_iff.mpr hheld
    rw [List.count_append] at hcount
    omega

/-- Where the instance is in use, the replaced deployment carries it over. -/
theorem carried_of_serves (hguarded : Guarded h s.engine) (hsound : Sound s)
    (halone : Alone h s name flows) (hserves : s.engine.Serves h id) :
    h ∈ carried (s.engine.deployed? name) flows := by
  have hget := halone.registered id hserves
  obtain ⟨d, hd, huses⟩ := hserves
  rcases hsound.deployed?_cases name with ⟨hnone, -⟩ | ⟨old, replaced, hold, hfound, hsome⟩
  · rw [hnone] at hget
    cases hget
  · obtain rfl := Option.some.inj (hold.symm.trans hget)
    obtain rfl := Option.some.inj (hfound.symm.trans hd)
    rw [hsome]
    refine List.mem_filter.mpr ⟨hguarded.declared _ _ hd huses, ?_⟩
    exact decide_eq_true halone.declared

theorem not_fresh_of_carried (hcarried : h ∈ carried (e.deployed? name) flows) :
    h ∉ (e.freshInstances name flows).map Prod.snd := by
  rw [map_snd_freshInstances]
  intro hmem
  exact of_decide_eq_true (List.mem_filter.mp hmem).2 hcarried

/-- An operator who fails to deploy has cleaned up nothing that is in use. -/
theorem notReady {failed : QName × Failure} (hsound : Sound s) (hguarded : Guarded h s.engine)
    (hflows : s.engine.namer.describeService spec = (flows, namer))
    (hcareful : Careful h s.engine (.deploy spec))
    (hready : Readied (s.engine.freshInstances spec.name flows) events (some failed)) :
    Keeps h s.engine events { s.engine with namer } := by
  refine Fades.keeps (Fades.of_eq rfl rfl fun id hserves => ?_) hguarded
  refine cleaned_of_readied hready ?_
  by_cases huses : flows.Uses h
  · have halone := alone_of_careful hsound hflows hcareful huses
    exact not_fresh_of_carried (carried_of_serves hguarded hsound halone hserves)
  · rw [map_snd_freshInstances]
    exact fun hmem => huses (Flows.uses_of_mem_handlers (List.mem_of_mem_filter hmem))

/-- Once the new deployment is there, everything else stems from before. -/
theorem find?_handed_add_cases {d d' : Deployment}
    (hfound : ((e.handed previous d.flows).add d).2.find? id = some d') :
    (id = ((e.handed previous d.flows).add d).1 ∧ d' = d) ∨
      ∃ old, e.deployments.find? id = some old ∧ d'.flows = old.flows := by
  rcases find?_add_cases hfound with hnew | hold
  · exact Or.inl hnew
  · refine Or.inr ?_
    unfold handed at hold
    split at hold
    next =>
      obtain ⟨before, hbefore, ⟨-, rfl⟩ | ⟨-, rfl⟩⟩ := find?_modify_cases hold
      · exact ⟨before, hbefore, rfl⟩
      · exact ⟨_, hbefore, rfl⟩
    next => exact ⟨d', hold, rfl⟩

/-- The id of a new deployment is none that lives. -/
theorem ne_added {d old : Deployment} (hsound : Sound s)
    (hold : s.engine.deployments.find? id = some old) :
    id ≠ ((s.engine.handed previous d.flows).add d).1 := by
  have hlt := (hsound.handed previous d.flows).lt_nextId (hsound.accounted.mem_of_find? hold)
  exact Nat.ne_of_lt hlt

/-- The deployment that is replaced does not own what it hands over. -/
theorem not_mem_release_of_carried {d : Deployment} {old : Nat} (hsound : Sound s)
    (hget : s.engine.registry.get? d.service = some old)
    (hcarried : h ∈ carried (s.engine.deployed? d.service) d.flows) :
    h ∉ (((s.engine.handed (s.engine.deployed? d.service) d.flows).add d).2.release old).1 := by
  intro hmem
  obtain ⟨d', hd', howns, -⟩ := owned_of_mem_release hmem
  rcases hsound.deployed?_cases d.service with ⟨hnone, -⟩ | ⟨old', replaced, hold, hfound, hsome⟩
  · rw [hnone] at hget
    cases hget
  · obtain rfl := Option.some.inj (hold.symm.trans hget)
    rw [hsome] at hcarried
    rcases find?_add_cases hd' with ⟨heq, -⟩ | hhanded
    · exact ne_added hsound hfound heq
    · rw [hsome] at hhanded
      obtain ⟨before, hbefore, ⟨-, rfl⟩ | ⟨hne, -⟩⟩ := find?_modify_cases hhanded
      · obtain rfl := Option.some.inj (hfound.symm.trans hbefore)
        exact howns.2 (List.mem_append_right _ hcarried)
      · exact hne rfl

/-- What is cleaned up for the replaced deployment was in its hands. -/
theorem serves_of_mem_release {d : Deployment} {old : Nat} (hsound : Sound s)
    (hget : s.engine.registry.get? d.service = some old)
    (hmem : h ∈ (((s.engine.handed (s.engine.deployed? d.service) d.flows).add d).2.release
      old).1) : s.engine.Serves h old := by
  obtain ⟨d', hd', howns, -⟩ := owned_of_mem_release hmem
  obtain ⟨replaced, hlives⟩ := hsound.accounted.exists_find?
    (List.mem_append_left s.held (Registry.mem_items_of_get? hget))
  rcases find?_handed_add_cases hd' with ⟨heq, -⟩ | ⟨before, hbefore, hflows⟩
  · exact absurd heq (ne_added hsound hlives)
  · refine ⟨before, hbefore, ?_⟩
    rw [← hflows]
    exact Flows.uses_of_mem_handlers howns.1

theorem serves_of_carried (hsound : Sound s)
    (hcarried : h ∈ carried (s.engine.deployed? name) flows) : ∃ id, s.engine.Serves h id := by
  rcases hsound.deployed?_cases name with ⟨-, hnone⟩ | ⟨old, replaced, -, hfound, hsome⟩
  · rw [hnone] at hcarried
    exact absurd hcarried List.not_mem_nil
  · rw [hsome] at hcarried
    exact ⟨old, replaced, hfound, Flows.uses_of_mem_handlers (List.mem_of_mem_filter hcarried)⟩

section Installed

variable {d : Deployment}

/-- Everything but the new deployment stems from before. -/
theorem find?_installed_cases (hinstalled : Installed e d previous events e' id) {id' : Nat}
    {d' : Deployment} (hfound : e'.deployments.find? id' = some d') :
    (id' = ((e.handed previous d.flows).add d).1 ∧ d' = d) ∨
      ∃ old, e.deployments.find? id' = some old ∧ d'.flows = old.flows := by
  cases hinstalled with
  | added => exact find?_handed_add_cases hfound
  | replaced => exact find?_handed_add_cases (find?_of_find?_release hfound)

/-- Where the instance is used afterwards, it was not cleaned up for the replaced deployment. -/
theorem quiet_of_installed (hsound : Sound s) (hguarded : Guarded h s.engine)
    (hinstalled : Installed s.engine d (s.engine.deployed? d.service) events e' id)
    (halone : d.flows.Uses h → Alone h s d.service d.flows) {id' : Nat}
    (hserves : e'.Serves h id') : cleaned h events = 0 := by
  obtain ⟨d', hd', huses'⟩ := hserves
  have horigin := find?_installed_cases hinstalled hd'
  cases hinstalled with
  | added => rfl
  | @replaced old hget =>
    rw [cleaned_cleanups, List.count_eq_zero]
    intro hmem
    have hold := serves_of_mem_release hsound hget hmem
    by_cases huses : d.flows.Uses h
    · have hcarried := carried_of_serves hguarded hsound (halone huses) hold
      exact not_mem_release_of_carried hsound hget hcarried hmem
    · -- The deployment that uses the instance afterwards would be the one that is gone.
      rcases horigin with ⟨-, rfl⟩ | ⟨before, hbefore, hflows⟩
      · exact huses huses'
      · rw [hflows] at huses'
        obtain rfl := hguarded.single old id' hold ⟨before, hbefore, huses'⟩
        obtain ⟨-, -, -, hgone⟩ := owned_of_mem_release hmem
        rw [hgone] at hd'
        cases hd'

/-- No earlier deployment uses the instance beside a new one that does. -/
theorem eq_added_of_installed (hsound : Sound s) (hsound' : Sound ⟨e', s.held⟩)
    (hinstalled : Installed s.engine d (s.engine.deployed? d.service) events e' id)
    (halone : Alone h s d.service d.flows) {id' : Nat} (hserves : e'.Serves h id') :
    id' = ((s.engine.handed (s.engine.deployed? d.service) d.flows).add d).1 := by
  obtain ⟨d', hd', huses'⟩ := hserves
  rcases find?_installed_cases hinstalled hd' with ⟨heq, -⟩ | ⟨before, hbefore, hflows⟩
  · exact heq
  · rw [hflows] at huses'
    have hget := halone.registered id' ⟨before, hbefore, huses'⟩
    have hunheld := halone.unheld id' ⟨before, hbefore, huses'⟩
    have hnodup := hsound.nodup_items_add d (s.engine.deployed? d.service)
    have hheld := hsound'.accounted.mem_of_find? hd'
    rw [hget] at hnodup
    -- Neither the registry nor anybody else holds it any more.
    cases hinstalled with
    | added hfree =>
      rw [hfree] at hget
      cases hget
    | replaced =>
      rcases List.mem_append.mp hheld with hitem | hother
      · exact absurd hitem (List.nodup_cons.mp hnodup).1
      · exact absurd hother hunheld

end Installed

/-- A careful operator takes the instance from one deployment to the next. -/
theorem installed {d : Deployment} (hsound : Sound s) (hsound' : Sound ⟨e', s.held⟩)
    (hguarded : Guarded h s.engine)
    (hready : Readied (s.engine.freshInstances d.service d.flows) front none)
    (hinstalled : Installed s.engine d (s.engine.deployed? d.service) back e' id)
    (halone : d.flows.Uses h → Alone h s d.service d.flows) :
    Keeps h s.engine (front ++ back) e' := by
  obtain ⟨hreadied, hcleaned⟩ := balance_of_ready (h := h) hready
  refine ⟨⟨?_, ?_, ?_⟩, ?_, ?_⟩
  · cases hinstalled <;> exact hguarded.globals
  · intro id' d' hd' huses'
    rcases find?_installed_cases hinstalled hd' with ⟨-, rfl⟩ | ⟨before, hbefore, hflows⟩
    · exact (halone huses').declared
    · rw [hflows] at huses' ⊢
      exact hguarded.declared id' before hbefore huses'
  · intro id₁ id₂ hserves₁ hserves₂
    by_cases huses : d.flows.Uses h
    · rw [eq_added_of_installed hsound hsound' hinstalled (halone huses) hserves₁,
        eq_added_of_installed hsound hsound' hinstalled (halone huses) hserves₂]
    · have hbefore : ∀ id', e'.Serves h id' → s.engine.Serves h id' := by
        rintro id' ⟨d', hd', huses'⟩
        rcases find?_installed_cases hinstalled hd' with ⟨-, rfl⟩ | ⟨before, hbefore, hflows⟩
        · exact absurd huses' huses
        · exact ⟨before, hbefore, hflows ▸ huses'⟩
      exact hguarded.single id₁ id₂ (hbefore id₁ hserves₁) (hbefore id₂ hserves₂)
  · intro id' d₁ d₂ hd₁ hd₂
    rcases find?_installed_cases hinstalled hd₂ with ⟨heq, -⟩ | ⟨before, hbefore, hflows⟩
    · exact absurd heq (ne_added hsound hd₁)
    · obtain rfl := Option.some.inj (hd₁.symm.trans hbefore)
      exact hflows
  · intro id' hserves
    refine ⟨?_, ?_⟩
    · rw [cleaned_append, hcleaned, quiet_of_installed hsound hguarded hinstalled halone hserves]
    · by_cases hcarried : h ∈ carried (s.engine.deployed? d.service) d.flows
      · exact Or.inl (serves_of_carried hsound hcarried)
      · obtain ⟨d', hd', huses'⟩ := hserves
        rcases find?_installed_cases hinstalled hd' with ⟨-, rfl⟩ | ⟨before, hbefore, hflows⟩
        · have hfresh := count_freshInstances (e := s.engine) (h := h) d'.service d'.flows
          rw [if_neg hcarried, if_pos (halone huses').declared] at hfresh
          rw [readied_append, hreadied]
          exact Or.inr (by omega)
        · exact Or.inl ⟨id', before, hbefore, hflows ▸ huses'⟩

theorem deployed {result : Except DeployError Nat} (hsound : Sound s)
    (hguarded : Guarded h s.engine) (hcareful : Careful h s.engine (.deploy spec))
    (hdeployed : Deployed s.engine spec events e' result) : Keeps h s.engine events e' := by
  cases hdeployed with
  | refused => exact Fades.keeps (Fades.of_eq rfl rfl fun _ _ => rfl) hguarded
  | notReady hflows hready => exact notReady hsound hguarded hflows hcareful hready
  | @deployed flows namer chains front back _ _ hflows hchains hready hinstalled =>
    have hsound' := hsound.deployed (Deployed.deployed hflows hchains hready hinstalled)
    have halone := alone_of_careful hsound hflows hcareful
    -- The names given meanwhile change nothing of what lives and is registered.
    have hnamed : Sound ⟨{ s.engine with namer }, s.held⟩ := hsound.congr rfl rfl
    have hkeeps : Keeps h { s.engine with namer } (front ++ back) e' := by
      refine installed (s := ⟨{ s.engine with namer }, s.held⟩)
        (d := ⟨spec.name, spec.operations, flows, chains, []⟩) hnamed hsound' ?_ hready
        hinstalled ?_
      · exact ⟨hguarded.globals, hguarded.declared, hguarded.single⟩
      · exact fun huses => ⟨(halone huses).declared, (halone huses).registered,
          (halone huses).unheld⟩
    exact ⟨hkeeps.guarded, hkeeps.lasting, hkeeps.covered⟩

end Deploying

/-! ### Everything else -/

theorem release {id : Nat} (hguarded : Guarded h e) (hrun : Run (e.release id) events e') :
    Keeps h e events e' := by
  obtain ⟨rfl, rfl⟩ := eq_of_release hrun
  exact Fades.keeps (Fades.release hguarded rfl rfl) hguarded

theorem done {op : Operation} (hsound : Sound s) (hguarded : Guarded h s.engine)
    (hcareful : Careful h s.engine op) (hdone : op.Done s.engine events e') :
    Keeps h s.engine events e' := by
  cases hdone with
  | engage hrun => exact engaged hguarded hcareful (engaged_of_engage hrun)
  | deploy hrun => exact deployed hsound hguarded hcareful (deployed_of_deploy hrun)
  | undeploy hrun =>
    cases undeployed_of_undeploy hrun with
    | notDeployed => exact Fades.keeps (Fades.of_eq rfl rfl fun _ _ => rfl) hguarded
    | undeployed _ hremoved => exact (Fades.removed hguarded hremoved).keeps hguarded
  | shutdown hrun => exact (Fades.shutDown hguarded (shutDown_of_shutdown hrun)).keeps hguarded

end Keeps

end SoapPipeline
