/-
  SoapPipeline.Proofs.Traffic.UseBeforeReady

  Whether an instance is called before it ever got ready.

  Getting ready follows the declarations: engaging a handler and deploying a service
  get the instances ready that descriptors stand for.  Calling follows the chains,
  where an option may put up an instance that no descriptor stands for.  The two
  agree on an instance if whoever brings it in declares it.

  The induction over what happens tells two kinds of past apart.  Once the instance
  got ready, nothing that is called can be called too early.  As long as it did not,
  nothing on the engine uses it and no message on its way may call it.

  Main results:
    * `Unused.done`: an operation that brings the instance in gets it ready;
    * `Unused.inFlight`: whatever messages do, they do not call what is not in use;
    * `ready_before_use`: nobody calls an instance that never got ready, if
      whoever brings it in declares it;
    * `called_before_ready`: otherwise it may happen.
-/
import SoapPipeline.Proofs.Traffic.UseAfterCleanup

namespace SoapPipeline

open Program Lifecycle Engine Deployments

/-! ## What comes first -/

/-- The instance got ready once, and did not fail. -/
def GotReady (h : Handler) (past : List Occurrence) : Prop :=
  ∃ o ∈ past, o.getsReady h = true

/-- Whenever a message called the instance, it had got ready before. -/
def ReadyFirst (h : Handler) (past : List Occurrence) : Prop :=
  ∀ before call after, past = before ++ call :: after → call.Calls h → GotReady h before

/-- Nothing on the engine uses the instance. -/
structure Unused (h : Handler) (e : Engine) : Prop where
  globals : ¬ e.globals.Uses h
  deployments : ∀ id, ¬ e.Serves h id

/-- An operation that brings the instance in, declares it: a descriptor stands for it. -/
def Declared (h : Handler) (e : Engine) : Operation → Prop
  | .engage _ spec =>
    (e.namer.describe spec).1.Uses h → Unused h e → (e.namer.describe spec).1.handler = h
  | .deploy spec =>
    (e.namer.describeService spec).1.Uses h → Unused h e →
      h ∈ (e.namer.describeService spec).1.handlers
  | .undeploy _ => True
  | .shutdown => True

variable {h : Handler} {past occurrences : List Occurrence} {e e' : Engine}
  {events : List LifecycleEvent}

theorem gotReady_append :
    GotReady h (past ++ occurrences) ↔ GotReady h past ∨ GotReady h occurrences := by
  unfold GotReady
  simp only [List.mem_append, or_and_right, exists_or]

theorem gotReady_of_readied (hready : 0 < readied h events) :
    GotReady h (events.map .lifecycle) := by
  obtain ⟨event, hevent, hgets⟩ := List.countP_pos_iff.mp hready
  exact ⟨.lifecycle event, List.mem_map_of_mem hevent, hgets⟩

theorem readyFirst_append (hpast : ReadyFirst h past)
    (hcalls : ∀ o ∈ occurrences, o.Calls h → GotReady h past) :
    ReadyFirst h (past ++ occurrences) := by
  intro before call after hsplit hcall
  rcases append_eq_append_cons_cases hsplit with ⟨rest, hbefore, -⟩ | ⟨front, rfl, hnew⟩
  · exact hpast before call rest hbefore hcall
  · have hmem : call ∈ occurrences := by
      rw [hnew]
      exact List.mem_append_right _ List.mem_cons_self
    exact gotReady_append.mpr (Or.inl (hcalls call hmem hcall))

/-! ## Operations while the instance is not in use -/

namespace Unused

theorem guarded (hunused : Unused h e) : Guarded h e where
  globals := hunused.globals
  declared := fun id d hd huses => absurd ⟨d, hd, huses⟩ (hunused.deployments id)
  single := fun id _ hserves _ => absurd hserves (hunused.deployments id)

/-- Nothing brings the instance in when no deployment comes. -/
theorem fades (hunused : Unused h e) (hfades : Fades h e events e') : Unused h e' where
  globals := hfades.globals hunused.globals
  deployments := fun id hserves => hunused.deployments id (hfades.stems.serves hserves)

theorem congr (hunused : Unused h e) (hglobals : e'.globals = e.globals)
    (hdeployments : e'.deployments = e.deployments) : Unused h e' := by
  have hfades : Fades h e [] e' := Fades.of_eq hdeployments hglobals fun _ _ => rfl
  exact hunused.fades hfades

theorem engaged {flow : Flow} {spec : HandlerSpec} {result : Except DeployError Descriptor}
    (hunused : Unused h e) (hdeclared : Declared h e (.engage flow spec))
    (hengaged : Engaged e flow spec events e' result) : Unused h e' ∨ 0 < readied h events := by
  cases hengaged with
  | refused => exact Or.inl (hunused.congr rfl rfl)
  | notReady => exact Or.inl (hunused.congr rfl rfl)
  | @engaged d namer _ chains rebuilt hd _ _ hready =>
    rw [Declared, hd] at hdeclared
    by_cases huses : d.Uses h
    · -- It is declared, and new, so it is the one that gets ready.
      obtain rfl : d.handler = h := hdeclared huses hunused
      have hnew : d.handler ∉ e.globals.handlers := fun hmem =>
        hunused.globals (Flows.uses_of_mem_handlers hmem)
      have hcount := (balance_of_ready (h := d.handler) hready).1
      unfold freshGlobal at hcount
      rw [if_neg hnew] at hcount
      right
      simp [hcount]
    · left
      constructor
      · intro hglobal
        exact (Flows.uses_push_iff.mp hglobal).elim hunused.globals huses
      · intro id hserves
        exact hunused.deployments id (Stems.serves stems_publish hserves)

theorem deployed {s : Session} {spec : ServiceSpec} {result : Except DeployError Nat}
    (hunused : Unused h s.engine) (hsound : Sound s)
    (hdeclared : Declared h s.engine (.deploy spec))
    (hdeployed : Deployed s.engine spec events e' result) :
    Unused h e' ∨ 0 < readied h events := by
  cases hdeployed with
  | refused => exact Or.inl (hunused.congr rfl rfl)
  | notReady => exact Or.inl (hunused.congr rfl rfl)
  | @deployed flows namer chains front back _ id hflows hchains hready hinstalled =>
    rw [Declared, hflows] at hdeclared
    by_cases huses : flows.Uses h
    · -- It is declared, and no deployment carries it over, so it gets ready.
      have hmem := hdeclared huses hunused
      have hfresh : h ∉ carried (s.engine.deployed? spec.name) flows := by
        intro hcarried
        obtain ⟨old, hserves⟩ := Keeps.serves_of_carried hsound hcarried
        exact hunused.deployments old hserves
      have hcount := count_freshInstances (e := s.engine) (h := h) spec.name flows
      rw [if_neg hfresh, if_pos hmem] at hcount
      have hreadied := (balance_of_ready (h := h) hready).1
      right
      rw [readied_append, hreadied]
      omega
    · left
      constructor
      · cases hinstalled <;> exact hunused.globals
      · intro id' hserves
        obtain ⟨d', hd', huses'⟩ := hserves
        rcases Keeps.find?_installed_cases hinstalled hd' with ⟨-, rfl⟩ | ⟨old, hold, hsame⟩
        · exact huses huses'
        · rw [hsame] at huses'
          exact hunused.deployments id' ⟨old, hold, huses'⟩

/-- An operation that brings the instance in gets it ready. -/
theorem done {s : Session} {op : Operation} (hunused : Unused h s.engine) (hsound : Sound s)
    (hdeclared : Declared h s.engine op) (hdone : op.Done s.engine events e') :
    Unused h e' ∨ 0 < readied h events := by
  cases hdone with
  | engage hrun => exact hunused.engaged hdeclared (engaged_of_engage hrun)
  | deploy hrun => exact hunused.deployed hsound hdeclared (deployed_of_deploy hrun)
  | undeploy hrun =>
    left
    cases undeployed_of_undeploy hrun with
    | notDeployed => exact hunused
    | undeployed _ hremoved => exact hunused.fades (Fades.removed hunused.guarded hremoved)
  | shutdown hrun =>
    left
    exact hunused.fades (Fades.shutDown hunused.guarded (shutDown_of_shutdown hrun))

theorem release {id : Nat} (hunused : Unused h e) (hrun : Run (e.release id) events e') :
    Unused h e' := by
  obtain ⟨rfl, rfl⟩ := eq_of_release hrun
  exact hunused.fades (Fades.release hunused.guarded rfl rfl)

/-- Whatever a message does next, it does not call what is not in use, and does not bring it in. -/
theorem inFlight {m m' : InFlight} (hunused : Unused h e) (hpublished : Published e)
    (hbound : Bound h e m) (hstep : m.Step e occurrences e' m') :
    Unused h e' ∧ Bound h e' m' ∧ ∀ o ∈ occurrences, ¬ o.Calls h := by
  obtain ⟨hbound', hcalls⟩ := hbound.step hpublished hunused.globals hstep
  refine ⟨?_, hbound', ?_⟩
  · cases hstep with
    | invoke => exact hunused
    | undo => exact hunused
    | found => exact hunused.fades Fades.retain
    | missed => exact hunused
    | globalChains => exact hunused
    | release hrun => exact hunused.release hrun
    | freshId => exact hunused
  · intro o ho hcall
    obtain ⟨id, hserves⟩ := hcalls o ho hcall
    exact hunused.deployments id hserves

end Unused

/-! ## Traffic -/

/-- Nothing uses the instance, and no message on its way may call it. -/
structure Untouched (h : Handler) (t : Traffic) : Prop where
  unused : Unused h t.engine
  bound : ∀ m ∈ t.messages, Bound h t.engine m

namespace Untouched

variable {t : Traffic} {kept : List Nat} {messages : List InFlight}

theorem new {config : Config} (hnew : Engine.new config = .ok e) : Untouched h ⟨e, [], []⟩ := by
  obtain ⟨chains, -, rfl⟩ := eq_of_new hnew
  refine ⟨⟨?_, ?_⟩, ?_⟩
  · intro huses
    obtain ⟨d, hd, -⟩ := huses
    exact List.not_mem_nil hd
  · intro id hserves
    obtain ⟨d, hd, -⟩ := hserves
    cases hd
  · exact fun m hm => absurd hm List.not_mem_nil

/-- Messages that may not call the instance may not do so either on an engine that does not use
it. -/
theorem of_unused (h₀ : Untouched h t) (hunused : Unused h e)
    (hmessages : ∀ m ∈ messages, m ∈ t.messages ∨ Bound h e m) :
    Untouched h ⟨e, kept, messages⟩ := by
  refine ⟨hunused, ?_⟩
  intro m hm
  rcases hmessages m hm with hold | hnew
  · apply (h₀.bound m hold).mono
    intro id _ hserves
    exact absurd hserves (h₀.unused.deployments id)
  · exact hnew

/-- As long as the instance did not get ready, nothing that happens calls it or brings it in. -/
theorem step {t' : Traffic} (h₀ : Untouched h t) (hsteady : Steady t.session)
    (hstep : t.Step (Declared h) occurrences t') :
    (Untouched h t' ∨ GotReady h occurrences) ∧ ∀ o ∈ occurrences, ¬ o.Calls h := by
  have hquiet : ∀ {events : List LifecycleEvent}, ∀ o ∈ events.map Occurrence.lifecycle,
      ¬ o.Calls h := by
    intro events o ho hcall
    obtain ⟨event, -, rfl⟩ := List.mem_map.mp ho
    exact hcall
  cases hstep with
  | @operate op events e hdeclared hdone =>
    refine ⟨?_, hquiet⟩
    rcases h₀.unused.done (s := t.session) hsteady.sound hdeclared hdone with hunused | hready
    · exact Or.inl (h₀.of_unused hunused fun m hm => Or.inl hm)
    · exact Or.inr (gotReady_of_readied hready)
  | keep hlives =>
    refine ⟨Or.inl ?_, fun o ho => absurd ho List.not_mem_nil⟩
    exact h₀.of_unused (h₀.unused.fades Fades.retain) fun m hm => Or.inl hm
  | letGo _ hrun =>
    exact ⟨Or.inl (h₀.of_unused (h₀.unused.release hrun) fun m hm => Or.inl hm), hquiet⟩
  | arrive ctx =>
    refine ⟨Or.inl ⟨h₀.unused, ?_⟩, fun o ho => absurd ho List.not_mem_nil⟩
    intro m hm
    rcases List.mem_cons.mp hm with rfl | hm
    · rw [dispatch_eq]
      exact Bound.arrived _
    · exact h₀.bound m hm
  | @proceed front back m m' _ e hsplit hstep =>
    have hm : m ∈ t.messages := by simp [hsplit]
    obtain ⟨hunused, hbound, hcalls⟩ :=
      h₀.unused.inFlight hsteady.published (h₀.bound m hm) hstep
    refine ⟨Or.inl (h₀.of_unused hunused fun m'' hm'' => ?_), hcalls⟩
    rcases mem_cut_iff.mp hm'' with rfl | hother
    · exact Or.inr hbound
    · exact Or.inl (mem_of_cut hsplit hother)
  | @breakDown front back id rest _ e hsplit hrun =>
    refine ⟨Or.inl (h₀.of_unused (h₀.unused.release hrun) fun m hm => Or.inl ?_), hquiet⟩
    exact mem_of_cut hsplit hm

end Untouched

/-- When whoever brings an instance in declares it, no message calls it before it got ready,
whatever else happens in whatever order: not in a chain, not as a fault handler from an option or a
fault chain, and not to undo its work. -/
theorem ready_before_use {config : Config} {t : Traffic}
    (hpast : Traffic.History config (Declared h) past t) : ReadyFirst h past := by
  have hboth : ReadyFirst h past ∧ (Untouched h t ∨ GotReady h past) := by
    induction hpast with
    | new hnew =>
      refine ⟨?_, Or.inl (Untouched.new hnew)⟩
      intro before call after hsplit
      simp at hsplit
    | @step past occurrences t t' hpast hstep ih =>
      obtain ⟨hfirst, huntouched | hready⟩ := ih
      · -- Nothing uses the instance yet, so this step does not call it.
        obtain ⟨hnext, hcalls⟩ := huntouched.step (Traffic.steady_of_history hpast) hstep
        refine ⟨readyFirst_append hfirst fun o ho hcall => absurd hcall (hcalls o ho), ?_⟩
        exact hnext.imp_right fun hready => gotReady_append.mpr (Or.inr hready)
      · -- It got ready, so that any call comes later.
        refine ⟨readyFirst_append hfirst fun o ho hcall => hready, Or.inr ?_⟩
        exact gotReady_append.mpr (Or.inl hready)
  exact hboth.1

/-! ### A vault with an alarm -/

/-- The guard of the vault got ready before the message called it. -/
theorem vault_ready_first : ∃ past t, Traffic.History onePhase (Declared guard) past t ∧
    (∃ o ∈ past, o.Calls guard) ∧ ReadyFirst guard past := by
  have hdeclared : Declared guard (vaultEngine [] .empty) (.deploy vaultService) :=
    fun _ _ => List.mem_cons_self
  obtain ⟨next, hserved, -⟩ := served_vault
  have hpast := history_vault hdeclared
  rw [hserved] at hpast
  have hcalled := hpast.step (.proceed (List.nil_append _).symm
    (.invoke (.ok .proceed, vaultRequest)))
  refine ⟨_, _, hcalled, ?_, ready_before_use hcalled⟩
  exact ⟨.exchange ⟨.invoke guard vaultRequest, (.ok .proceed, vaultRequest)⟩, by simp, rfl⟩

/-- A handler that no descriptor stands for. -/
def alarm : Handler := ⟨4, []⟩

def intrusion : Fault := ⟨⟨"", "Intrusion"⟩, "somebody is in the vault", none⟩

/-- The guard with the alarm among its options. -/
def alarmedGuard : Options := ⟨[(FaultCode.key intrusion.code, .handler alarm)]⟩

def alarmedService : ServiceSpec :=
  { vaultService with inbound := [⟨some ⟨"", "guard"⟩, guard, .inPhase "main", alarmedGuard⟩] }

def alarmedFlows : Flows := ⟨[⟨⟨"", "guard"⟩, guard, alarmedGuard, .inPhase "main"⟩], [], []⟩

def alarmedChains : Chains :=
  { vaultChains with
    inbound := ⟨.inbound, .service vaultService.name, [⟨"main", alarmedFlows.inbound⟩]⟩ }

def alarmedVault : Deployment := ⟨vaultService.name, [], alarmedFlows, alarmedChains, []⟩

theorem build_alarmed :
    Chains.build onePhase.order (.service vaultService.name) .empty alarmedFlows =
      .ok alarmedChains := by
  have hcycle : Graph.findCycle? [[]] = none := by cbv
  have hresolve : Phase.resolve "main" alarmedFlows.inbound =
      .ok ⟨"main", Phase.seats alarmedFlows.inbound [0]⟩ :=
    Phase.resolve_of_stages rfl rfl hcycle rfl rfl
  exact build_inbound _ (by decide) hresolve

/-- The engine with the vault deployed, which so many hold. -/
def alarmedEngine (holders : Nat) : Engine :=
  vaultEngine [(vaultService.name, 0)] ⟨1, [⟨0, alarmedVault, holders⟩]⟩

/-- Deploying the vault gets the guard ready, and not the alarm. -/
theorem deploy_alarmed : Run ((vaultEngine [] .empty).deploy alarmedService) [⟨.init guard, none⟩]
    (alarmedEngine 1, .ok 0) := by
  unfold Engine.deploy vaultEngine
  dsimp only
  rw [show Namer.start.describeService alarmedService = (alarmedFlows, Namer.start) from rfl]
  dsimp only
  rw [show alarmedService.name = vaultService.name from rfl, build_alarmed]
  exact Run.ask (Run.done _)

def alarmedLease : Lease := ⟨0, [], alarmedChains⟩

theorem found_alarmed :
    InFlight.Step (alarmedEngine 1) ⟨none, dispatch onePhase.engineId vaultMessage⟩
      [.exchange ⟨.lookup vaultService.name, some alarmedLease⟩]
      (alarmedEngine 2) ⟨some 0, served vaultRequest (some alarmedLease)⟩ :=
  @InFlight.Step.found _ vaultRequest.service 0 alarmedVault (served vaultRequest) rfl

/-- The message as the alarm gets it. -/
def intrusionReport : Context := { vaultRequest with fault := some intrusion }

/-- When the guard fails, the message calls the alarm. -/
theorem served_alarmed : ∃ next next',
    served vaultRequest (some alarmedLease) = .ask (.invoke guard vaultRequest) next ∧
      next (.error intrusion, vaultRequest) = .ask (.invoke alarm intrusionReport) next' :=
  ⟨_, _, rfl, rfl⟩

/-- An alarm that is only an option of the guard is called although it never got ready. -/
theorem called_before_ready : ¬ ∀ (config : Config) (h : Handler) (past : List Occurrence)
    (t : Traffic), Traffic.History config (fun _ _ => True) past t → ReadyFirst h past := by
  intro hall
  have hnew : Traffic.History onePhase (fun _ _ => True) [] ⟨vaultEngine [] .empty, [], []⟩ :=
    .new new_onePhase
  have hdeployed := hnew.step (.operate trivial (.deploy deploy_alarmed))
  have harrived := hdeployed.step (.arrive vaultMessage)
  have hpast := harrived.step (.proceed (List.nil_append _).symm found_alarmed)
  obtain ⟨next, next', hserved, hfailed⟩ := served_alarmed
  rw [hserved] at hpast
  have hguarded := hpast.step (.proceed (List.nil_append _).symm
    (.invoke (.error intrusion, vaultRequest)))
  rw [hfailed] at hguarded
  have hcalled := hguarded.step (.proceed (List.nil_append _).symm
    (.invoke (.ok .proceed, intrusionReport)))
  obtain ⟨o, ho, hgets⟩ := hall _ alarm _ _ hcalled _ _ [] rfl rfl
  simp only [List.map_cons, List.map_nil, List.nil_append, List.cons_append, List.mem_cons,
    List.not_mem_nil, or_false] at ho
  rcases ho with rfl | rfl | rfl <;> exact absurd hgets (by decide)

end SoapPipeline
