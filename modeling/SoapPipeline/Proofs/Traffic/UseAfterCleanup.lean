/-
  SoapPipeline.Proofs.Traffic.UseAfterCleanup

  Whether an instance is called after it has been cleaned up.

  A deployment lives as long as a message holds it, but it is not its lifetime
  alone that keeps the instances intact which the message will call.  A successor
  that carries an instance over cleans it up when it goes itself, also while
  messages still run on the deployment that came before.  Only when the operator
  is careful with the instance do messages call it as long as it is ready.

  Main results:
    * `Bound.step`: what a message calls, as long as it holds a deployment;
    * `Bound.progress`: a message that has not come to its end can go on;
    * `Protected.step`: no step takes an instance away from those who may call it;
    * `intact_of_careful`: nobody calls an instance that has been cleaned up, if
      the operator is careful with it;
    * `called_after_cleanup`: otherwise it may happen, also to an instance that is
      used under one name only.
-/
import SoapPipeline.Proofs.Ahead
import SoapPipeline.Proofs.Traffic.Custody

namespace SoapPipeline

open Program Lifecycle Engine Deployments

/-! ## What happens to an instance -/

namespace Occurrence

/-- The instance gets ready, and does not fail. -/
def getsReady (h : Handler) : Occurrence → Bool
  | .lifecycle event => Lifecycle.getsReady h event
  | .exchange _ => false

/-- The instance cleans up. -/
def cleansUp (h : Handler) : Occurrence → Bool
  | .lifecycle event => Lifecycle.cleansUp h event
  | .exchange _ => false

/-- A message has the instance process it or undo its work. -/
def Calls (h : Handler) : Occurrence → Prop
  | .exchange ⟨.invoke h' _, _⟩ => h' = h
  | .exchange ⟨.undo h' _, _⟩ => h' = h
  | _ => False

end Occurrence

/-- The instance has cleaned up and has not got ready since. -/
def Spent (h : Handler) (past : List Occurrence) : Prop :=
  ∃ early cleanup late, past = early ++ cleanup :: late ∧ cleanup.cleansUp h = true ∧
    ∀ later ∈ late, later.getsReady h = false

/-- No message ever called the instance when it was spent. -/
def Intact (h : Handler) (past : List Occurrence) : Prop :=
  ∀ before call after, past = before ++ call :: after → call.Calls h → ¬ Spent h before

variable {h : Handler} {past occurrences : List Occurrence}

theorem not_spent_nil : ¬ Spent h [] := by
  rintro ⟨early, cleanup, late, hsplit, -⟩
  simp at hsplit

/-- An instance that is not cleaned up meanwhile is not spent, if it was not before or gets
ready. -/
theorem not_spent_append (hquiet : ∀ o ∈ occurrences, o.cleansUp h = false)
    (hready : ¬ Spent h past ∨ ∃ o ∈ occurrences, o.getsReady h = true) :
    ¬ Spent h (past ++ occurrences) := by
  rintro ⟨early, cleanup, late, hsplit, hcleanup, hlate⟩
  rcases append_eq_append_cons_cases hsplit with ⟨rest, hpast, rfl⟩ | ⟨rest, -, hnew⟩
  · rcases hready with hpastReady | ⟨o, ho, hgetsReady⟩
    · exact hpastReady ⟨early, cleanup, rest, hpast, hcleanup,
        fun later hlater => hlate later (List.mem_append_left _ hlater)⟩
    · rw [hlate o (List.mem_append_right _ ho)] at hgetsReady
      cases hgetsReady
  · have hmem : cleanup ∈ occurrences := by
      rw [hnew]
      exact List.mem_append_right _ List.mem_cons_self
    rw [hquiet cleanup hmem] at hcleanup
    cases hcleanup

theorem intact_append (hpast : Intact h past)
    (hcalls : ∀ front call back, occurrences = front ++ call :: back → call.Calls h →
      ¬ Spent h (past ++ front)) : Intact h (past ++ occurrences) := by
  intro before call after hsplit hcall
  rcases append_eq_append_cons_cases hsplit with ⟨rest, hbefore, -⟩ | ⟨front, rfl, hnew⟩
  · exact hpast before call rest hbefore hcall
  · exact hcalls front call after hnew hcall

/-! ## What a message may still do -/

variable {e e' : Engine} {m m' : InFlight}

/-- How far a message has come.  It calls the instance only while it holds a deployment that uses
it. -/
inductive Bound (h : Handler) (e : Engine) : InFlight → Prop
  | arrived (ctx : Context) : Bound h e ⟨none, .ask (.lookup ctx.service) (served ctx)⟩
  | missed (ctx : Context) : Bound h e ⟨none, served ctx none⟩
  | unleased {p : Exchange (Except Fault Outcome × Context)}
      (hcalls : CallsOnly (· ≠ h) (fun _ => True) p) : Bound h e ⟨none, p⟩
  | leased {id : Nat} {may : Handler → Prop} {p : Exchange (Except Fault Outcome × Context)}
      (hcalls : CallsOnly may (fun _ => True) p) (hmay : may h → e.Serves h id) :
      Bound h e ⟨some id, p >>= settle id⟩

namespace Bound

/-- A message stays bound as long as the deployment that it holds stays. -/
theorem mono (hm : Bound h e m) (hkept : ∀ id, m.lease = some id → e.Serves h id → e'.Serves h id) :
    Bound h e' m := by
  cases hm with
  | arrived ctx => exact arrived ctx
  | missed ctx => exact missed ctx
  | unleased hcalls => exact unleased hcalls
  | leased hcalls hmay => exact leased hcalls fun hh => hkept _ rfl (hmay hh)

/-- A message that runs on a deployment calls the instance only if the deployment uses it. -/
theorem found {service : QName} {ctx : Context} {id : Nat} {d : Deployment}
    (hpublished : Published e) (hglobals : ¬ e.globals.Uses h)
    (hfound : e.deployed? service = some (id, d)) :
    Bound h (e.retain id) ⟨some id, served ctx (some ⟨id, d.operations, d.chains⟩)⟩ := by
  obtain ⟨hget, hlives⟩ := Engine.deployed?_eq_some_iff.mp hfound
  obtain ⟨d', hd', hcurrent⟩ := hpublished.services service id hget
  obtain rfl := Option.some.inj (hlives.symm.trans hd')
  refine leased (callsOnly_serve (fun _ huses => huses) ctx) fun huses => ?_
  refine ⟨d, ?_, (uses_of_build hcurrent.chains huses).resolve_left hglobals⟩
  show (e.deployments.retain id).find? id = some d
  rw [find?_retain]
  exact hlives

/-- A message to no service calls global handlers only. -/
theorem unserved (hpublished : Published e) (hglobals : ¬ e.globals.Uses h) (ctx : Context) :
    Bound h e ⟨none, handleFault e.globalChains.fault none (notDeployed ctx.service) ctx⟩ := by
  have hnobody : ∀ d, (none : Option Descriptor) = some d → ∀ h', d.Uses h' → h' ≠ h :=
    fun d hd => absurd hd (Option.some_ne_none d).symm
  refine unleased (callsOnly_handleFault hnobody ?_ _ _)
  rintro h' huses rfl
  rcases uses_of_build hpublished.globalChains ⟨.fault, huses⟩ with hglobal | ⟨d, hd, -⟩
  · exact hglobals hglobal
  · exact List.not_mem_nil hd

/-- Whatever a message does next, it calls the instance only while a deployment uses it. -/
theorem step (hpublished : Published e) (hglobals : ¬ e.globals.Uses h) (hm : Bound h e m)
    (hstep : m.Step e occurrences e' m') :
    Bound h e' m' ∧ ∀ o ∈ occurrences, o.Calls h → ∃ id, e.Serves h id := by
  cases hm with
  | arrived ctx =>
    cases hstep with
    | found hfound =>
      exact ⟨found hpublished hglobals hfound, by simp [Occurrence.Calls]⟩
    | missed => exact ⟨missed ctx, by simp [Occurrence.Calls]⟩
  | missed ctx =>
    change InFlight.Step e ⟨none, .ask .globalChains _⟩ _ _ _ at hstep
    cases hstep with
    | globalChains => exact ⟨unserved hpublished hglobals ctx, by simp [Occurrence.Calls]⟩
  | unleased hcalls =>
    cases hcalls with
    | done => cases hstep
    | invoke hmay hnext =>
      cases hstep with
      | invoke answer => exact ⟨unleased (hnext answer), by simp [Occurrence.Calls, hmay]⟩
    | undo hmay hnext =>
      cases hstep with
      | undo answer => exact ⟨unleased (hnext answer), by simp [Occurrence.Calls, hmay]⟩
  | @leased id may p hcalls hmay =>
    cases hcalls with
    | @done a =>
      change InFlight.Step e ⟨some id, .ask (.release id) fun _ => .done a⟩ _ _ _ at hstep
      cases hstep with
      | release =>
        refine ⟨unleased (CallsOnly.done trivial), ?_⟩
        simp [Occurrence.Calls]
    | @invoke h' ctx next hh' hnext =>
      change InFlight.Step e
        ⟨some id, .ask (.invoke h' ctx) fun answer => next answer >>= settle id⟩
        _ _ _ at hstep
      cases hstep with
      | invoke answer =>
        refine ⟨leased (hnext answer) hmay, ?_⟩
        simp only [List.mem_singleton, forall_eq, Occurrence.Calls]
        rintro rfl
        exact ⟨id, hmay hh'⟩
    | @undo h' ctx next hh' hnext =>
      change InFlight.Step e ⟨some id, .ask (.undo h' ctx) fun answer => next answer >>= settle id⟩
        _ _ _ at hstep
      cases hstep with
      | undo answer =>
        refine ⟨leased (hnext answer) hmay, ?_⟩
        simp only [List.mem_singleton, forall_eq, Occurrence.Calls]
        rintro rfl
        exact ⟨id, hmay hh'⟩

/-- A message that has not come to its end can go on. -/
theorem progress (hm : Bound h e m) :
    (∃ result, m = ⟨none, .done result⟩) ∨ ∃ occurrences e' m', m.Step e occurrences e' m' := by
  cases hm with
  | arrived ctx =>
    cases hfound : e.deployed? ctx.service with
    | none => exact Or.inr ⟨_, _, _, .missed hfound⟩
    | some found => exact Or.inr ⟨_, _, _, .found hfound⟩
  | missed ctx => exact Or.inr ⟨_, _, _, .globalChains⟩
  | unleased hcalls =>
    cases hcalls with
    | done => exact Or.inl ⟨_, rfl⟩
    | @invoke h' ctx => exact Or.inr ⟨_, _, _, .invoke (.ok .proceed, ctx)⟩
    | @undo h' ctx => exact Or.inr ⟨_, _, _, .undo ctx⟩
  | @leased id may p hcalls =>
    cases hcalls with
    | done =>
      obtain ⟨events, e', hrun⟩ := Lifecycle.exists_end (e.release id)
      exact Or.inr ⟨_, _, _, .release hrun⟩
    | @invoke h' ctx => exact Or.inr ⟨_, _, _, .invoke (.ok .proceed, ctx)⟩
    | @undo h' ctx => exact Or.inr ⟨_, _, _, .undo ctx⟩

end Bound

/-! ## Traffic over a careful operator's engine -/

/-- What a message asks is one thing, and what handlers are asked for it keeps the instance. -/
theorem InFlight.Step.keeps (hguarded : Guarded h e) (hstep : m.Step e occurrences e' m') :
    ∃ q events, occurrences = .exchange q :: events.map .lifecycle ∧ Keeps h e events e' := by
  have hsame : Keeps h e [] e := Fades.keeps (Fades.of_eq rfl rfl fun _ _ => rfl) hguarded
  cases hstep with
  | invoke => exact ⟨_, [], rfl, hsame⟩
  | undo => exact ⟨_, [], rfl, hsame⟩
  | found => exact ⟨_, [], rfl, Fades.retain.keeps hguarded⟩
  | missed => exact ⟨_, [], rfl, hsame⟩
  | globalChains => exact ⟨_, [], rfl, hsame⟩
  | release hrun => exact ⟨_, _, rfl, Keeps.release hguarded hrun⟩
  | freshId => exact ⟨_, [], rfl, hsame⟩

/-- The instance is not spent while a deployment uses it, and messages call it only then. -/
structure Protected (h : Handler) (past : List Occurrence) (t : Traffic) : Prop where
  guarded : Guarded h t.engine
  ready : ∀ id, t.engine.Serves h id → ¬ Spent h past
  bound : ∀ m ∈ t.messages, Bound h t.engine m
  intact : Intact h past

namespace Protected

variable {t t' : Traffic} {events : List LifecycleEvent}

theorem new {config : Config} (hnew : Engine.new config = .ok e) : Protected h [] ⟨e, [], []⟩ := by
  obtain ⟨chains, -, rfl⟩ := eq_of_new hnew
  refine ⟨⟨?_, ?_, ?_⟩, ?_, ?_, ?_⟩
  · rintro ⟨d, hd, -⟩
    exact List.not_mem_nil hd
  · exact fun id d hd => nomatch hd
  · rintro id id' ⟨d, hd, -⟩
    cases hd
  · exact fun id _ => not_spent_nil
  · exact fun m hm => absurd hm List.not_mem_nil
  · intro before call after hsplit
    simp at hsplit

/-- A message asks for something, and calls the instance only while a deployment uses it. -/
theorem asked {q : ExchangeEvent} (hprotected : Protected h past t)
    (hcalls : (Occurrence.exchange q).Calls h → ∃ id, t.engine.Serves h id) :
    Protected h (past ++ [.exchange q]) t := by
  refine ⟨hprotected.guarded, ?_, hprotected.bound, ?_⟩
  · intro id hserves
    refine not_spent_append ?_ (Or.inl (hprotected.ready id hserves))
    simp [Occurrence.cleansUp]
  · refine intact_append hprotected.intact ?_
    intro front call back hsplit hcall
    obtain ⟨rfl, rfl, -⟩ : front = [] ∧ call = .exchange q ∧ back = [] := by
      rcases List.cons_eq_append_iff.mp hsplit with ⟨rfl, heq⟩ | ⟨rest, -, hnil⟩
      · obtain ⟨rfl, rfl⟩ := List.cons_eq_cons.mp heq
        exact ⟨rfl, rfl, rfl⟩
      · simp at hnil
    obtain ⟨id, hserves⟩ := hcalls hcall
    rw [List.append_nil]
    exact hprotected.ready id hserves

/-- Messages that hold what they held stay bound when the engine changes. -/
theorem kept (hprotected : Protected h past t) (hkeeps : Keeps h t.engine events t'.engine)
    (hsteady : Steady t'.session)
    (hbound : ∀ m ∈ t'.messages, m ∈ t.messages ∨ Bound h t'.engine m) :
    Protected h (past ++ events.map .lifecycle) t' := by
  refine ⟨hkeeps.guarded, ?_, ?_, ?_⟩
  · intro id hserves
    obtain ⟨hcleaned, hready⟩ := hkeeps.covered id hserves
    refine not_spent_append ?_ ?_
    · intro o ho
      obtain ⟨event, hevent, rfl⟩ := List.mem_map.mp ho
      exact Bool.eq_false_iff.mpr (List.countP_eq_zero.mp hcleaned event hevent)
    · rcases hready with ⟨old, hold⟩ | hready
      · exact Or.inl (hprotected.ready old hold)
      · obtain ⟨event, hevent, hgetsReady⟩ := List.countP_pos_iff.mp hready
        exact Or.inr ⟨_, List.mem_map_of_mem hevent, hgetsReady⟩
  · intro m hm
    rcases hbound m hm with hold | hnew
    · refine (hprotected.bound m hold).mono ?_
      rintro id hlease ⟨d, hd, huses⟩
      -- The message still holds its deployment, so that it lives, and with the same flows.
      have hheld : id ∈ t'.session.holds := by
        refine List.mem_append_right _ (List.mem_append_right _ ?_)
        exact List.mem_flatMap.mpr ⟨m, hm, by simp [hlease]⟩
      obtain ⟨d', hd'⟩ := hsteady.sound.accounted.exists_find? hheld
      refine ⟨d', hd', ?_⟩
      rw [hkeeps.lasting id d d' hd hd']
      exact huses
    · exact hnew
  · refine intact_append hprotected.intact ?_
    intro front call back hsplit hcall
    have hmem : call ∈ events.map Occurrence.lifecycle := by
      rw [hsplit]
      exact List.mem_append_right _ List.mem_cons_self
    obtain ⟨event, -, rfl⟩ := List.mem_map.mp hmem
    exact absurd hcall id

theorem step (hbefore : Steady t.session) (hprotected : Protected h past t)
    (hstep : t.Step (Careful h) occurrences t') : Protected h (past ++ occurrences) t' := by
  have hsteady : Steady t'.session := hbefore.traffic hstep
  have hguarded := hprotected.guarded
  cases hstep with
  | operate hcareful hdone =>
    have hkeeps := Keeps.done (s := t.session) hbefore.sound hguarded hcareful hdone
    exact hprotected.kept hkeeps hsteady fun m hm => Or.inl hm
  | keep hlives =>
    exact hprotected.kept (Fades.retain.keeps hguarded) hsteady fun m hm => Or.inl hm
  | letGo _ hrun =>
    exact hprotected.kept (Keeps.release hguarded hrun) hsteady fun m hm => Or.inl hm
  | arrive ctx =>
    rw [List.append_nil]
    refine ⟨hguarded, hprotected.ready, fun m hm => ?_, hprotected.intact⟩
    rcases List.mem_cons.mp hm with rfl | hm
    · rw [dispatch_eq]
      exact Bound.arrived _
    · exact hprotected.bound m hm
  | @proceed front back m m' _ e hsplit hstep =>
    have hm : m ∈ t.messages := by simp [hsplit]
    obtain ⟨hbound, hcalls⟩ :=
      (hprotected.bound m hm).step hbefore.published hguarded.globals hstep
    obtain ⟨q, events, rfl, hkeeps⟩ := hstep.keeps hguarded
    rw [List.append_cons]
    refine (hprotected.asked (hcalls _ List.mem_cons_self)).kept hkeeps hsteady fun m'' hm'' => ?_
    rcases mem_cut_iff.mp hm'' with rfl | hother
    · exact Or.inr hbound
    · exact Or.inl (mem_of_cut hsplit hother)
  | @breakDown front back id rest _ e hsplit hrun =>
    refine hprotected.kept (Keeps.release hguarded hrun) hsteady fun m hm => ?_
    exact Or.inl (mem_of_cut hsplit hm)

end Protected

/-- When the operator is careful with an instance, no message ever calls it after it has cleaned up
and before it gets ready again, whatever else happens in whatever order. -/
theorem intact_of_careful {config : Config} {t : Traffic}
    (hpast : Traffic.History config (Careful h) past t) : Intact h past := by
  have hprotected : Protected h past t := by
    induction hpast with
    | new hnew => exact Protected.new hnew
    | step hpast hstep ih => exact ih.step (Traffic.steady_of_history hpast) hstep
  exact hprotected.intact

/-! ### A message to the vault -/

def vaultMessage : Context := .fresh ⟨1⟩ vaultService.name ⟨"", "open"⟩ .inbound .empty

/-- The message as the engine has stamped it. -/
def vaultRequest : Context := vaultMessage.stamped onePhase.engineId

/-- What the message holds once it has looked its service up. -/
def vaultLease : Lease := ⟨0, [], vaultChains⟩

/-- The engine with the first deployment of the vault, which so many hold. -/
def vaultInUse (holders : Nat) : Engine :=
  vaultEngine [(vaultService.name, 0)] ⟨1, [⟨0, vault [], holders⟩]⟩

theorem found_vault :
    InFlight.Step (vaultInUse 1) ⟨none, dispatch onePhase.engineId vaultMessage⟩
      [.exchange ⟨.lookup vaultService.name, some vaultLease⟩]
      (vaultInUse 2) ⟨some 0, served vaultRequest (some vaultLease)⟩ :=
  @InFlight.Step.found _ vaultRequest.service 0 (vault []) (served vaultRequest) rfl

/-- The message calls the one handler of the vault and lets go of the deployment. -/
theorem served_vault : ∃ next,
    served vaultRequest (some vaultLease) = .ask (.invoke guard vaultRequest) next ∧
      next (.ok .proceed, vaultRequest) =
        .ask (.release 0) fun _ => .done (.ok .completed, vaultRequest) :=
  ⟨_, rfl, rfl⟩

/-- The vault is deployed, and a message looks it up. -/
theorem history_vault {allows : Engine → Operation → Prop}
    (hallowed : allows (vaultEngine [] .empty) (.deploy vaultService)) :
    Traffic.History onePhase allows
      [.lifecycle ⟨.init guard, none⟩, .exchange ⟨.lookup vaultService.name, some vaultLease⟩]
      ⟨vaultInUse 2, [], [⟨some 0, served vaultRequest (some vaultLease)⟩]⟩ := by
  have hnew : Traffic.History onePhase allows [] ⟨vaultEngine [] .empty, [], []⟩ :=
    .new new_onePhase
  have hdeployed := hnew.step (.operate hallowed (.deploy deploy_vault))
  have harrived := hdeployed.step (.arrive vaultMessage)
  have hfound := harrived.step (.proceed (List.nil_append _).symm found_vault)
  exact hfound

/-- The vault is removed while the message runs on it: the handler cleans up after the message. -/
theorem vault_intact : ∃ past t, Traffic.History onePhase (Careful guard) past t ∧
    (∃ o ∈ past, o.Calls guard) ∧ (∃ o ∈ past, o.cleansUp guard = true) ∧ Intact guard past := by
  have hundeployed : Run ((vaultInUse 2).undeploy vaultService.name) []
      (vaultEngine [] ⟨1, [⟨0, vault [], 1⟩]⟩, .ok ()) := Run.done _
  have hreleased : Run ((vaultEngine [] ⟨1, [⟨0, vault [], 1⟩]⟩).release 0)
      [⟨.cleanup guard, ()⟩] (vaultEngine [] ⟨1, []⟩) := Run.ask (Run.done _)
  have hcareful : Careful guard (vaultEngine [] .empty) (.deploy vaultService) :=
    fun _ => ⟨List.mem_cons_self, fun holding hmem => absurd hmem List.not_mem_nil⟩
  have hremoval : Careful guard (vaultInUse 2) (.undeploy vaultService.name) := trivial
  obtain ⟨next, hserved, hlast⟩ := served_vault
  have hpast := (history_vault hcareful).step (.operate hremoval (.undeploy hundeployed))
  rw [hserved] at hpast
  have hcalled := hpast.step (.proceed (List.nil_append _).symm
    (.invoke (.ok .proceed, vaultRequest)))
  rw [hlast] at hcalled
  have hended := hcalled.step (.proceed (List.nil_append _).symm (.release hreleased))
  refine ⟨_, _, hended, ?_, ?_, intact_of_careful hended⟩
  · exact ⟨.exchange ⟨.invoke guard vaultRequest, (.ok .proceed, vaultRequest)⟩, by simp, rfl⟩
  · exact ⟨.lifecycle ⟨.cleanup guard, ()⟩, by simp, rfl⟩

/-- The instance is used by deployments under one name only, and by no global handler. -/
def Confined (h : Handler) (service : QName) (e : Engine) : Operation → Prop
  | .engage _ spec => ¬ (e.namer.describe spec).1.Uses h
  | .deploy spec => (e.namer.describeService spec).1.Uses h → spec.name = service
  | .undeploy _ => True
  | .shutdown => True

/-- It is not enough that an instance is used under one name only.  While a message runs on the
vault, a second deployment carries the handler over; when that one is removed, the handler cleans
up, and only then does the message call it. -/
theorem called_after_cleanup : ¬ ∀ (config : Config) (service : QName) (h : Handler)
    (past : List Occurrence) (t : Traffic),
    Traffic.History config (Confined h service) past t → Intact h past := by
  intro hall
  have hname : ∀ e, Confined guard vaultService.name e (.deploy vaultService) := fun _ _ => rfl
  have hremoval : ∀ e, Confined guard vaultService.name e (.undeploy vaultService.name) :=
    fun _ => trivial
  obtain ⟨next, hserved, -⟩ := served_vault
  have hpast := (history_vault (hname _)).step (.operate (hname _) (.deploy redeploy_vault))
    |>.step (.operate (hremoval _) (.undeploy undeploy_vault))
  rw [hserved] at hpast
  have hcalled := hpast.step (.proceed (List.nil_append _).symm
    (.invoke (.ok .proceed, vaultRequest)))
  refine hall _ _ _ _ _ hcalled _ _ [] rfl rfl ?_
  exact ⟨_, .lifecycle ⟨.cleanup guard, ()⟩, [], rfl, rfl, by simp⟩

end SoapPipeline
