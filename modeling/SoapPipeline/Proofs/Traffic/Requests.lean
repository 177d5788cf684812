/-
  SoapPipeline.Proofs.Traffic.Requests

  A request and its response on one deployment.

  A request is received in two dispatches, one for each direction, and each of them looks
  its service up for itself.  In between handlers run and others may operate the engine, so
  that the second lookup may find another deployment than the first one, or none.

  What receiving a request should come to is handling it on one deployment: both directions
  run on what was looked up at first, and the engine is asked for nothing else.  That is what
  it does come to as long as nobody touches the service until the second lookup, whatever
  else is done to the engine; and not otherwise.

  Main results:
    * `Stands.spared`: what leaves a service alone, whatever else it changes;
    * `Stands.timeline`: every lookup of such a service finds the same;
    * `run_handle_of_receive`: two dispatches that looked up the same handle the request on
      that deployment;
    * `received_on_one_deployment`: so does a request whose service is left alone;
    * `vanished_midway`: one whose service is removed while it runs is answered by a fault.
-/
import SoapPipeline.Proofs.Traffic.Snapshot

namespace SoapPipeline

open Program Relation

/-! ## Requests on one deployment -/

/-- Handles a request on one deployment: the inbound chain, and if that leaves a response, the
outbound chain of the same deployment on the message that carries it back. -/
def Lease.handle (lease : Lease) (engineId : String) (request : Context) :
    Exchange (Except Fault Report) := do
  match ← lease.serve (Context.stamped { request with flow := .inbound } engineId) with
  | (.error fault, _) => return .error fault
  | (.ok outcome, request) =>
    match request.response with
    | none => return .ok ⟨request, outcome, none⟩
    | some body =>
      let request := { request with response := none }
      let id ← Exchange.freshId
      match ← lease.serve ((request.respond id body).stamped engineId) with
      | (.error fault, _) => return .error fault
      | (.ok _, response) => return .ok ⟨request, outcome, some response⟩

/-- What is looked up of a deployment with this id. -/
def Deployment.lease (d : Deployment) (id : Nat) : Lease := ⟨id, d.operations, d.chains⟩

/-! ## Engines that answer -/

/-- An engine in use is asked one thing by a message; handlers answer as they like.  When a
deployment is looked up, the message takes hold of it first and reads its chains after that, and
others may act in between. -/
inductive Answers (others : Session → Session → Prop) (s : Session) :
    ExchangeEvent → Session → Prop
  | invoke {h : Handler} {ctx : Context} (answer : Except Fault Verdict × Context) :
      Answers others s ⟨.invoke h ctx, answer⟩ s
  | undo {h : Handler} {ctx : Context} (answer : Context) :
      Answers others s ⟨.undo h ctx, answer⟩ s
  | found {service : QName} {id : Nat} {d d' : Deployment} {s' : Session}
      (hfound : s.engine.deployed? service = some (id, d))
      (hothers : ReflTransGen others ⟨s.engine.retain id, id :: s.held⟩ s')
      (hchains : s'.engine.deployments.find? id = some d') :
      Answers others s ⟨.lookup service, some ⟨id, d.operations, d'.chains⟩⟩ s'
  | missed {service : QName} (hnone : s.engine.deployed? service = none) :
      Answers others s ⟨.lookup service, none⟩ s
  | globalChains : Answers others s ⟨.globalChains, s.engine.globalChains⟩ s
  | release {id : Nat} {events : List LifecycleEvent} {e : Engine} (hheld : id ∈ s.held)
      (hrun : Run (s.engine.release id) events e) :
      Answers others s ⟨.release id, ()⟩ ⟨e, s.held.erase id⟩
  | freshId (answer : MessageId) : Answers others s ⟨.freshId, answer⟩ s

/-- An engine in use is asked these things, one after the other, and others act in between.  What a
handler does to the engine while it is called counts as done ahead of the call or after it. -/
inductive Timeline (others : Session → Session → Prop) :
    Session → List ExchangeEvent → Session → Prop
  | here (s : Session) : Timeline others s [] s
  | meanwhile {s s₁ s' : Session} {events : List ExchangeEvent} (hothers : others s s₁)
      (h : Timeline others s₁ events s') : Timeline others s events s'
  | answers {s s₁ s' : Session} {event : ExchangeEvent} {events : List ExchangeEvent}
      (hanswers : Answers others s event s₁) (h : Timeline others s₁ events s') :
      Timeline others s (event :: events) s'

/-- Somebody does something to the engine. -/
def Anybody (s s' : Session) : Prop := ∃ events, s.Step events s'

/-- Somebody does something to the engine that leaves a service alone: an operation fails that
would have changed its chains, or is about another service. -/
inductive Spares (service : QName) (s : Session) : Session → Prop
  | engage {flow : Flow} {spec : HandlerSpec} {events : List LifecycleEvent} {e : Engine}
      {error : DeployError} (h : Run (s.engine.engage flow spec) events (e, .error error)) :
      Spares service s ⟨e, s.held⟩
  | deploy {spec : ServiceSpec} {events : List LifecycleEvent} {e : Engine}
      {result : Except DeployError Nat} (hother : ∀ id, result = .ok id → spec.name ≠ service)
      (h : Run (s.engine.deploy spec) events (e, result)) : Spares service s ⟨e, s.held⟩
  | undeploy {name : QName} {events : List LifecycleEvent} {e : Engine}
      {result : Except DeployError Unit} (hother : name ≠ service)
      (h : Run (s.engine.undeploy name) events (e, result)) : Spares service s ⟨e, s.held⟩
  | hold {id : Nat} {d : Deployment} (hlives : s.engine.deployments.find? id = some d) :
      Spares service s ⟨s.engine.retain id, id :: s.held⟩
  | letGo {id : Nat} {events : List LifecycleEvent} {e : Engine} (hheld : id ∈ s.held)
      (h : Run (s.engine.release id) events e) : Spares service s ⟨e, s.held.erase id⟩

/-! ## Deployments that stay -/

/-- The deployment stands under the name in a sound engine. -/
structure Stands (service : QName) (id : Nat) (d : Deployment) (s : Session) : Prop where
  sound : Sound s
  registered : s.engine.registry.get? service = some id
  lives : s.engine.deployments.find? id = some d

namespace Stands

open Engine Deployments

variable {service : QName} {id : Nat} {d : Deployment} {s s' : Session} {e : Engine}
  {events : List LifecycleEvent}

theorem of_deployed? (hsound : Sound s) (h : s.engine.deployed? service = some (id, d)) :
    Stands service id d s := by
  obtain ⟨hregistered, hlives⟩ := Engine.deployed?_eq_some_iff.mp h
  exact ⟨hsound, hregistered, hlives⟩

theorem deployed? (h : Stands service id d s) : s.engine.deployed? service = some (id, d) :=
  Engine.deployed?_eq_some_iff.mpr ⟨h.registered, h.lives⟩

/-- Another name stands for another deployment. -/
theorem ne_of_get? {other : QName} {id' : Nat} (h : Stands service id d s)
    (hother : other ≠ service) (hget : s.engine.registry.get? other = some id') : id' ≠ id := by
  rintro rfl
  have hentry := List.inj_on_of_nodup_map h.sound.items (Registry.mem_entries_of_get? hget)
    (Registry.mem_entries_of_get? h.registered) rfl
  exact hother (Prod.mk.inj hentry).1

/-- Names that are given have no part in this. -/
theorem named {namer : Namer} (h : Stands service id d s) :
    Stands service id d ⟨{ s.engine with namer }, s.held⟩ :=
  ⟨h.sound.congr rfl rfl, h.registered, h.lives⟩

/-- Installing a deployment under another name leaves this one alone. -/
theorem installed {new : Deployment} {newId : Nat} (h : Stands service id d s)
    (hother : new.service ≠ service)
    (hinstalled : Installed s.engine new (s.engine.deployed? new.service) events e newId) :
    Stands service id d ⟨e, s.held⟩ := by
  -- The replaced deployment is let go of, and the registry still holds this one.
  have haccounted := h.sound.accounted_add new (s.engine.deployed? new.service)
  -- What is handed over comes from the deployment under the other name.
  have hhanded : (s.engine.handed (s.engine.deployed? new.service) new.flows).find? id =
      some d := by
    rcases h.sound.deployed?_cases new.service with ⟨-, hnone⟩ | ⟨old, replaced, hold, -, hsome⟩
    · rw [hnone]
      exact h.lives
    · rw [hsome]
      show (s.engine.deployments.modify old _).find? id = some d
      rw [find?_modify_of_ne _ (h.ne_of_get? hother hold).symm]
      exact h.lives
  have hadded := find?_add_of_some (d := new) hhanded
  have hregistered : (s.engine.registry.insert new.service
      ((s.engine.handed (s.engine.deployed? new.service) new.flows).add new).1).2.get? service =
        some id := by
    rw [Registry.get?_insert, if_neg hother.symm]
    exact h.registered
  refine ⟨h.sound.installed hinstalled, ?_, ?_⟩
  · cases hinstalled <;> exact hregistered
  · cases hinstalled with
    | added => exact hadded
    | replaced hold =>
      rw [hold] at haccounted
      have hheld := List.mem_append_left s.held (Registry.mem_items_of_get? hregistered)
      show (Deployments.release _ _).2.find? id = some d
      rw [haccounted.find?_release_head hheld]
      exact hadded

/-- Taking another name out of the registry leaves this one alone. -/
theorem removed {name : QName} (h : Stands service id d s) (hother : name ≠ service)
    (hremoved : Removed s.engine name events e) : Stands service id d ⟨e, s.held⟩ := by
  have haccounted := h.sound.accounted_remove name
  have hregistered : (s.engine.registry.remove name).2.get? service = some id := by
    rw [Registry.get?_remove, if_neg hother.symm]
    exact h.registered
  refine ⟨h.sound.removed hremoved, ?_, ?_⟩
  · cases hremoved <;> exact hregistered
  · cases hremoved with
    | absent => exact h.lives
    | removed hget =>
      rw [hget] at haccounted
      have hheld := List.mem_append_left s.held (Registry.mem_items_of_get? hregistered)
      show (s.engine.deployments.release _).2.find? id = some d
      rw [haccounted.find?_release_head hheld]
      exact h.lives

theorem hold {id' : Nat} {d' : Deployment} (h : Stands service id d s)
    (hlives : s.engine.deployments.find? id' = some d') :
    Stands service id d ⟨s.engine.retain id', id' :: s.held⟩ := by
  refine ⟨h.sound.hold hlives, h.registered, ?_⟩
  show (s.engine.deployments.retain id').find? id = some d
  rw [find?_retain]
  exact h.lives

/-- The registry holds the deployment, whoever lets go of it. -/
theorem letGo {id' : Nat} (h : Stands service id d s) (hheld : id' ∈ s.held)
    (hrun : Run (s.engine.release id') events e) : Stands service id d ⟨e, s.held.erase id'⟩ := by
  have hsound := h.sound.letGo hheld hrun
  obtain ⟨-, rfl⟩ := eq_of_release hrun
  refine ⟨hsound, h.registered, ?_⟩
  have haccounted := h.sound.accounted.perm (Session.perm_holds hheld)
  have hmem := List.mem_append_left (s.held.erase id') (Registry.mem_items_of_get? h.registered)
  show (s.engine.deployments.release id').2.find? id = some d
  rw [haccounted.find?_release_head hmem]
  exact h.lives

/-- Nothing that spares a service moves its deployment. -/
theorem spared (h : Stands service id d s) (hspares : Spares service s s') :
    Stands service id d s' := by
  cases hspares with
  | engage hrun =>
    cases engaged_of_engage hrun with
    | refused => exact h.named
    | notReady => exact h.named
  | deploy hother hrun =>
    cases deployed_of_deploy hrun with
    | refused => exact h.named
    | notReady => exact h.named
    | @deployed flows namer _ _ _ _ _ _ _ _ hinstalled =>
      have hnamed : Stands service id d ⟨{ s.engine with namer }, s.held⟩ := h.named
      exact hnamed.installed (hother _ rfl) hinstalled
  | undeploy hother hrun =>
    cases undeployed_of_undeploy hrun with
    | notDeployed => exact h
    | undeployed _ hremoved => exact h.removed hother hremoved
  | hold hlives => exact h.hold hlives
  | letGo hheld hrun => exact h.letGo hheld hrun

theorem spared_all (h : Stands service id d s) (hspares : ReflTransGen (Spares service) s s') :
    Stands service id d s' := by
  induction hspares with
  | refl => exact h
  | tail _ hstep ih => exact ih.spared hstep

/-- The message itself moves no deployment, and a lookup finds this one. -/
theorem answers {event : ExchangeEvent} (h : Stands service id d s)
    (hanswers : Answers (Spares service) s event s') :
    Stands service id d s' ∧
      ∀ answer, event = ⟨.lookup service, answer⟩ → answer = some (d.lease id) := by
  cases hanswers with
  | invoke | undo | globalChains | freshId => exact ⟨h, fun _ heq => nomatch heq⟩
  | @found other id' d₁ d₂ _ hfound hothers hchains =>
    have hstands := (h.hold (Engine.deployed?_eq_some_iff.mp hfound).2).spared_all hothers
    refine ⟨hstands, fun answer heq => ?_⟩
    obtain ⟨hquestion, hanswer⟩ := Event.mk.inj heq
    obtain rfl : other = service := Exchange.Question.lookup.inj hquestion
    obtain ⟨rfl, rfl⟩ := Prod.mk.inj (Option.some.inj (hfound.symm.trans h.deployed?))
    obtain rfl := Option.some.inj (hchains.symm.trans hstands.lives)
    exact (eq_of_heq hanswer).symm
  | @missed other hnone =>
    refine ⟨h, fun answer heq => ?_⟩
    obtain ⟨hquestion, -⟩ := Event.mk.inj heq
    obtain rfl : other = service := Exchange.Question.lookup.inj hquestion
    rw [h.deployed?] at hnone
    cases hnone
  | release hheld hrun => exact ⟨h.letGo hheld hrun, fun _ heq => nomatch heq⟩

/-- While others leave a service alone, every lookup of it finds the same. -/
theorem timeline {events : List ExchangeEvent} (h : Stands service id d s)
    (htimeline : Timeline (Spares service) s events s') :
    ∀ answer, ⟨.lookup service, answer⟩ ∈ events → answer = some (d.lease id) := by
  induction htimeline with
  | here => exact fun _ hmem => absurd hmem List.not_mem_nil
  | meanwhile hothers _ ih => exact ih (h.spared hothers)
  | answers hanswers _ ih =>
    obtain ⟨hstands, hlookup⟩ := h.answers hanswers
    intro answer hmem
    rcases List.mem_cons.mp hmem with heq | hmem
    · exact hlookup answer heq.symm
    · exact ih hstands answer hmem

end Stands

/-! ## What is asked of others than the engine -/

/-- The engine is asked for a deployment or for chains, or lets go. -/
def Exchange.Question.toEngine : Exchange.Question → Bool
  | .lookup _ => true
  | .globalChains => true
  | .release _ => true
  | .invoke _ _ => false
  | .undo _ _ => false
  | .freshId => false

/-- What is asked of others than the engine. -/
def apart (events : List ExchangeEvent) : List ExchangeEvent :=
  events.filter fun event => !event.question.toEngine

section Apart

variable {α : Type} {events front back : List ExchangeEvent} {engineId : String}
  {ctx request : Context} {lease : Lease}

theorem apart_append : apart (front ++ back) = apart front ++ apart back :=
  List.filter_append ..

/-- A program that calls handlers asks the engine for nothing. -/
theorem apart_of_callsOnly {may : Handler → Prop} {post : α → Prop} {p : Exchange α} {a : α}
    (hp : CallsOnly may post p) (hrun : Run p events a) : apart events = events := by
  induction hp generalizing events with
  | done =>
    obtain ⟨rfl, -⟩ := Run.pure_iff.mp hrun
    rfl
  | @invoke h ctx next _ _ ih =>
    obtain ⟨answer, rest, rfl, hrest⟩ := Run.ask_iff.mp hrun
    show ⟨.invoke h ctx, answer⟩ :: apart rest = _
    rw [ih answer hrest]
  | @undo h ctx next _ _ ih =>
    obtain ⟨answer, rest, rfl, hrest⟩ := Run.ask_iff.mp hrun
    show ⟨.undo h ctx, answer⟩ :: apart rest = _
    rw [ih answer hrest]

/-- A dispatch that finds a deployment serves the message on it. -/
theorem run_serve_of_dispatch {answer : Except Fault Outcome × Context}
    (hrun : Run (dispatch engineId ctx) events answer)
    (hfinds : ∀ service found, ⟨.lookup service, found⟩ ∈ events → found = some lease) :
    Run (lease.serve (ctx.stamped engineId)) (apart events) answer := by
  rw [dispatch_eq] at hrun
  obtain ⟨found, rest, rfl, hserved⟩ := Run.ask_iff.mp hrun
  obtain rfl := hfinds _ _ List.mem_cons_self
  obtain ⟨calls, served, settled, rfl, hserve, hsettle⟩ := Run.bind_iff.mp hserved
  obtain ⟨_, rest, rfl, hdone⟩ := Run.question_bind_iff.mp hsettle
  obtain ⟨rfl, rfl⟩ := Run.pure_iff.mp hdone
  have hcalls := apart_of_callsOnly (Snapshot.callsOnly_serve_any lease _) hserve
  show Run _ (apart (calls ++ [⟨.release lease.deployment, _⟩])) _
  rw [apart_append, hcalls]
  show Run _ (calls ++ []) _
  rw [List.append_nil]
  exact hserve

/-- A request whose two dispatches find one deployment is handled on it. -/
theorem run_handle_of_receive {result : Except Fault Report}
    (hrun : Run (receive engineId request) events result)
    (hfinds : ∀ service found, ⟨.lookup service, found⟩ ∈ events → found = some lease) :
    Run (lease.handle engineId request) (apart events) result := by
  -- Each dispatch in turn is opened and serves the message on the deployment; what is between
  -- them is the same on both sides.
  obtain ⟨inbound, ⟨outcome, left⟩, rest, rfl, hinbound, hrest⟩ := Run.bind_iff.mp hrun
  have hserved := run_serve_of_dispatch hinbound fun service found hmem =>
    hfinds service found (List.mem_append_left _ hmem)
  rw [apart_append]
  refine Run.bind_iff.mpr ⟨_, _, _, rfl, hserved, ?_⟩
  cases outcome with
  | error fault =>
    obtain ⟨rfl, rfl⟩ := Run.pure_iff.mp hrest
    exact Run.done _
  | ok outcome =>
    dsimp only at hrest ⊢
    cases hresponse : left.response with
    | none =>
      rw [hresponse] at hrest
      obtain ⟨rfl, rfl⟩ := Run.pure_iff.mp hrest
      exact Run.done _
    | some body =>
      rw [hresponse] at hrest
      obtain ⟨id, answered, rfl, hanswered⟩ := Run.question_bind_iff.mp hrest
      obtain ⟨outbound, ⟨outcome', response⟩, ending, rfl, houtbound, hdone⟩ :=
        Run.bind_iff.mp hanswered
      have hserved := run_serve_of_dispatch houtbound fun service found hmem =>
        hfinds service found (List.mem_append_right _
          (List.mem_cons_of_mem _ (List.mem_append_left _ hmem)))
      show Run _ (⟨Exchange.Question.freshId, id⟩ :: apart (outbound ++ ending)) _
      rw [apart_append]
      refine Run.question_bind_iff.mpr ⟨id, _, rfl, ?_⟩
      refine Run.bind_iff.mpr ⟨_, _, _, rfl, hserved, ?_⟩
      cases outcome' with
      | error fault =>
        obtain ⟨rfl, rfl⟩ := Run.pure_iff.mp hdone
        exact Run.done _
      | ok outcome' =>
        obtain ⟨rfl, rfl⟩ := Run.pure_iff.mp hdone
        exact Run.done _

end Apart

/-- A request whose service is deployed is handled on that deployment, both ways, if until the
last lookup others leave the service alone and the message keeps its name.  What they do to the
engine apart from that, and after that, makes no difference. -/
theorem received_on_one_deployment {config : Config} {past : List LifecycleEvent} {s s' : Session}
    {engineId : String} {request : Context} {id : Nat} {d : Deployment}
    {front back : List ExchangeEvent} {result : Except Fault Report}
    (hpast : History config past s)
    (hdeployed : s.engine.deployed? request.service = some (id, d))
    (hrun : Run (receive engineId request) (front ++ back) result)
    (hspared : Timeline (Spares request.service) s front s')
    (hname : ∀ service found, ⟨.lookup service, found⟩ ∈ front → service = request.service)
    (hlast : ∀ service found, ⟨.lookup service, found⟩ ∉ back) :
    Run ((d.lease id).handle engineId request) (apart (front ++ back)) result := by
  have hstands := Stands.of_deployed? (sound_of_history hpast) hdeployed
  refine run_handle_of_receive hrun fun service found hmem => ?_
  rcases List.mem_append.mp hmem with hfront | hback
  · obtain rfl := hname service found hfront
    exact hstands.timeline hspared found hfront
  · exact absurd hback (hlast service found)

/-! ### A request to the vault -/

/-- The request as the handler of the vault leaves it, with a response. -/
def vaultAnswered : Context := { vaultRequest with response := some .empty }

/-- The message that carries the response back. -/
def vaultResponse : Context := vaultRequest.respond ⟨2⟩ .empty

/-- What the request comes to on the deployment that it finds first. -/
def vaultReport : Report := ⟨vaultRequest, .completed, some vaultResponse⟩

/-- What is asked from the lookup of the request to that of the response. -/
def vaultHalfway : List ExchangeEvent :=
  [⟨.invoke guard vaultRequest, (.ok .proceed, vaultAnswered)⟩, ⟨.release 0, ()⟩, ⟨.freshId, ⟨2⟩⟩]

/-- The engine with the vault, which nobody but the registry holds. -/
theorem history_vaultInUse : History onePhase [⟨.init guard, none⟩] ⟨vaultInUse 1, []⟩ :=
  (History.new new_onePhase).step (.deploy deploy_vault)

theorem receive_vault :
    Run (receive onePhase.engineId vaultMessage)
      (⟨.lookup vaultService.name, some vaultLease⟩ :: vaultHalfway ++
        [⟨.lookup vaultService.name, some vaultLease⟩, ⟨.release 0, ()⟩]) (.ok vaultReport) :=
  Run.ask (Run.ask (Run.ask (Run.ask (Run.ask (Run.ask (Run.done _))))))

theorem receive_vanished :
    Run (receive onePhase.engineId vaultMessage)
      (⟨.lookup vaultService.name, some vaultLease⟩ :: vaultHalfway ++
        [⟨.lookup vaultService.name, none⟩, ⟨.globalChains, emptyChains .engine⟩])
      (.error (notDeployed vaultService.name)) :=
  Run.ask (Run.ask (Run.ask (Run.ask (Run.ask (Run.ask (Run.done _))))))

/-- While a request runs on the vault, somebody tries to remove a service that is not there.
Request and response are handled on the vault. -/
theorem vault_received : Run (vaultLease.handle onePhase.engineId vaultMessage)
    [⟨.invoke guard vaultRequest, (.ok .proceed, vaultAnswered)⟩, ⟨.freshId, ⟨2⟩⟩]
    (.ok vaultReport) := by
  let events : List ExchangeEvent := ⟨.lookup vaultService.name, some vaultLease⟩ :: vaultHalfway ++
    [⟨.lookup vaultService.name, some vaultLease⟩, ⟨.release 0, ()⟩]
  have hfound : Answers (Spares vaultService.name) ⟨vaultInUse 1, []⟩
      ⟨.lookup vaultService.name, some vaultLease⟩ ⟨vaultInUse 2, [0]⟩ :=
    @Answers.found _ _ vaultService.name 0 (vault []) (vault []) _ rfl .refl rfl
  have hreleased : Answers (Spares vaultService.name) ⟨vaultInUse 2, [0]⟩ ⟨.release 0, ()⟩
      ⟨vaultInUse 1, []⟩ := .release List.mem_cons_self (Run.done _)
  have habsent : Run ((vaultInUse 2).undeploy ⟨"", "archive"⟩) []
      (vaultInUse 2, .error (.notDeployed ⟨"", "archive"⟩)) := Run.done _
  have hspared : Spares vaultService.name ⟨vaultInUse 2, [0]⟩ ⟨vaultInUse 2, [0]⟩ :=
    .undeploy (by decide) habsent
  have htimeline : Timeline (Spares vaultService.name) ⟨vaultInUse 1, []⟩ events
      ⟨vaultInUse 1, []⟩ :=
    .answers hfound (.meanwhile hspared (.answers (.invoke _) (.answers hreleased
      (.answers (.freshId _) (.answers hfound (.answers hreleased (.here _)))))))
  have hname : ∀ service found, ⟨.lookup service, found⟩ ∈ events →
      service = vaultMessage.service := by
    intro service found hmem
    simp only [events, vaultHalfway, List.cons_append, List.nil_append, List.mem_cons,
      List.not_mem_nil, or_false] at hmem
    rcases hmem with h | h | h | h | h | h <;> cases h <;> rfl
  have hrun : Run (receive onePhase.engineId vaultMessage) (events ++ []) (.ok vaultReport) :=
    receive_vault
  exact received_on_one_deployment history_vaultInUse (d := vault []) rfl hrun htimeline hname
    fun _ _ => List.not_mem_nil

/-- The vault is removed while the handler of the request runs.  The handler leaves a response,
which finds the vault gone and ends in a fault instead of the report. -/
theorem vanished_midway : ¬ ∀ (config : Config) (past : List LifecycleEvent) (s s' : Session)
    (request : Context) (id : Nat) (d : Deployment) (events : List ExchangeEvent)
    (result : Except Fault Report), History config past s →
    s.engine.deployed? request.service = some (id, d) →
    Run (receive config.engineId request)
      (⟨.lookup request.service, some (d.lease id)⟩ :: events) result →
    Timeline Anybody ⟨s.engine.retain id, id :: s.held⟩ events s' →
    Run ((d.lease id).handle config.engineId request) (apart events) result := by
  intro hall
  have hundeployed : Run ((vaultInUse 2).undeploy vaultService.name) []
      (vaultEngine [] ⟨1, [⟨0, vault [], 1⟩]⟩, .ok ()) := Run.done _
  have hcleaned : Run ((vaultEngine [] ⟨1, [⟨0, vault [], 1⟩]⟩).release 0)
      [⟨.cleanup guard, ()⟩] (vaultEngine [] ⟨1, []⟩) := Run.ask (Run.done _)
  have hreleased : Answers Anybody ⟨vaultEngine [] ⟨1, [⟨0, vault [], 1⟩]⟩, [0]⟩ ⟨.release 0, ()⟩
      ⟨vaultEngine [] ⟨1, []⟩, []⟩ := .release List.mem_cons_self hcleaned
  have htimeline : Timeline Anybody ⟨vaultInUse 2, [0]⟩
      (vaultHalfway ++
        [⟨.lookup vaultService.name, none⟩, ⟨.globalChains, emptyChains .engine⟩])
      ⟨vaultEngine [] ⟨1, []⟩, []⟩ :=
    .meanwhile ⟨_, .undeploy hundeployed⟩ (.answers (.invoke _) (.answers hreleased
      (.answers (.freshId _) (.answers (.missed rfl) (.answers .globalChains (.here _))))))
  have hhandled := hall onePhase _ _ _ vaultMessage 0 (vault []) _ _ history_vaultInUse rfl
    receive_vanished htimeline
  have hreported : Run (vaultLease.handle onePhase.engineId vaultMessage)
      [⟨.invoke guard vaultRequest, (.ok .proceed, vaultAnswered)⟩, ⟨.freshId, ⟨2⟩⟩]
      (.ok vaultReport) := Run.ask (Run.ask (Run.done _))
  -- Handling it on the vault would have asked the same and ended with the report.
  obtain ⟨-, hsame⟩ := hhandled.unique_of_append hreported (congrArg (· ++ []) rfl)
  cases hsame

end SoapPipeline
