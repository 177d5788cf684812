/-
  SoapPipeline.Proofs.Traffic.Interleaving

  Messages and operations in any order.

  Traffic is an engine with the messages that are on their way through it and the
  deployments that callers hold.  A message asks for one thing at a time, and
  between any two of its questions other messages may ask theirs, the engine may
  be operated, and callers may take hold of deployments and let go of them.

  Main results:
    * `Steady`: what holds of every engine in use, whoever holds its deployments;
    * `Traffic.steady_of_history`: it holds of the engine that carries traffic.
-/
import SoapPipeline.Dispatch
import SoapPipeline.Proofs.Chain.Compensation
import SoapPipeline.Proofs.Engine.PublishedChains

namespace SoapPipeline

open Program

/-! ## Operations -/

/-- What an operator may do to an engine. -/
inductive Operation where
  | engage (flow : Flow) (spec : HandlerSpec)
  | deploy (spec : ServiceSpec)
  | undeploy (service : QName)
  | shutdown

/-- The operation is done, successfully or not, with what handlers are asked meanwhile. -/
inductive Operation.Done (e : Engine) : Operation → List LifecycleEvent → Engine → Prop
  | engage {flow : Flow} {spec : HandlerSpec} {events : List LifecycleEvent} {e' : Engine}
      {result : Except DeployError Descriptor} (h : Run (e.engage flow spec) events (e', result)) :
      Done e (.engage flow spec) events e'
  | deploy {spec : ServiceSpec} {events : List LifecycleEvent} {e' : Engine}
      {result : Except DeployError Nat} (h : Run (e.deploy spec) events (e', result)) :
      Done e (.deploy spec) events e'
  | undeploy {service : QName} {events : List LifecycleEvent} {e' : Engine}
      {result : Except DeployError Unit} (h : Run (e.undeploy service) events (e', result)) :
      Done e (.undeploy service) events e'
  | shutdown {events : List LifecycleEvent} {e' : Engine} (h : Run e.shutdown events e') :
      Done e .shutdown events e'

/-! ## Messages on their way -/

/-- Lets go of a deployment and ends with the result. -/
def settle (id : Nat) (result : Except Fault Outcome × Context) :
    Exchange (Except Fault Outcome × Context) := do
  Exchange.release id
  return result

/-- What a dispatch does once its service has been looked up. -/
def served (ctx : Context) : Option Lease → Exchange (Except Fault Outcome × Context)
  | none => do
    let chains ← Exchange.globalChains
    handleFault chains.fault none (notDeployed ctx.service) ctx
  | some lease => lease.serve ctx >>= settle lease.deployment

theorem dispatch_eq (engineId : String) (ctx : Context) :
    dispatch engineId ctx =
      .ask (.lookup (ctx.stamped engineId).service) (served (ctx.stamped engineId)) := rfl

/-- A message on its way: the deployment that it holds, if any, and what is left of its run. -/
structure InFlight where
  lease : Option Nat
  rest : Exchange (Except Fault Outcome × Context)

/-- Something that handlers or the engine were asked. -/
inductive Occurrence where
  | lifecycle (event : LifecycleEvent)
  | exchange (event : ExchangeEvent)

/-- A message asks for one thing.  Handlers answer as they like, the engine as it is. -/
inductive InFlight.Step (e : Engine) : InFlight → List Occurrence → Engine → InFlight → Prop
  | invoke {lease : Option Nat} {h : Handler} {ctx : Context}
      {next : Except Fault Verdict × Context → Exchange (Except Fault Outcome × Context)}
      (answer : Except Fault Verdict × Context) :
      Step e ⟨lease, .ask (.invoke h ctx) next⟩ [.exchange ⟨.invoke h ctx, answer⟩]
        e ⟨lease, next answer⟩
  | undo {lease : Option Nat} {h : Handler} {ctx : Context}
      {next : Context → Exchange (Except Fault Outcome × Context)} (answer : Context) :
      Step e ⟨lease, .ask (.undo h ctx) next⟩ [.exchange ⟨.undo h ctx, answer⟩]
        e ⟨lease, next answer⟩
  /-- From now on the message holds the deployment that was found. -/
  | found {service : QName} {id : Nat} {d : Deployment}
      {next : Option Lease → Exchange (Except Fault Outcome × Context)}
      (hfound : e.deployed? service = some (id, d)) :
      Step e ⟨none, .ask (.lookup service) next⟩
        [.exchange ⟨.lookup service, some ⟨id, d.operations, d.chains⟩⟩]
        (e.retain id) ⟨some id, next (some ⟨id, d.operations, d.chains⟩)⟩
  | missed {service : QName} {next : Option Lease → Exchange (Except Fault Outcome × Context)}
      (hnone : e.deployed? service = none) :
      Step e ⟨none, .ask (.lookup service) next⟩ [.exchange ⟨.lookup service, none⟩]
        e ⟨none, next none⟩
  | globalChains {lease : Option Nat}
      {next : Chains → Exchange (Except Fault Outcome × Context)} :
      Step e ⟨lease, .ask .globalChains next⟩ [.exchange ⟨.globalChains, e.globalChains⟩]
        e ⟨lease, next e.globalChains⟩
  | release {id : Nat} {next : Unit → Exchange (Except Fault Outcome × Context)}
      {events : List LifecycleEvent} {e' : Engine} (hrun : Run (e.release id) events e') :
      Step e ⟨some id, .ask (.release id) next⟩
        (.exchange ⟨.release id, ()⟩ :: events.map .lifecycle) e' ⟨none, next ()⟩
  | freshId {lease : Option Nat}
      {next : MessageId → Exchange (Except Fault Outcome × Context)} (answer : MessageId) :
      Step e ⟨lease, .ask .freshId next⟩ [.exchange ⟨.freshId, answer⟩] e ⟨lease, next answer⟩

/-! ## Traffic -/

/-- An engine with those who use it. -/
structure Traffic where
  engine : Engine
  /-- The deployments that callers hold, once for each holder. -/
  kept : List Nat
  messages : List InFlight

namespace Traffic

/-- One thing happens: what an operator does must be allowed at the time. -/
inductive Step (allows : Engine → Operation → Prop) : Traffic → List Occurrence → Traffic → Prop
  | operate {t : Traffic} {op : Operation} {events : List LifecycleEvent} {e : Engine}
      (hallowed : allows t.engine op) (hdone : op.Done t.engine events e) :
      Step allows t (events.map .lifecycle) { t with engine := e }
  /-- A caller takes hold of a deployment that lives. -/
  | keep {t : Traffic} {id : Nat} {d : Deployment}
      (hlives : t.engine.deployments.find? id = some d) :
      Step allows t [] ⟨t.engine.retain id, id :: t.kept, t.messages⟩
  /-- A caller lets go of a deployment. -/
  | letGo {t : Traffic} {id : Nat} {events : List LifecycleEvent} {e : Engine}
      (hkept : id ∈ t.kept) (hrun : Run (t.engine.release id) events e) :
      Step allows t (events.map .lifecycle) ⟨e, t.kept.erase id, t.messages⟩
  /-- A message comes to be dispatched. -/
  | arrive {t : Traffic} (ctx : Context) :
      Step allows t []
        { t with messages := ⟨none, dispatch t.engine.config.engineId ctx⟩ :: t.messages }
  | proceed {t : Traffic} {front back : List InFlight} {m m' : InFlight}
      {occurrences : List Occurrence} {e : Engine} (hsplit : t.messages = front ++ m :: back)
      (hstep : m.Step t.engine occurrences e m') :
      Step allows t occurrences ⟨e, t.kept, front ++ m' :: back⟩
  /-- A message breaks down and lets go of what it holds. -/
  | breakDown {t : Traffic} {front back : List InFlight} {id : Nat}
      {rest : Exchange (Except Fault Outcome × Context)} {events : List LifecycleEvent} {e : Engine}
      (hsplit : t.messages = front ++ ⟨some id, rest⟩ :: back)
      (hrun : Run (t.engine.release id) events e) :
      Step allows t (events.map .lifecycle) ⟨e, t.kept, front ++ back⟩

/-- What can have happened in the traffic over a new engine. -/
inductive History (config : Config) (allows : Engine → Operation → Prop) :
    List Occurrence → Traffic → Prop
  | new {e : Engine} (h : Engine.new config = .ok e) : History config allows [] ⟨e, [], []⟩
  | step {past occurrences : List Occurrence} {t t' : Traffic} (h : History config allows past t)
      (hstep : t.Step allows occurrences t') : History config allows (past ++ occurrences) t'

/-- The deployments that messages hold, once for each of them. -/
def leases (messages : List InFlight) : List Nat := messages.flatMap fun m => m.lease.toList

/-- The engine as one in use: callers and messages hold its deployments. -/
def session (t : Traffic) : Session := ⟨t.engine, t.kept ++ leases t.messages⟩

theorem perm_leases (front back : List InFlight) (m : InFlight) :
    (leases (front ++ m :: back)).Perm (m.lease.toList ++ leases (front ++ back)) := by
  unfold leases
  rw [List.flatMap_append, List.flatMap_append, List.flatMap_cons]
  exact List.perm_append_comm_assoc _ _ _

end Traffic

/-! ## Engines in use -/

/-- What holds of every engine in use. -/
structure Steady (s : Session) : Prop where
  sound : Sound s
  published : Published s.engine

namespace Steady

variable {s s' : Session} {e e' : Engine} {held held' : List Nat}

theorem step {events : List LifecycleEvent} (h : Steady s) (hstep : s.Step events s') :
    Steady s' :=
  ⟨h.sound.step hstep, h.published.step h.sound hstep⟩

/-- In which order deployments are held does not matter. -/
theorem perm (h : Steady ⟨e, held⟩) (hperm : held.Perm held') : Steady ⟨e, held'⟩ :=
  ⟨⟨h.sound.names, h.sound.items, h.sound.accounted.perm (hperm.append_left _)⟩, h.published⟩

theorem new {config : Config} (hnew : Engine.new config = .ok e) : Steady ⟨e, []⟩ := by
  have hpast := History.new hnew
  exact ⟨sound_of_history hpast, Published.of_history hpast⟩

theorem done {op : Operation} {events : List LifecycleEvent} (h : Steady ⟨e, held⟩)
    (hdone : op.Done e events e') : Steady ⟨e', held⟩ := by
  cases hdone with
  | engage hrun => exact h.step (Session.Step.engage hrun)
  | deploy hrun => exact h.step (Session.Step.deploy hrun)
  | undeploy hrun => exact h.step (Session.Step.undeploy hrun)
  | shutdown hrun => exact h.step (Session.Step.shutdown hrun)

theorem retain {id : Nat} {d : Deployment} (h : Steady ⟨e, held⟩)
    (hlives : e.deployments.find? id = some d) : Steady ⟨e.retain id, id :: held⟩ :=
  h.step (Session.Step.hold hlives)

theorem release {id : Nat} {events : List LifecycleEvent} (h : Steady ⟨e, id :: held⟩)
    (hrun : Run (e.release id) events e') : Steady ⟨e', held⟩ := by
  have hreleased := h.step (Session.Step.letGo List.mem_cons_self hrun)
  rwa [List.erase_cons_head] at hreleased

/-- What a message does changes its own hold and no other. -/
theorem inFlight {m m' : InFlight} {occurrences : List Occurrence}
    (h : Steady ⟨e, m.lease.toList ++ held⟩) (hstep : m.Step e occurrences e' m') :
    Steady ⟨e', m'.lease.toList ++ held⟩ := by
  cases hstep with
  | invoke => exact h
  | undo => exact h
  | @found service id d _ hfound =>
    exact h.retain (Engine.deployed?_eq_some_iff.mp hfound).2
  | missed => exact h
  | globalChains => exact h
  | release hrun => exact h.release hrun
  | freshId => exact h

/-- Whatever happens in the traffic keeps the engine steady. -/
theorem traffic {allows : Engine → Operation → Prop} {t t' : Traffic}
    {occurrences : List Occurrence} (h : Steady t.session)
    (hstep : t.Step allows occurrences t') : Steady t'.session := by
  cases hstep with
  | operate _ hdone => exact h.done hdone
  | keep hlives => exact h.retain hlives
  | letGo hkept hrun =>
    have hperm := (List.perm_cons_erase hkept).append_right (Traffic.leases t.messages)
    exact (h.perm hperm).release hrun
  | arrive => exact h
  | @proceed front back m m' _ e hsplit hstep =>
    have hbefore :
        Steady ⟨t.engine, m.lease.toList ++ (t.kept ++ Traffic.leases (front ++ back))⟩ := by
      refine h.perm ?_
      rw [hsplit]
      exact ((Traffic.perm_leases front back m).append_left _).trans
        (List.perm_append_comm_assoc _ _ _)
    refine (hbefore.inFlight hstep).perm ?_
    exact (List.perm_append_comm_assoc _ _ _).trans
      ((Traffic.perm_leases front back m').symm.append_left _)
  | @breakDown front back id rest _ e hsplit hrun =>
    have hbefore : Steady ⟨t.engine, id :: (t.kept ++ Traffic.leases (front ++ back))⟩ := by
      refine h.perm ?_
      rw [hsplit]
      exact ((Traffic.perm_leases front back _).append_left _).trans List.perm_middle
    exact hbefore.release hrun

end Steady

theorem Traffic.steady_of_history {config : Config} {allows : Engine → Operation → Prop}
    {past : List Occurrence} {t : Traffic} (h : Traffic.History config allows past t) :
    Steady t.session := by
  induction h with
  | new hnew => exact Steady.new hnew
  | step _ hstep ih => exact ih.traffic hstep

end SoapPipeline
