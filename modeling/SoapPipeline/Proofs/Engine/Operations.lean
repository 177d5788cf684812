/-
  SoapPipeline.Proofs.Engine.Operations

  What each operation of the engine can do.

  One relation for every operation says how it may end: what is asked of
  handlers on the way and which engine is left.  The relations are derived from
  the programs once, here, and whatever is proved of the engine afterwards goes
  through them.

  Main results:
    * `readied_of_initAll`: all handlers get ready or none stays so;
    * `engaged_of_engage`, `deployed_of_deploy`, `undeployed_of_undeploy`,
      `shutDown_of_shutdown`: the ends of the four operations.
-/
import SoapPipeline.Engine
import SoapPipeline.Proofs.Program.Runs

namespace SoapPipeline

open Program

/-- A question to a handler outside of messages, with its answer. -/
abbrev LifecycleEvent : Type := Event Lifecycle.interface

namespace Lifecycle

/-- These handlers clean up, one after the other. -/
def cleanups (handlers : List Handler) : List LifecycleEvent :=
  handlers.map fun h => ⟨.cleanup h, ()⟩

/-- These handlers get ready, one after the other. -/
def inits (handlers : List Handler) : List LifecycleEvent :=
  handlers.map fun h => ⟨.init h, none⟩

/-- Where every handler gets ready when it is asked to, a program comes to an end. -/
theorem exists_end {α : Type} (p : Lifecycle α) : ∃ events a, Run p events a := by
  let behave : List LifecycleEvent → (q : Question) → q.Answer
    | _, .init _ => none
    | _, .cleanup _ => ()
  obtain ⟨events, a, h, -⟩ := exists_run behave [] p
  exact ⟨events, a, h⟩

variable {events : List LifecycleEvent}

theorem cleanups_of_cleanupAll {handlers : List Handler} {u : Unit}
    (h : Run (cleanupAll handlers) events u) : events = cleanups handlers := by
  induction handlers generalizing events with
  | nil => exact (Run.pure_iff.mp h).1
  | cons handler rest ih =>
    obtain ⟨answer, events', rfl, hrest⟩ := Run.question_bind_iff.mp h
    rw [ih hrest]
    rfl

/-- How getting ready may end: all handlers are ready, or one fails and those ahead of it clean
up, the last one first. -/
inductive Readied (fresh : List (QName × Handler)) :
    List LifecycleEvent → Option (QName × Failure) → Prop
  | all : Readied fresh (inits (fresh.map Prod.snd)) none
  | failed {front back : List (QName × Handler)} {name : QName} {h : Handler} {failure : Failure}
      (hsplit : fresh = front ++ (name, h) :: back) :
      Readied fresh (inits (front.map Prod.snd) ++ ⟨.init h, some failure⟩ ::
        cleanups (front.map Prod.snd).reverse) (some (name, failure))

theorem cases_of_initFrom {ready : List Handler} {fresh : List (QName × Handler)}
    {result : Option (QName × Failure)} (hrun : Run (initFrom ready fresh) events result) :
    (result = none ∧ events = inits (fresh.map Prod.snd)) ∨
    ∃ front name h back failure, fresh = front ++ (name, h) :: back ∧
      result = some (name, failure) ∧
      events = inits (front.map Prod.snd) ++ ⟨.init h, some failure⟩ ::
        cleanups ((front.map Prod.snd).reverse ++ ready) := by
  induction fresh generalizing ready events with
  | nil =>
    obtain ⟨rfl, rfl⟩ := Run.pure_iff.mp hrun
    exact Or.inl ⟨rfl, rfl⟩
  | cons entry rest ih =>
    obtain ⟨name, h⟩ := entry
    obtain ⟨answer, events', rfl, hrest⟩ := Run.question_bind_iff.mp hrun
    cases answer with
    | none =>
      -- What is ready now cleans up later if one of the others fails.
      rcases ih hrest with ⟨rfl, rfl⟩ | ⟨front, name', h', back, failure, rfl, rfl, rfl⟩
      · exact Or.inl ⟨rfl, rfl⟩
      · refine Or.inr ⟨(name, h) :: front, name', h', back, failure, rfl, rfl, ?_⟩
        simp [inits]
    | some failure =>
      obtain ⟨front, u, back, rfl, hclean, hdone⟩ := Run.bind_iff.mp hrest
      obtain ⟨rfl, rfl⟩ := Run.pure_iff.mp hdone
      refine Or.inr ⟨[], name, h, rest, failure, rfl, rfl, ?_⟩
      rw [cleanups_of_cleanupAll hclean, List.append_nil]
      rfl

theorem readied_of_initAll {fresh : List (QName × Handler)} {result : Option (QName × Failure)}
    (hrun : Run (initAll fresh) events result) : Readied fresh events result := by
  rcases cases_of_initFrom hrun with ⟨rfl, rfl⟩ | ⟨front, name, h, back, failure, hsplit, rfl, rfl⟩
  · exact Readied.all
  · rw [List.append_nil]
    exact Readied.failed hsplit

end Lifecycle

namespace Engine

open Lifecycle

variable {e e' : Engine} {events : List LifecycleEvent}

/-! ## Letting go -/

theorem eq_of_release {id : Nat} (h : Run (e.release id) events e') :
    events = cleanups (e.deployments.release id).1 ∧
      e' = { e with deployments := (e.deployments.release id).2 } := by
  obtain ⟨front, u, back, rfl, hclean, hdone⟩ := Run.bind_iff.mp h
  obtain ⟨rfl, rfl⟩ := Run.pure_iff.mp hdone
  rw [cleanups_of_cleanupAll hclean, List.append_nil]
  exact ⟨rfl, rfl⟩

theorem eq_of_releaseAll_none (h : Run (e.releaseAll (none : Option Nat).toList) events e') :
    events = [] ∧ e' = e :=
  Run.pure_iff.mp h

theorem eq_of_releaseAll_some {id : Nat}
    (h : Run (e.releaseAll (some id : Option Nat).toList) events e') :
    events = cleanups (e.deployments.release id).1 ∧
      e' = { e with deployments := (e.deployments.release id).2 } := by
  obtain ⟨front, mid, back, rfl, hrelease, hdone⟩ := Run.bind_iff.mp h
  obtain ⟨rfl, rfl⟩ := Run.pure_iff.mp hdone
  rw [List.append_nil]
  exact eq_of_release hrelease

/-! ## Engaging -/

/-- The instances that a further global handler brings. -/
def freshGlobal (e : Engine) (d : Descriptor) : List (QName × Handler) :=
  if d.handler ∈ e.globals.handlers then [] else [(d.name, d.handler)]

/-- How engaging a handler may end. -/
inductive Engaged (e : Engine) (flow : Flow) (spec : HandlerSpec) :
    List LifecycleEvent → Engine → Except DeployError Descriptor → Prop
  /-- A chain does not resolve. -/
  | refused {d : Descriptor} {namer : Namer} {error : DeployError}
      (hd : e.namer.describe spec = (d, namer))
      (hrefused : Chains.build e.config.order .engine (e.globals.push flow d) .empty =
          .error error ∨
        e.rebuildAll (e.globals.push flow d) = .error error) :
      Engaged e flow spec [] { e with namer } (.error error)
  /-- The handler does not get ready. -/
  | notReady {d : Descriptor} {namer : Namer} {events : List LifecycleEvent} {name : QName}
      {failure : Failure} (hd : e.namer.describe spec = (d, namer))
      (hready : Readied (e.freshGlobal d) events (some (name, failure))) :
      Engaged e flow spec events { e with namer } (.error (.handlerInit name failure))
  /-- The new chains are published. -/
  | engaged {d : Descriptor} {namer : Namer} {events : List LifecycleEvent}
      {globalChains : Chains} {rebuilt : List (Nat × Chains)}
      (hd : e.namer.describe spec = (d, namer))
      (hglobal : Chains.build e.config.order .engine (e.globals.push flow d) .empty =
        .ok globalChains)
      (hrebuilt : e.rebuildAll (e.globals.push flow d) = .ok rebuilt)
      (hready : Readied (e.freshGlobal d) events none) :
      Engaged e flow spec events
        { e with
          namer
          globals := e.globals.push flow d
          globalChains
          deployments := publish e.deployments rebuilt } (.ok d)

theorem engaged_of_engage {flow : Flow} {spec : HandlerSpec}
    {result : Except DeployError Descriptor}
    (h : Run (e.engage flow spec) events (e', result)) : Engaged e flow spec events e' result := by
  unfold engage at h
  rcases hd : e.namer.describe spec with ⟨d, namer⟩
  rw [hd] at h
  dsimp only at h
  cases hglobal : Chains.build e.config.order .engine (e.globals.push flow d) .empty with
  | error error =>
    rw [hglobal] at h
    obtain ⟨rfl, rfl, rfl⟩ := Run.pure_pair_iff.mp h
    exact Engaged.refused hd (Or.inl hglobal)
  | ok globalChains =>
    rw [hglobal] at h
    dsimp only at h
    -- Names that are given meanwhile have no part in building chains.
    have hsame : ({ e with namer } : Engine).rebuildAll (e.globals.push flow d) =
        e.rebuildAll (e.globals.push flow d) := rfl
    rw [hsame] at h
    cases hrebuilt : e.rebuildAll (e.globals.push flow d) with
    | error error =>
      rw [hrebuilt] at h
      obtain ⟨rfl, rfl, rfl⟩ := Run.pure_pair_iff.mp h
      exact Engaged.refused hd (Or.inr hrebuilt)
    | ok rebuilt =>
      rw [hrebuilt] at h
      obtain ⟨front, outcome, back, rfl, hinit, hdone⟩ := Run.bind_iff.mp h
      have hready : Readied (e.freshGlobal d) front outcome := readied_of_initAll hinit
      cases outcome with
      | some failed =>
        obtain ⟨rfl, rfl, rfl⟩ := Run.pure_pair_iff.mp hdone
        rw [List.append_nil]
        exact Engaged.notReady hd hready
      | none =>
        obtain ⟨rfl, rfl, rfl⟩ := Run.pure_pair_iff.mp hdone
        rw [List.append_nil]
        exact Engaged.engaged hd hglobal hrebuilt hready

/-! ## Deploying -/

/-- The handlers that a deployment replaced by new flows has in common with them. -/
def carried (previous : Option (Nat × Deployment)) (flows : Flows) : List Handler :=
  match previous with
  | some (_, old) => old.shared flows
  | none => []

/-- The deployments after the replaced one has handed over what the new flows use too. -/
def handed (e : Engine) (previous : Option (Nat × Deployment)) (flows : Flows) : Deployments :=
  match previous with
  | some (old, replaced) => e.deployments.modify old fun o => o.handOver (replaced.shared flows)
  | none => e.deployments

/-- What installing a deployment does: it is added and registered, and what it displaces in the
registry is let go. -/
inductive Installed (e : Engine) (d : Deployment) (previous : Option (Nat × Deployment)) :
    List LifecycleEvent → Engine → Nat → Prop
  | added (hfree : e.registry.get? d.service = none) :
      Installed e d previous []
        { e with
          registry := (e.registry.insert d.service ((e.handed previous d.flows).add d).1).2
          deployments := ((e.handed previous d.flows).add d).2 }
        ((e.handed previous d.flows).add d).1
  | replaced {old : Nat} (hold : e.registry.get? d.service = some old) :
      Installed e d previous (cleanups (((e.handed previous d.flows).add d).2.release old).1)
        { e with
          registry := (e.registry.insert d.service ((e.handed previous d.flows).add d).1).2
          deployments := (((e.handed previous d.flows).add d).2.release old).2 }
        ((e.handed previous d.flows).add d).1

theorem installed_of_install {d : Deployment} {previous : Option (Nat × Deployment)} {id : Nat}
    (h : Run (e.install d previous) events (e', id)) : Installed e d previous events e' id := by
  unfold install at h
  obtain ⟨front, mid, back, rfl, hrelease, hdone⟩ := Run.bind_iff.mp h
  obtain ⟨rfl, rfl, rfl⟩ := Run.pure_pair_iff.mp hdone
  rw [List.append_nil]
  change Run (Engine.releaseAll _ (e.registry.get? d.service).toList) front _ at hrelease
  cases hget : e.registry.get? d.service with
  | none =>
    rw [hget] at hrelease
    obtain ⟨rfl, rfl⟩ := eq_of_releaseAll_none hrelease
    exact Installed.added hget
  | some old =>
    rw [hget] at hrelease
    obtain ⟨rfl, rfl⟩ := eq_of_releaseAll_some hrelease
    exact Installed.replaced hget

/-- The instances of new flows that the deployment under the same name does not use yet. -/
def freshInstances (e : Engine) (service : QName) (flows : Flows) : List (QName × Handler) :=
  flows.instances.filter fun (_, h) => h ∉ carried (e.deployed? service) flows

/-- How deploying a service may end. -/
inductive Deployed (e : Engine) (spec : ServiceSpec) :
    List LifecycleEvent → Engine → Except DeployError Nat → Prop
  /-- A chain does not resolve. -/
  | refused {flows : Flows} {namer : Namer} {error : DeployError}
      (hflows : e.namer.describeService spec = (flows, namer))
      (hrefused : Chains.build e.config.order (.service spec.name) e.globals flows =
        .error error) :
      Deployed e spec [] { e with namer } (.error error)
  /-- A handler does not get ready. -/
  | notReady {flows : Flows} {namer : Namer} {events : List LifecycleEvent} {name : QName}
      {failure : Failure} (hflows : e.namer.describeService spec = (flows, namer))
      (hready : Readied (e.freshInstances spec.name flows) events (some (name, failure))) :
      Deployed e spec events { e with namer } (.error (.handlerInit name failure))
  /-- The service is installed. -/
  | deployed {flows : Flows} {namer : Namer} {chains : Chains} {front back : List LifecycleEvent}
      {e' : Engine} {id : Nat} (hflows : e.namer.describeService spec = (flows, namer))
      (hchains : Chains.build e.config.order (.service spec.name) e.globals flows = .ok chains)
      (hready : Readied (e.freshInstances spec.name flows) front none)
      (hinstalled : Installed { e with namer } ⟨spec.name, spec.operations, flows, chains, []⟩
        (e.deployed? spec.name) back e' id) :
      Deployed e spec (front ++ back) e' (.ok id)

theorem deployed_of_deploy {spec : ServiceSpec} {result : Except DeployError Nat}
    (h : Run (e.deploy spec) events (e', result)) : Deployed e spec events e' result := by
  unfold deploy at h
  rcases hflows : e.namer.describeService spec with ⟨flows, namer⟩
  rw [hflows] at h
  dsimp only at h
  cases hchains : Chains.build e.config.order (.service spec.name) e.globals flows with
  | error error =>
    rw [hchains] at h
    obtain ⟨rfl, rfl, rfl⟩ := Run.pure_pair_iff.mp h
    exact Deployed.refused hflows hchains
  | ok chains =>
    rw [hchains] at h
    obtain ⟨front, outcome, back, rfl, hinit, hrest⟩ := Run.bind_iff.mp h
    have hready : Readied (e.freshInstances spec.name flows) front outcome :=
      readied_of_initAll hinit
    cases outcome with
    | some failed =>
      obtain ⟨rfl, rfl, rfl⟩ := Run.pure_pair_iff.mp hrest
      rw [List.append_nil]
      exact Deployed.notReady hflows hready
    | none =>
      obtain ⟨installing, ⟨mid, id⟩, back', rfl, hinstall, hdone⟩ := Run.bind_iff.mp hrest
      obtain ⟨rfl, rfl, rfl⟩ := Run.pure_pair_iff.mp hdone
      rw [List.append_nil]
      exact Deployed.deployed hflows hchains hready (installed_of_install hinstall)

/-! ## Removing services -/

/-- What taking a service out of the registry does. -/
inductive Removed (e : Engine) (name : QName) : List LifecycleEvent → Engine → Prop
  | absent (habsent : e.registry.get? name = none) :
      Removed e name [] { e with registry := (e.registry.remove name).2 }
  | removed {id : Nat} (hget : e.registry.get? name = some id) :
      Removed e name (cleanups (e.deployments.release id).1)
        { e with
          registry := (e.registry.remove name).2
          deployments := (e.deployments.release id).2 }

/-- How undeploying a service may end. -/
inductive Undeployed (e : Engine) (name : QName) :
    List LifecycleEvent → Engine → Except DeployError Unit → Prop
  | notDeployed (habsent : e.registry.get? name = none) :
      Undeployed e name [] e (.error (.notDeployed name))
  | undeployed {id : Nat} {events : List LifecycleEvent} {e' : Engine}
      (hget : e.registry.get? name = some id) (hremoved : Removed e name events e') :
      Undeployed e name events e' (.ok ())

theorem undeployed_of_undeploy {name : QName} {result : Except DeployError Unit}
    (h : Run (e.undeploy name) events (e', result)) : Undeployed e name events e' result := by
  unfold undeploy Registry.remove at h
  cases hget : e.registry.get? name with
  | none =>
    rw [hget] at h
    obtain ⟨rfl, rfl, rfl⟩ := Run.pure_pair_iff.mp h
    exact Undeployed.notDeployed hget
  | some id =>
    rw [hget] at h
    obtain ⟨front, mid, back, rfl, hrelease, hdone⟩ := Run.bind_iff.mp h
    obtain ⟨rfl, rfl, rfl⟩ := Run.pure_pair_iff.mp hdone
    obtain ⟨rfl, rfl⟩ := eq_of_release hrelease
    rw [List.append_nil]
    exact Undeployed.undeployed hget (Removed.removed hget)

theorem removed_of_removeAll {name : QName} {rest : List QName}
    (h : Run (e.removeAll (name :: rest)) events e') :
    ∃ front mid back, events = front ++ back ∧ Removed e name front mid ∧
      Run (mid.removeAll rest) back e' := by
  obtain ⟨front, mid, back, rfl, hrelease, hrest⟩ := Run.bind_iff.mp h
  change Run (Engine.releaseAll _ (e.registry.get? name).toList) front _ at hrelease
  refine ⟨front, mid, back, rfl, ?_, hrest⟩
  cases hget : e.registry.get? name with
  | none =>
    rw [hget] at hrelease
    obtain ⟨rfl, rfl⟩ := eq_of_releaseAll_none hrelease
    exact Removed.absent hget
  | some id =>
    rw [hget] at hrelease
    obtain ⟨rfl, rfl⟩ := eq_of_releaseAll_some hrelease
    exact Removed.removed hget

/-! ## Shutting down -/

/-- The global chains after a shutdown. -/
def clearedChains (e : Engine) : Chains :=
  match Chains.build e.config.order .engine .empty .empty with
  | .ok chains => chains
  | .error _ => e.globalChains

/-- How a shutdown ends: all services are removed, then the global handlers clean up. -/
inductive ShutDown (e : Engine) : List LifecycleEvent → Engine → Prop
  | shutDown {front : List LifecycleEvent} {mid : Engine}
      (hremoved : Run (e.removeAll e.registry.names.reverse) front mid) :
      ShutDown e (front ++ cleanups mid.globals.handlers.reverse)
        { mid with globals := .empty, globalChains := mid.clearedChains }

theorem shutDown_of_shutdown (h : Run e.shutdown events e') : ShutDown e events e' := by
  obtain ⟨front, mid, back, rfl, hremoved, hrest⟩ := Run.bind_iff.mp h
  obtain ⟨cleaning, u, back', rfl, hclean, hdone⟩ := Run.bind_iff.mp hrest
  obtain ⟨rfl, rfl⟩ := Run.pure_iff.mp hdone
  rw [cleanups_of_cleanupAll hclean, List.append_nil]
  exact ShutDown.shutDown hremoved

end Engine

end SoapPipeline
