/-
  SoapPipeline.Engine

  The engine: what is deployed on it, and the operations that change that.

  An operation either changes everything that it is meant to change or, when
  chains do not resolve or a handler does not get ready, nothing but the count
  of given names.
-/

import SoapPipeline.Config
import SoapPipeline.Lifecycle
import SoapPipeline.Registry

namespace SoapPipeline

/-- An engine with its services and global handlers. -/
structure Engine where
  config : Config
  namer : Namer
  /-- Handlers that run for every service, and for messages to none. -/
  globals : Flows
  /-- Chains for messages that match no service. -/
  globalChains : Chains
  /-- The deployment of every service, by id. -/
  registry : Registry Nat
  deployments : Deployments

namespace Engine

/-- An engine without services and handlers, if its phase order repeats no name. -/
def new (config : Config) : Except DeployError Engine := do
  let chains ← Chains.build config.order .engine .empty .empty
  return {
    config
    namer := Namer.start
    globals := .empty
    globalChains := chains
    registry := .empty
    deployments := .empty }

/-- The deployment that is registered under a name, with its id. -/
def deployed? (e : Engine) (service : QName) : Option (Nat × Deployment) := do
  let id ← e.registry.get? service
  return (id, ← e.deployments.find? id)

/-- The registered deployments in order. -/
def services (e : Engine) : List Deployment :=
  e.registry.items.filterMap e.deployments.find?

/-- The description of an engine by its id and services. -/
def describe (e : Engine) : String :=
  Text.record "DispatchEngine" [("engine_id", Text.quoted e.config.engineId),
    ("services", Text.bracketed (e.registry.names.map QName.describe))] true

/-! ## Holding deployments -/

/-- Has one more hold a deployment. -/
def retain (e : Engine) (id : Nat) : Engine :=
  { e with deployments := e.deployments.retain id }

/-- Has one holder let go of a deployment; the handlers that nobody needs any more
clean up. -/
def release (e : Engine) (id : Nat) : Lifecycle Engine := do
  let (leftovers, deployments) := e.deployments.release id
  Lifecycle.cleanupAll leftovers
  return { e with deployments }

/-- Has several holders let go, one after the other. -/
def releaseAll (e : Engine) : List Nat → Lifecycle Engine
  | [] => pure e
  | id :: rest => do
    let e ← e.release id
    e.releaseAll rest

/-! ## Engaging handlers -/

/-- The chains of every registered service over new global handlers, by id. -/
def rebuildAll (e : Engine) (globals : Flows) : Except DeployError (List (Nat × Chains)) :=
  e.registry.items.filterMapM fun id =>
    match e.deployments.find? id with
    | none => .ok none
    | some d =>
      match Chains.build e.config.order (.service d.service) globals d.flows with
      | .ok chains => .ok (some (id, chains))
      | .error error => .error error

/-- Publishes chains on the deployments with these ids. -/
def publish (deployments : Deployments) (rebuilt : List (Nat × Chains)) : Deployments :=
  rebuilt.foldl (fun ds (id, chains) => ds.modify id fun d => { d with chains }) deployments

/-- Engages a handler for the whole engine.  All chains are resolved anew before the
handler gets ready, and published after it. -/
def engage (e : Engine) (flow : Flow) (spec : HandlerSpec) :
    Lifecycle (Engine × Except DeployError Descriptor) := do
  let (d, namer) := e.namer.describe spec
  let e := { e with namer }
  let globals := e.globals.push flow d
  match Chains.build e.config.order .engine globals .empty with
  | .error error => return (e, .error error)
  | .ok globalChains =>
    match e.rebuildAll globals with
    | .error error => return (e, .error error)
    | .ok rebuilt =>
      let fresh := if d.handler ∈ e.globals.handlers then [] else [(d.name, d.handler)]
      match ← Lifecycle.initAll fresh with
      | some (name, failure) => return (e, .error (.handlerInit name failure))
      | none =>
        let deployments := publish e.deployments rebuilt
        return ({ e with globals, globalChains, deployments }, .ok d)

/-! ## Deploying services -/

/-- Puts a new deployment in the place of the one registered under its name.  Handlers
that both use are handed over, and the registry lets go of the old deployment. -/
def install (e : Engine) (d : Deployment) (previous : Option (Nat × Deployment)) :
    Lifecycle (Engine × Nat) := do
  let deployments := match previous with
    | some (old, replaced) =>
      e.deployments.modify old fun o => o.handOver (replaced.shared d.flows)
    | none => e.deployments
  let (id, deployments) := deployments.add d
  let (displaced, registry) := e.registry.insert d.service id
  let e ← { e with registry, deployments }.releaseAll displaced.toList
  return (e, id)

/-- Deploys a service in the place of one with the same name.  Handlers that the
replaced deployment uses too do not get ready again. -/
def deploy (e : Engine) (spec : ServiceSpec) :
    Lifecycle (Engine × Except DeployError Nat) := do
  let (flows, namer) := e.namer.describeService spec
  let e := { e with namer }
  match Chains.build e.config.order (.service spec.name) e.globals flows with
  | .error error => return (e, .error error)
  | .ok chains =>
    let previous := e.deployed? spec.name
    let carried := match previous with
      | some (_, old) => old.shared flows
      | none => []
    let fresh := flows.instances.filter fun (_, h) => h ∉ carried
    match ← Lifecycle.initAll fresh with
    | some (name, failure) => return (e, .error (.handlerInit name failure))
    | none =>
      let (e, id) ← e.install ⟨spec.name, spec.operations, flows, chains, []⟩ previous
      return (e, .ok id)

/-- Removes a service. -/
def undeploy (e : Engine) (service : QName) : Lifecycle (Engine × Except DeployError Unit) := do
  match e.registry.remove service with
  | (none, _) => return (e, .error (.notDeployed service))
  | (some id, registry) =>
    let e ← { e with registry }.release id
    return (e, .ok ())

/-! ## Shutting down -/

/-- Removes the services with these names, one after the other. -/
def removeAll (e : Engine) : List QName → Lifecycle Engine
  | [] => pure e
  | name :: rest => do
    let (removed, registry) := e.registry.remove name
    let e ← { e with registry }.releaseAll removed.toList
    e.removeAll rest

/-- Lets go of every service in reverse order, then has the global handlers clean up,
the last one first. -/
def shutdown (e : Engine) : Lifecycle Engine := do
  let e ← e.removeAll e.registry.names.reverse
  Lifecycle.cleanupAll e.globals.handlers.reverse
  let globalChains := match Chains.build e.config.order .engine .empty .empty with
    | .ok chains => chains
    | .error _ => e.globalChains
  return { e with globals := .empty, globalChains }

end Engine

end SoapPipeline
