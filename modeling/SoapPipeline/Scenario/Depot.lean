/-
  SoapPipeline.Scenario.Depot

  Deployments without an engine: services are described and resolved, put into
  a registry and taken out of it, and held under names meanwhile.
-/

import SoapPipeline.Scenario.Play

namespace SoapPipeline.Scenario

/-- A registry, and what is needed to fill it. -/
structure Depot where
  order : PhaseOrder
  namer : Namer
  globals : Flows
  deployments : Deployments
  registry : Registry Nat
  /-- Deployments that are held under names. -/
  held : List (String × Nat)

namespace Depot

def empty (order : PhaseOrder) : Depot where
  order
  namer := Namer.start
  globals := .empty
  deployments := .empty
  registry := .empty
  held := []

/-! ## Steps -/

/-- What can be done with a depot. -/
inductive Act where
  | describe (spec : SpecSource)
  /-- Adds a global handler. -/
  | addGlobal (flow : Flow) (spec : SpecSource)
  | showOrder
  /-- Makes a deployment and holds it. -/
  | make (name : String) (service : ServiceSource)
  | buildGlobal
  /-- Registers what is held. -/
  | insert (name : String)
  /-- Looks a service up, and holds it under a name if there is one. -/
  | get (service : QName) (name : Option String)
  | remove (service : QName) (name : Option String)
  | drop (name : String)
  | inspect (name : String)
  | accepts (name : String) (operation : QName)
  /-- The handlers that one deployment shares with another, handed over if asked. -/
  | shared (name successor : String) (handOver : Bool)
  /-- Publishes the chains of a service on a deployment. -/
  | replace (name : String) (service : ServiceSource)
  | list
  | shutdown

/-- The answer to an act. -/
inductive Reply where
  | localName (name : String)
  | names (names : List QName)
  | order (order : PhaseOrder)
  | chains (chains : Chains)
  | refused (error : DeployError)
  | service (name : Option QName)
  | flag (b : Bool)
  | deployment (d : Deployment)
  | replaced (before after : Chains)
  | listing (registry : Registry Nat) (services : List Deployment)
  /-- Nothing is held under the name. -/
  | unknown

/-! ## Holding -/

/-- What is held under a name, with its id. -/
def held? (d : Depot) (name : String) : Option (Nat × Deployment) := do
  let id ← d.held.lookup name
  return (id, ← d.deployments.find? id)

/-- What is registered under a name, with its id. -/
def registered? (d : Depot) (service : QName) : Option (Nat × Deployment) := do
  let id ← d.registry.get? service
  return (id, ← d.deployments.find? id)

/-- Lets go of deployments, one after the other. -/
def releaseAll (d : Depot) : List Nat → Lifecycle Depot
  | [] => return d
  | id :: rest => do
    let (leftovers, deployments) := d.deployments.release id
    Lifecycle.cleanupAll leftovers
    releaseAll { d with deployments } rest

/-- Holds a deployment under a name; whoever gave it held it before.  What was held there
is let go. -/
def hold (d : Depot) (name : String) (id : Nat) : Lifecycle Depot :=
  let before := d.held.lookup name
  { d with held := World.put name id d.held }.releaseAll before.toList

/-- Removes services, one after the other. -/
def removeAll (d : Depot) : List QName → Lifecycle Depot
  | [] => return d
  | service :: rest => do
    let (removed, registry) := d.registry.remove service
    let d ← { d with registry }.releaseAll removed.toList
    d.removeAll rest

/-! ## Acting -/

/-- The registered deployments in order. -/
def services (d : Depot) : List Deployment :=
  d.registry.items.filterMap d.deployments.find?

/-- The flows of a service and its chains over the global handlers. -/
def resolve (d : Depot) (spec : ServiceSpec) :
    Depot × Flows × Except DeployError Chains :=
  let (flows, namer) := d.namer.describeService spec
  ({ d with namer }, flows, Chains.build d.order (.service spec.name) d.globals flows)

/-- The names under which a deployment shares handlers with another one. -/
def sharedNames (d successor : Deployment) : List QName :=
  let shared := d.shared successor.flows
  (d.flows.instances.filter fun (_, h) => h ∈ shared).map Prod.fst

/-- Does something once all specifications have been read. -/
def act (d : Depot) : Act → Play (Depot × Reply)
  | .describe source => do
    let spec ← Play.withWorld (·.specOf source)
    let (descriptor, namer) := d.namer.describe spec
    return ({ d with namer }, .localName descriptor.localName)
  | .addGlobal flow source => do
    let spec ← Play.withWorld (·.specOf source)
    let (descriptor, namer) := d.namer.describe spec
    let globals := d.globals.push flow descriptor
    return ({ d with namer, globals }, .names (globals.instances.map Prod.fst))
  | .showOrder => return (d, .order d.order)
  | .make name source => do
    let spec ← Play.withWorld (·.serviceOf source)
    let (d, flows, built) := d.resolve spec
    match built with
    | .error error => return (d, .refused error)
    | .ok chains =>
      let (id, deployments) := d.deployments.add ⟨spec.name, spec.operations, flows, chains, []⟩
      let d ← ({ d with deployments }.hold name id).run answerLifecycle
      return (d, .chains chains)
  | .buildGlobal =>
    match Chains.build d.order .engine d.globals .empty with
    | .ok chains => return (d, .chains chains)
    | .error error => return (d, .refused error)
  | .insert name =>
    match d.held? name with
    | none => return (d, .unknown)
    | some (id, deployment) => do
      let (displaced, registry) := d.registry.insert deployment.service id
      let replaced := displaced.map fun _ => deployment.service
      let deployments := d.deployments.retain id
      let d ← ({ d with registry, deployments }.releaseAll displaced.toList).run answerLifecycle
      return (d, .service replaced)
  | .get service name =>
    match d.registered? service, name with
    | some (id, _), some name => do
      let d ← ({ d with deployments := d.deployments.retain id }.hold name id).run answerLifecycle
      return (d, .service (some service))
    | some _, none => return (d, .service (some service))
    | none, _ => return (d, .service none)
  | .remove service name => do
    let (removed, registry) := d.registry.remove service
    let d := { d with registry }
    match removed, name with
    | some id, some name =>
      let d ← (d.hold name id).run answerLifecycle
      return (d, .service (some service))
    | some id, none =>
      let d ← (d.releaseAll [id]).run answerLifecycle
      return (d, .service (some service))
    | none, _ => return (d, .service none)
  | .drop name => do
    let before := d.held.lookup name
    let d ← ({ d with held := World.drop name d.held }.releaseAll before.toList).run
      answerLifecycle
    return (d, .flag before.isSome)
  | .inspect name =>
    match d.held? name with
    | none => return (d, .unknown)
    | some (_, deployment) => return (d, .deployment deployment)
  | .accepts name operation =>
    match d.held? name with
    | none => return (d, .unknown)
    | some (_, deployment) => return (d, .flag (deployment.accepts operation))
  | .shared name successor handOver =>
    match d.held? name, d.held? successor with
    | some (id, deployment), some (_, other) =>
      let deployments :=
        if handOver then d.deployments.modify id fun o => o.handOver (o.shared other.flows)
        else d.deployments
      return ({ d with deployments }, .names (sharedNames deployment other))
    | _, _ => return (d, .unknown)
  | .replace name source =>
    match d.held? name with
    | none => return (d, .unknown)
    | some (id, deployment) => do
      let spec ← Play.withWorld (·.serviceOf source)
      let (d, _, built) := d.resolve spec
      match built with
      | .error error => return (d, .refused error)
      | .ok chains =>
        let deployments := d.deployments.modify id fun o => { o with chains }
        return ({ d with deployments }, .replaced deployment.chains chains)
  | .list => return (d, .listing d.registry d.services)
  | .shutdown => do
    let d ← (d.removeAll d.registry.names.reverse).run answerLifecycle
    return (d, .flag d.registry.isEmpty)

end Depot

end SoapPipeline.Scenario
