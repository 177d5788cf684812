/-
  SoapPipeline.Deployment

  Deployed services and who holds them.

  A deployment lives as long as someone holds it: the registry, a dispatch
  that runs on it, or whoever asked for it.  When the last holder lets go, its
  handlers are to be cleaned up, except those that it has handed over to a
  successor.
-/

import SoapPipeline.Flows

namespace SoapPipeline

/-! ## One deployment -/

/-- A service as it is deployed. -/
structure Deployment where
  service : QName
  operations : List QName
  /-- The service's own handlers, without global ones. -/
  flows : Flows
  /-- The chains that are published now. -/
  chains : Chains
  /-- Handlers whose cleanup has been left to a successor. -/
  handedOver : List Handler
  deriving DecidableEq, Repr, Inhabited

namespace Deployment

/-- Whether an operation may be dispatched to the service. -/
def accepts (d : Deployment) (operation : QName) : Bool :=
  d.operations.isEmpty || d.operations.contains operation

/-- The handlers that a successor with these flows uses too. -/
def shared (d : Deployment) (successor : Flows) : List Handler :=
  d.flows.handlers.filter fun h => h ∈ successor.handlers

/-- Leaves the cleanup of these handlers to a successor. -/
def handOver (d : Deployment) (handlers : List Handler) : Deployment :=
  { d with handedOver := d.handedOver ++ handlers }

/-- The handlers to be cleaned up when nobody holds the deployment any more, in
order: the last one that came is the first to go. -/
def leftovers (d : Deployment) : List Handler :=
  (d.flows.handlers.filter fun h => h ∉ d.handedOver).reverse

/-- The description of a deployment; its handlers are not shown. -/
def describe (d : Deployment) : String :=
  Text.record "DeployedService" [("name", d.service.describe),
    ("operations", Text.bracketed (d.operations.map QName.describe))] true

end Deployment

/-! ## All deployments that live -/

/-- A deployment that lives, and how many hold it. -/
structure Holding where
  id : Nat
  deployment : Deployment
  holders : Nat
  deriving DecidableEq, Repr, Inhabited

/-- The deployments that live.  Ids are never used twice. -/
structure Deployments where
  nextId : Nat
  living : List Holding
  deriving DecidableEq, Repr, Inhabited

namespace Deployments

def empty : Deployments := ⟨0, []⟩

/-- The deployment with this id, if it lives. -/
def find? (ds : Deployments) (id : Nat) : Option Deployment :=
  (ds.living.find? fun h => h.id = id).map Holding.deployment

/-- Adds a deployment with one holder. -/
def add (ds : Deployments) (d : Deployment) : Nat × Deployments :=
  (ds.nextId, ⟨ds.nextId + 1, ds.living ++ [⟨ds.nextId, d, 1⟩]⟩)

/-- Changes the deployment with this id. -/
def modify (ds : Deployments) (id : Nat) (change : Deployment → Deployment) : Deployments :=
  { ds with living := ds.living.map fun h =>
      if h.id = id then { h with deployment := change h.deployment } else h }

/-- One more holder. -/
def retain (ds : Deployments) (id : Nat) : Deployments :=
  { ds with living := ds.living.map fun h =>
      if h.id = id then { h with holders := h.holders + 1 } else h }

/-- One holder less.  When it was the last one the deployment is gone, and the handlers
to be cleaned up are returned in order. -/
def release (ds : Deployments) (id : Nat) : List Handler × Deployments :=
  match ds.living.find? fun h => h.id = id with
  | none => ([], ds)
  | some h =>
    if h.holders ≤ 1 then
      (h.deployment.leftovers, { ds with living := ds.living.filter fun h => h.id ≠ id })
    else
      ([], { ds with living := ds.living.map fun h =>
        if h.id = id then { h with holders := h.holders - 1 } else h })

end Deployments

end SoapPipeline
