import SoapPipeline.Chain
import SoapPipeline.Client
import SoapPipeline.Config
import SoapPipeline.Context
import SoapPipeline.Decimal.Shortest
import SoapPipeline.Demo
import SoapPipeline.Deployment
import SoapPipeline.Dispatch
import SoapPipeline.Engine
import SoapPipeline.Execution
import SoapPipeline.Fault
import SoapPipeline.Flows
import SoapPipeline.Graph
import SoapPipeline.Handler
import SoapPipeline.Json.Fields
import SoapPipeline.Json.Number
import SoapPipeline.Json.Tree
import SoapPipeline.Lifecycle
import SoapPipeline.Main
import SoapPipeline.Middleware
import SoapPipeline.Payload
import SoapPipeline.Pending
import SoapPipeline.Phase
import SoapPipeline.Program
import SoapPipeline.Proofs.Ahead
import SoapPipeline.Proofs.Graph.Walks
import SoapPipeline.Proofs.Graph.Reaching
import SoapPipeline.QName
import SoapPipeline.Registry
import SoapPipeline.ResolutionError
import SoapPipeline.Scenario.Clock
import SoapPipeline.Scenario.Depot
import SoapPipeline.Scenario.Play
import SoapPipeline.Scenario.Script
import SoapPipeline.Scenario.StandIn
import SoapPipeline.Scenario.Waiting
import SoapPipeline.Scenario.World
import SoapPipeline.Table
import SoapPipeline.Tracking
import SoapPipeline.Text.Hex
import SoapPipeline.Text.Numbered
import SoapPipeline.Text.Quoted
import SoapPipeline.Value
import SoapPipeline.Proofs.Graph.Cycles
import SoapPipeline.Proofs.Graph.Orders
import SoapPipeline.Proofs.Graph.Placing
import SoapPipeline.Proofs.Phase.Admissible
import SoapPipeline.Proofs.Phase.Resolution
import SoapPipeline.Proofs.Phase.LeastOrder
import SoapPipeline.Proofs.Dispatch.Conservation
import SoapPipeline.Proofs.Dispatch.Courses
import SoapPipeline.Proofs.Dispatch.MandatoryHeaders
import SoapPipeline.Proofs.Engine.Holdings
import SoapPipeline.Proofs.Registry
import SoapPipeline.Proofs.Engine.History
import SoapPipeline.Proofs.Engine.PublishedChains
import SoapPipeline.Proofs.Flows
import SoapPipeline.Proofs.Engine.Ownership
import SoapPipeline.Proofs.Pending.Agreement
import SoapPipeline.Proofs.Pending.Delivery
import SoapPipeline.Proofs.Pending.Tasks
import SoapPipeline.Proofs.Traffic.Calls
import SoapPipeline.Proofs.Traffic.Interleaving
import SoapPipeline.Proofs.Traffic.Custody
import SoapPipeline.Proofs.Traffic.UseAfterCleanup
import SoapPipeline.Proofs.Traffic.UseBeforeReady
import SoapPipeline.Proofs.Traffic.Snapshot
import SoapPipeline.Proofs.Traffic.Requests
import SoapPipeline.Proofs.Middleware.Passing
import SoapPipeline.Proofs.Engine.Rollback
import SoapPipeline.Proofs.Chain.Partition
import SoapPipeline.Proofs.Phase.Picking
import SoapPipeline.Proofs.Phase.Insertion
import SoapPipeline.Proofs.Phase.CycleReports
import SoapPipeline.Proofs.Middleware.Counting
import SoapPipeline.Proofs.Chain.Additions
import SoapPipeline.Proofs.Chain.Extension
import SoapPipeline.Proofs.Middleware.Refinement
import SoapPipeline.Proofs.Middleware.Admission
import SoapPipeline.Proofs.Client.Loopback
import SoapPipeline.Proofs.QName
import SoapPipeline.Proofs.Dispatch.Selection
import SoapPipeline.Proofs.Client.Deadlines
import SoapPipeline.Proofs.Registry.Calls
import SoapPipeline.Proofs.Engine.Shutdown
import SoapPipeline.Proofs.Options
import SoapPipeline.Proofs.Graph.Detectors
import SoapPipeline.Proofs.Chain.Refusals
import SoapPipeline.Proofs.Naming
