import NamedRelay.Config.Decode
import NamedRelay.ContentStore.Policy
import NamedRelay.Relay.Ageing
import NamedRelay.Relay.Arrival
import NamedRelay.Relay.Report
import NamedRelay.Scheduler.Allowance
import NamedRelay.Proofs.Operation
import NamedRelay.Proofs.Sending
import NamedRelay.Proofs.SlotTable
import NamedRelay.Proofs.ContentStore
import NamedRelay.Proofs.Transmission
import NamedRelay.Proofs.Forwarding
import NamedRelay.Proofs.SendingFrame
import NamedRelay.Proofs.Serving
import NamedRelay.Proofs.Caching
import NamedRelay.Proofs.Request
import NamedRelay.Proofs.Comparing
import NamedRelay.Proofs.Effects
import NamedRelay.Proofs.Steps
import NamedRelay.Proofs.PendingTable
import NamedRelay.Proofs.Collapse
import NamedRelay.Proofs.Waiting
import NamedRelay.Proofs.Arrival
import NamedRelay.Proofs.LiveFaces
import NamedRelay.Proofs.Coherence
import NamedRelay.Proofs.ServingPass
import NamedRelay.Proofs.SplitHorizon
import NamedRelay.Proofs.Freshness
import NamedRelay.Proofs.CacheSteps
import NamedRelay.Proofs.Capacity
import NamedRelay.Proofs.Outcome
import NamedRelay.Proofs.Places
import NamedRelay.Proofs.Balance
import NamedRelay.Proofs.RateControl
import NamedRelay.Proofs.Ring
import NamedRelay.Proofs.Pipeline
import NamedRelay.Proofs.InterfaceQueues
import NamedRelay.Proofs.FaceQueues
import NamedRelay.Proofs.Conservation
import NamedRelay.Proofs.QueueSteps
import NamedRelay.Proofs.Numbering
import NamedRelay.Proofs.Retransmission
import NamedRelay.Proofs.SlotVisits
import NamedRelay.Proofs.SweepWalk
import NamedRelay.Proofs.ServingWalk
import NamedRelay.Proofs.Sweep
import NamedRelay.Proofs.Lifetime
import NamedRelay.Proofs.Pinning
import NamedRelay.Proofs.Failure
import NamedRelay.Proofs.Nonces
import NamedRelay.Proofs.OwnRoutes
import NamedRelay.Proofs.Families
import NamedRelay.Proofs.Deadlines
import NamedRelay.Proofs.Eviction
import NamedRelay.Proofs.Registry
import NamedRelay.Proofs.Propagation
import NamedRelay.Proofs.Kinds
import NamedRelay.Proofs.Aggregation
import NamedRelay.Proofs.FaceRemoval
import NamedRelay.Proofs.Satisfaction
import NamedRelay.Proofs.KeyedRoutes
import NamedRelay.Proofs.PathText
import NamedRelay.Proofs.PathReading
import NamedRelay.Proofs.SamePath
import NamedRelay.Proofs.PathLookup
import NamedRelay.Proofs.BoundedQueue
import NamedRelay.Proofs.Rendering
import NamedRelay.Proofs.ChunkComponents
import NamedRelay.Proofs.NameLimits
import NamedRelay.Proofs.Consultation
import NamedRelay.Proofs.Draining
import NamedRelay.Proofs.NameOrder
import NamedRelay.Proofs.TableCalls
import NamedRelay.Proofs.Handles
import NamedRelay.Proofs.Walks
