import EvidenceFlow.Aspect.Expected
import EvidenceFlow.Cache.SingleFlight
import EvidenceFlow.Engine.Course
import EvidenceFlow.Flow.Stopping
import EvidenceFlow.Json.Parser
import EvidenceFlow.Records
import EvidenceFlow.Settings.Environment
import EvidenceFlow.Workbench
import EvidenceFlow.Proofs.Cache.Chain
import EvidenceFlow.Proofs.Cache.SegmentRecency
import EvidenceFlow.Proofs.Cache.SegmentShape
import EvidenceFlow.Proofs.Cache.LruRecency
import EvidenceFlow.Proofs.Cache.StoreRuns
import EvidenceFlow.Proofs.Cache.Segmentation
import EvidenceFlow.Proofs.Cache.RecencyHistory
import EvidenceFlow.Proofs.Tracker.IntervalLaw
import EvidenceFlow.Proofs.Cache.FlightOrder
import EvidenceFlow.Proofs.Cache.FlightTable
import EvidenceFlow.Proofs.Cache.SingleLoad
import EvidenceFlow.Proofs.Engine.AspectMerge
import EvidenceFlow.Proofs.Engine.Process
import EvidenceFlow.Proofs.Engine.ResultStore
import EvidenceFlow.Proofs.Engine.CachedProcess
import EvidenceFlow.Proofs.Engine.Orders
import EvidenceFlow.Proofs.Engine.Caching
import EvidenceFlow.Proofs.Engine.Transparency
import EvidenceFlow.Proofs.Engine.Notes
import EvidenceFlow.Proofs.Engine.Provenance
import EvidenceFlow.Proofs.Engine.Isolation
import EvidenceFlow.Proofs.Engine.CopyEngines
import EvidenceFlow.Proofs.Engine.TaskEvents
import EvidenceFlow.Proofs.Engine.EngineEvents
import EvidenceFlow.Proofs.Engine.JobSteps
import EvidenceFlow.Proofs.Engine.JobCourse
import EvidenceFlow.Proofs.Engine.JobLaw
import EvidenceFlow.Proofs.Engine.JobCalls
import EvidenceFlow.Proofs.Engine.Handover
import EvidenceFlow.Proofs.Engine.TaskSparing
import EvidenceFlow.Proofs.Engine.JobQueue
import EvidenceFlow.Proofs.Pipeline.RunLaw
import EvidenceFlow.Proofs.Fingerprint.Memoization
import EvidenceFlow.Proofs.Fingerprint.Unrelated
import EvidenceFlow.Proofs.Flow.Stopping
import EvidenceFlow.Proofs.Tracker.EvidenceRuns
import EvidenceFlow.Proofs.Tracker.SessionRuns
import EvidenceFlow.Proofs.Pipeline.Predecessors
import EvidenceFlow.Proofs.Pipeline.Schedules
import EvidenceFlow.Proofs.Cache.Residency
import EvidenceFlow.Proofs.Pipeline.Metadata
import EvidenceFlow.Proofs.Evidence.Restored
import EvidenceFlow.Proofs.Tracker.DeclaredEvidence
import EvidenceFlow.Proofs.Aspect.LazyReads
import EvidenceFlow.Proofs.Pipeline.Stops
import EvidenceFlow.Proofs.Engine.Refusal
import EvidenceFlow.Proofs.Cache.Reentrance
import EvidenceFlow.Proofs.Cache.BrokenLoads
import EvidenceFlow.Proofs.Cache.LoneCalls
import EvidenceFlow.Proofs.Cache.BrokenCells
import EvidenceFlow.Proofs.Evidence.OrderedMap
import EvidenceFlow.Proofs.Evidence.Collisions
import EvidenceFlow.Proofs.Fingerprint.Weights
import EvidenceFlow.Proofs.Filter.Unions
import EvidenceFlow.Proofs.Pipeline.Building
import EvidenceFlow.Proofs.Aspect.MergeLaws
import EvidenceFlow.Proofs.Cache.Statistics
import EvidenceFlow.Proofs.Pipeline.Lifecycle
import EvidenceFlow.Proofs.Cache.FailedLoads
import EvidenceFlow.Proofs.Aspect.MissingReasons
