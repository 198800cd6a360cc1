import AgentObservability.Contracts.Boundary
import AgentObservability.Domain.Rejections
import AgentObservability.Store.Freshness
import AgentObservability.Store.Cutoff
import AgentObservability.Store.TierPartition
import AgentObservability.Store.LifecycleScan
import AgentObservability.Store.ColdArchives
import AgentObservability.Store.IncrementalTopology
import AgentObservability.Store.RetentionArchive
import AgentObservability.Store.Accounting
import AgentObservability.Store.Replay
import AgentObservability.Codex.LedgerRefinement
import AgentObservability.CodexConfig.Session
import AgentObservability.Collector.Wakeups
import AgentObservability.Dashboard.LeaseGuarantees
import AgentObservability.Runtime.SingletonRuns
import AgentObservability.Report.ExactPricing
import AgentObservability.Collector.HttpResponse
import AgentObservability.Runtime.Scheduler
import AgentObservability.Runtime.Reservation
import AgentObservability.Runtime.ConfigSave
import AgentObservability.Runtime.StorageCoherence
import AgentObservability.Report.Summary
import AgentObservability.Dashboard.CostStatus
import AgentObservability.Dashboard.GeneratedAt
import AgentObservability.CodexConfig.Restore
import AgentObservability.CodexConfig.TomlTree
import AgentObservability.Runtime.StorageAccounting
import AgentObservability.StaticReport.RoundTrip
