import QuotaWarden.Act
import QuotaWarden.Admission
import QuotaWarden.ApiObject
import QuotaWarden.Cluster.InMemory
import QuotaWarden.Cluster.Rehearsal
import QuotaWarden.ClusterApi
import QuotaWarden.CommandLine.Arguments
import QuotaWarden.CommandLine.Option
import QuotaWarden.Decimal.Basic
import QuotaWarden.Decimal.Context
import QuotaWarden.Decimal.Reader
import QuotaWarden.Dictionary
import QuotaWarden.Enforcement
import QuotaWarden.EventRecorder
import QuotaWarden.Eviction
import QuotaWarden.Fault
import QuotaWarden.Journal
import QuotaWarden.Json.Basic
import QuotaWarden.Json.Double
import QuotaWarden.Json.Encoding
import QuotaWarden.Json.Reader
import QuotaWarden.Json.Writer
import QuotaWarden.Key
import QuotaWarden.Launch
import QuotaWarden.Main
import QuotaWarden.Metrics
import QuotaWarden.Metrics.Exposition
import QuotaWarden.Number.Binary
import QuotaWarden.Number.Integer
import QuotaWarden.Number.Numeral
import QuotaWarden.Number.Power
import QuotaWarden.Number.Shortest
import QuotaWarden.Operator.Basic
import QuotaWarden.Operator.Reconcile
import QuotaWarden.Operator.Run
import QuotaWarden.Pod
import QuotaWarden.Pod.Reader
import QuotaWarden.Policy
import QuotaWarden.PolicyCache
import QuotaWarden.PolicyStatus
import QuotaWarden.Program
import QuotaWarden.Projection
import QuotaWarden.Proofs.AdmissionAgreement
import QuotaWarden.Proofs.Amounts
import QuotaWarden.Proofs.CacheChanges
import QuotaWarden.Proofs.CacheContents
import QuotaWarden.Proofs.CacheReads
import QuotaWarden.Proofs.ClusterCalls
import QuotaWarden.Proofs.Convergence
import QuotaWarden.Proofs.Evaluation
import QuotaWarden.Proofs.EvictionOrder
import QuotaWarden.Proofs.EvictionSafety
import QuotaWarden.Proofs.EvictionSteps
import QuotaWarden.Proofs.FailOpen
import QuotaWarden.Proofs.FailedNamespaces
import QuotaWarden.Proofs.InMemoryCalls
import QuotaWarden.Proofs.IndexCoherence
import QuotaWarden.Proofs.Isolation
import QuotaWarden.Proofs.PendingKeys
import QuotaWarden.Proofs.PolicyReading
import QuotaWarden.Proofs.PolicySync
import QuotaWarden.Proofs.QueueRuns
import QuotaWarden.Proofs.RetriedKeys
import QuotaWarden.Proofs.Sorting
import QuotaWarden.Proofs.ToldChanges
import QuotaWarden.Proofs.Triggers
import QuotaWarden.Proofs.Victims
import QuotaWarden.Quantity
import QuotaWarden.ReadersWriterLock
import QuotaWarden.Settings
import QuotaWarden.Site
import QuotaWarden.Surroundings
import QuotaWarden.Text.Blank
import QuotaWarden.Text.Digit
import QuotaWarden.Text.Printable
import QuotaWarden.Text.Quoted
import QuotaWarden.Text.Surrogate
import QuotaWarden.TimeScale
import QuotaWarden.Usage
import QuotaWarden.WatchCache.Basic
import QuotaWarden.WatchCache.Delivery
import QuotaWarden.WatchCache.Index
import QuotaWarden.WatchCache.Loop
import QuotaWarden.WatchCache.Script
import QuotaWarden.Webhook.Http
import QuotaWarden.Webhook.Review
import QuotaWarden.WorkQueue
import QuotaWarden.Proofs.LockExclusion
import QuotaWarden.Proofs.LockWaking
import QuotaWarden.Proofs.DelayedKeys
import QuotaWarden.Proofs.PolicyLimits
import QuotaWarden.Proofs.RelistAtomic
import QuotaWarden.Proofs.ReconcileCourses
import QuotaWarden.Proofs.SyncOutcomes
import QuotaWarden.Proofs.SelfTriggering
import QuotaWarden.Proofs.DecimalValues
import QuotaWarden.Proofs.ExactUsage
import QuotaWarden.Proofs.UnitTexts
import QuotaWarden.Proofs.PublishedAmounts
import QuotaWarden.Proofs.CandidateDecision
import QuotaWarden.Proofs.RequestCalls
import QuotaWarden.Proofs.ReviewDecision
import QuotaWarden.Proofs.ViolationVictims
import QuotaWarden.Proofs.QueueOrder
import QuotaWarden.Proofs.QueueShutdown
import QuotaWarden.Proofs.ResyncRounds
import QuotaWarden.Proofs.AdmissionCounts
import QuotaWarden.Proofs.PodDecoding
import QuotaWarden.Proofs.RoundedSums
import QuotaWarden.Proofs.FewerPods
import QuotaWarden.Proofs.ExactTime
import QuotaWarden.Proofs.StreamContents
import QuotaWarden.Proofs.LoopCalls
import QuotaWarden.Proofs.CacheMirror
import QuotaWarden.Proofs.WatchPacing
