import Milo.Reasoning.Dict
import Milo.Reasoning.Transition
import Milo.Reasoning.Action
import Milo.Budget.ModelProfile
import Milo.Budget.Tracker
import Milo.Reasoning.Holds
import Milo.Budget.Ceilings
import Milo.Budget.DollarCeiling
import Milo.Python.Text
import Milo.Quota.Lease
import Milo.Quota.Pause
import Milo.Quota.LeaseProtocol
import Milo.Reasoning.Dependency
import Milo.Swarm.Executor
import Milo.Swarm.ExecutorPasses
import Milo.Swarm.ExecutorRuns
import Milo.Finalization.Claim
import Milo.Finalization.RunFinalizer
import Milo.Finalization.OneDecision
import Milo.Scheduler.ProviderScheduler
import Milo.Scheduler.Settlement
import Milo.Python.Decimal
import Milo.Python.Json
import Milo.Swarm.Comparison
import Milo.Swarm.OneMeaning
import Milo.Reasoning.Grouping
import Milo.Swarm.Contracts
import Milo.Swarm.Structured
import Milo.Swarm.ConflictPolicy
import Milo.Swarm.Grounding
import Milo.Swarm.Verifier
import Milo.Swarm.Settling
import Milo.Swarm.Consistency
import Milo.Swarm.Builder
import Milo.Swarm.Verification
import Milo.Swarm.Publication
import Milo.Budget.UsageLedger
import Milo.Budget.UsageMerge
import Milo.Python.Datetime
import Milo.Swarm.CurrentVerdict
import Milo.Catalog.Coverage
import Milo.Catalog.Settlements
import Milo.Catalog.Vocabulary
import Milo.Catalog.WorkScope
import Milo.Catalog.BatchRuns
import Milo.Catalog.Reservations
import Milo.Catalog.ReservationProtocol
import Milo.Catalog.Register
import Milo.Catalog.Compaction
import Milo.Catalog.Resolution
import Milo.Reasoning.Graded
import Milo.Swarm.Plans
import Milo.Swarm.RunState
import Milo.Swarm.RunLoop
import Milo.Swarm.RunUsage
import Milo.Swarm.RunCalls
import Milo.Swarm.RunBounds
import Milo.Catalog.Archive
import Milo.Catalog.AutoSync
import Milo.Catalog.AutoSyncRuns
import Milo.Reasoning.StableSort
import Milo.Catalog.Reconcile
import Milo.Catalog.ReconcileSets
import Milo.Budget.CallReservations
import Milo.Budget.DailyLedger
import Milo.Finalization.RunRow
import Milo.Finalization.OneWriter
import Milo.Catalog.VariantPages
import Milo.Reasoning.ReplayLog
import Milo.Swarm.EvidenceStore
import Milo.Swarm.VerdictHistory
import Milo.Reasoning.Batch
import Milo.Swarm.ConflictWrites
import Milo.Swarm.ConflictHistory
import Milo.Catalog.SnapshotCapture
import Milo.Catalog.CaptureProtocol
import Milo.Catalog.RegisterCaptures
import Milo.Catalog.RegisterUnits
import Milo.Creation.RunCreation
import Milo.Creation.OneRun
import Milo.Creation.Launch
import Milo.Creation.LaunchRace
import Milo.Catalog.Promotion
import Milo.Catalog.PromotionRuns
import Milo.Catalog.PromotionSound
import Milo.Catalog.FrozenRow
import Milo.Catalog.VariantIdentity
import Milo.Catalog.HandedRows
import Milo.Budget.DurableLedger
import Milo.Budget.DurableUsage
import Milo.Budget.UsageCalls
import Milo.Catalog.RegisterSync
import Milo.Catalog.SyncRuns
import Milo.Catalog.PreparationRace
import Milo.Catalog.CurrentSnapshot
import Milo.Catalog.RegisterFollowed
import Milo.Budget.RepeatedSettlement
import Milo.Quota.AdmissionWindow
import Milo.Scheduler.LocalWindows
import Milo.Reasoning.Chain
import Milo.Scheduler.ProviderAuthority
import Milo.Scheduler.BoundedExecution
import Milo.Budget.UsageCost
import Milo.Scheduler.ProviderStreaming
import Milo.Swarm.VerdictIndex
import Milo.Python.QuotedText
import Milo.Swarm.FactNames
import Milo.Swarm.ConflictDecisions
import Milo.Reasoning.GraphSearch
import Milo.Swarm.PlanFirewall
import Milo.Reasoning.Checks
import Milo.Swarm.ExecutorHistory
import Milo.Swarm.BatchAnswers
import Milo.Swarm.ToolArguments
import Milo.Python.JsonReader
import Milo.Reasoning.Spelling
import Milo.Swarm.EvidenceKeys
import Milo.Scope.Contract
import Milo.Python.JsonbReader
import Milo.Scope.StoredRecord
import Milo.Scope.StoredText
import Milo.Reasoning.Arrangement
import Milo.Scope.Interpret
import Milo.Catalog.SnapshotDiff
import Milo.Finalization.OutcomeRecord
import Milo.Swarm.OutcomeContract
import Milo.Government.RequestPacing
import Milo.Budget.RefusedCalls
import Milo.Tools.OutputSchema
