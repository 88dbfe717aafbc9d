import Ajenda.FiniteTable
import Ajenda.RankedList
import Ajenda.TransitionSystem
import Ajenda.KeyedRows
import Ajenda.LockedRows
import Ajenda.JsonValue
import Ajenda.DoubleRounding
import Ajenda.LuaCjson
import Ajenda.RedisQueueScripts
import Ajenda.RedisQueueRun
import Ajenda.RedisQueueInvariant
import Ajenda.RedisQueuePayload
import Ajenda.RedisQueueClaims
import Ajenda.DeadLetterRoundTrip
import Ajenda.LocalQueueAdapter
import Ajenda.QueueAdapters
import Ajenda.Base64
import Ajenda.HttpIdempotency
import Ajenda.HttpIdempotencyAuthorities
import Ajenda.HttpIdempotencyClaims
import Ajenda.TenantQuota
import Ajenda.RuntimeState
import Ajenda.RuntimeQueueDispatcher
import Ajenda.MissionInputBinding
import Ajenda.MissionRollup
import Ajenda.WorkerRuntime
import Ajenda.RuntimeMaintainer
import Ajenda.ExecutionCoordinator
import Ajenda.RuntimeTransactions
import Ajenda.RollupFrame
import Ajenda.WorkerMethods
import Ajenda.LeaseFrame
import Ajenda.LeaseFencing
import Ajenda.RuntimeWorld
import Ajenda.TaskDelivery
import Ajenda.DispatchLedger
import Ajenda.DeliveryFrame
import Ajenda.DeliveryTransactions
import Ajenda.QueueDelivery
import Ajenda.QueueAdapterRuns
import Ajenda.DispatchPublication
import Ajenda.Deliverability
import Ajenda.ReadCommitted
import Ajenda.RuntimeCluster
import Ajenda.DisjointSets
import Ajenda.CanonicalText
import Ajenda.ExperienceSignatures
import Ajenda.ExperienceRecurrence
import Ajenda.ExperienceEvaluation
import Ajenda.KnowledgeQualification
import Ajenda.ExperiencePartitions
import Ajenda.KnowledgeGrounding
import Ajenda.EvidenceCounts
import Ajenda.ContradictionMonotonicity
import Ajenda.ExperienceOrder
import Ajenda.StopRequests
import Ajenda.MissionCompletion
import Ajenda.ClockReadings
import Ajenda.ConcurrentCompletion
import Ajenda.EmailSendIdempotency
import Ajenda.SmtpSend
import Ajenda.OpenWrite
import Ajenda.StripePlanSync
import Ajenda.LoginSessions
import Ajenda.MeteredUsage
import Ajenda.LegacyQueueMigration
import Ajenda.GoalProgress
import Ajenda.GoalGapRecognition
import Ajenda.ImpactMaterialization
import Ajenda.NewestEntries
import Ajenda.KnowledgeLifecycle
import Ajenda.ConsolidationHistory
import Ajenda.KnowledgeReinforcement
import Ajenda.LocalQueueIsolation
import Ajenda.RedisQueueOrder
import Ajenda.FailurePropagation
import Ajenda.RollupPasses
import Ajenda.RollupTermination
import Ajenda.RollupRearming
import Ajenda.RollupReturns
import Ajenda.DeadPrerequisites
import Ajenda.RollupReadiness
import Ajenda.MaintenancePass
import Ajenda.RetryCounts
import Ajenda.RetryBudget
import Ajenda.DepthFirst
import Ajenda.TaskGraphContract
import Ajenda.TaskGraphForm
import Ajenda.TaskGraphNormalisation
import Ajenda.PositionalMerge
import Ajenda.MissionAcceptance
import Ajenda.AcceptanceOrder
import Ajenda.KnowledgeFrontier
import Ajenda.FrontierAuthority
import Ajenda.EpisodeClasses
import Ajenda.EvidenceDerivation
import Ajenda.DecimalRounding
import Ajenda.KpiAttainment
import Ajenda.GoalEvaluation
import Ajenda.ObservationAttribution
import Ajenda.OutcomeEvaluation
import Ajenda.OutcomeSoundness
import Ajenda.StableRanking
import Ajenda.DecisionScoring
import Ajenda.DecisionFeasibility
import Ajenda.DecisionSupport
import Ajenda.WireText
import Ajenda.RespReplies
import Ajenda.RespReading
import Ajenda.RespPrefixes
import Ajenda.JsonContainment
import Ajenda.KnowledgeRecords
import Ajenda.KnowledgeRetrieval
import Ajenda.RetrievalCompleteness
import Ajenda.WebhookDeliveries
import Ajenda.StripeRevenue
import Ajenda.Corroboration
import Ajenda.TenantChoice
import Ajenda.CrmRecords
import Ajenda.WindowedPages
import Ajenda.CrmSearch
import Ajenda.CrmWrites
import Ajenda.CrmIdentity
import Ajenda.CrmClobbering
import Ajenda.AcceptedPairings
import Ajenda.RevisionChains
import Ajenda.NeedTransactions
import Ajenda.NeedChain
import Ajenda.FixedWindows
import Ajenda.RateLimiter
import Ajenda.RateLimitLaw
import Ajenda.TextReplacement
import Ajenda.Redaction
import Ajenda.RedactionCompleteness
import Ajenda.ArtifactSchemas
import Ajenda.DeliverableProjection
import Ajenda.DeliverableCompletion
import Ajenda.DeliverableSoundness
