import StockContent.Effects.ExternalEffects
import StockContent.Effects.DispatchFencing
import StockContent.Effects.DispatchBound
import StockContent.Signals.OutboxRuns
import StockContent.Verification.PlanValidation
import StockContent.Verification.RefreshRuns
import StockContent.Ledger.SnapshotCommit
import StockContent.Lifecycle.LifecycleReaders
import StockContent.Bundle.BundleMembership
import StockContent.Lifecycle.OutcomeRuns
import StockContent.Visual.PacketReaders
import StockContent.Visual.PublicationRuns
import StockContent.Verification.ManualRetry
import StockContent.Verification.RefreshLeases
import StockContent.Verification.WorkerRuns
import StockContent.Verification.ClosureRuns
import StockContent.Tasks.ProcessRuns
import StockContent.Knowledge.KnowledgeReads
import StockContent.Verification.SourceHeads
import StockContent.Lineage.SnapshotLineage
import StockContent.Lineage.SnapshotArtifacts
import StockContent.Retention.RetentionRuns
import StockContent.Knowledge.CrossVideoRuns
import StockContent.Hls.DownloadClosure
import StockContent.Hls.DownloadLimits
import StockContent.Identity.SnapshotIdentity
import StockContent.Tasks.RunFencing
import StockContent.Publication.ManifestSeal
import StockContent.Publication.PublishAtomicity
import StockContent.Publication.PublishIdempotence
import StockContent.Publication.PublicationClients
import StockContent.Pipeline.ReceiptRuns
import StockContent.Pipeline.PipelineResume
import StockContent.Bundle.BundleBinding
import StockContent.Segmentation.SegmentCoverage
import StockContent.Segmentation.BlockPlan
import StockContent.Ledger.ClaimStateEvent
import StockContent.Lifecycle.EventSelection
import StockContent.Verification.ResultRows
import StockContent.Verification.CompletionRetries
import StockContent.Verification.IdentityText
import StockContent.Pipeline.RegistryRuns
import StockContent.Signals.FormalSignals
import StockContent.Segmentation.Reconciliation
import StockContent.Signals.QueryMapping
import StockContent.Pipeline.CheckpointCodec
import StockContent.Numeric.NumericMatch
import StockContent.Numeric.NumericSpans
import StockContent.Sampling.WindowOrder
import StockContent.Sampling.FrameCompleteness
import StockContent.Knowledge.ThesisScope
import StockContent.Artifacts.Membership
import StockContent.Knowledge.CalendarReads
import StockContent.Knowledge.EquityOutcome
import StockContent.Identity.Noninterference
import StockContent.Knowledge.AtomicClaimValidator
import StockContent.Ingestion.CredentialAllowlist
import StockContent.Knowledge.FactorSignals
import StockContent.Transcript.TranscriptCoverage
import StockContent.Transcript.TranscriptSoundness
import StockContent.Transcript.SelectionPolicy
import StockContent.Hls.MasterSelection
import StockContent.Evidence.SupportSafety
import StockContent.Evidence.CrossModalConflict
import StockContent.Lineage.SnapshotAncestry
import StockContent.Segmentation.TemporalWindow
import StockContent.Knowledge.AmbiguityThinning
import StockContent.Knowledge.ConflictSupersession
import StockContent.Knowledge.CorroborationCounts
import StockContent.Knowledge.KnowledgeDeduplicator
import StockContent.Knowledge.ConflictService
import StockContent.Knowledge.ClaimCanonicalizer
import StockContent.Migrations.MigrationLedger
import StockContent.Sources.SafeFetch
