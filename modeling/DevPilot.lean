import DevPilot.Coordinator.Resume
import DevPilot.Coordinator.Dispatch
import DevPilot.Coordinator.Pruning
import DevPilot.Coordinator.Budget
import DevPilot.Coordinator.Medal
import DevPilot.Coordinator.MetricDuality
import DevPilot.Coordinator.DetectorRestart
import DevPilot.Coordinator.PruneInPlace
import DevPilot.Coordinator.Ledger
import DevPilot.Coordinator.EmptyMessages
import DevPilot.Coordinator.UpdateFailures
import DevPilot.Coordinator.MergeRestore
import DevPilot.Core.CompactionOrder
import DevPilot.Core.CompactionLayers
import DevPilot.Core.FileEdit
import DevPilot.Core.GeminiChain
import DevPilot.Core.ConfigPrecedence
import DevPilot.Desktop.Selection
import DevPilot.Desktop.Snapshots
import DevPilot.Desktop.Sanitizer
import DevPilot.Supervisor.Stopping
import DevPilot.Supervisor.Endpoint
import DevPilot.Desktop.Correlation
import DevPilot.Research.Terminal
import DevPilot.Research.HypothesisTree
import DevPilot.Research.Projection
import DevPilot.Sdk.Coherence
import DevPilot.Sdk.ProjectRegistry
import DevPilot.Replication.JobHistory
import DevPilot.Replication.JobStore
import DevPilot.Replication.Lease
import DevPilot.Replication.BlobPackCodec
import DevPilot.Replication.ExecuteGates
import DevPilot.Replication.BlobGcRuns
import DevPilot.Replication.SymlinkContainment
import DevPilot.Replication.ManifestComparison
import DevPilot.Protocol.ProbedResourceCache
import DevPilot.Protocol.SecretsSurvive
import DevPilot.Replication.ManifestRoundTrip
import DevPilot.Transcript.FinalResults
import DevPilot.Transcript.Isolation
import DevPilot.Outbox.Dependents
import DevPilot.Outbox.Reports
import DevPilot.Outbox.SnapshotOrder
import DevPilot.CatchUp.CatchUpRuns
import DevPilot.Recovery.Cancellation
import DevPilot.Transfer.Resources
import DevPilot.Transfer.Integrity
import DevPilot.Switching.SwitchRuns
import DevPilot.Quotas.DeliveryOrder
import DevPilot.Sharing.LockExclusion
import DevPilot.Startup.Transparency
import DevPilot.Streaming.Checkpoints
import DevPilot.Inputs.Conservation
import DevPilot.Transcript.Ordering
import DevPilot.Transcript.SegmentOrder
import DevPilot.Diffs.LineNumbers
import DevPilot.Protocol.AsyncTtlCache
import DevPilot.SessionChanges.MergeTurns
import DevPilot.SessionChanges.Reconcile
import DevPilot.Replication.BlobPartition
import DevPilot.Diffs.SplitByFile
import DevPilot.Replication.ManifestFingerprint
import DevPilot.Lib.ContextWindows
import DevPilot.Hunks.UnifiedDiff
import DevPilot.Hunks.AlignedLines
import DevPilot.Hunks.Fidelity
import DevPilot.Staging.PatchSelection
import DevPilot.Staging.SelectedBody
import DevPilot.Staging.EmittedHunks
import DevPilot.Staging.Patches
import DevPilot.Staging.ReadBack
import DevPilot.Staging.KeysRoundTrip
import DevPilot.Staging.ChangedNumbers
import DevPilot.Staging.PartialPatches
import DevPilot.Lib.BlankText
import DevPilot.Lib.ParentChains
import DevPilot.SessionChanges.PathCanonical
import DevPilot.Replication.ManifestScan
import DevPilot.Desktop.RuntimeLink
