import LabOS.Api.Errors
import LabOS.Api.Reads
import LabOS.Core.Overrides
import LabOS.Library.Blind
import LabOS.Library.Columns
import LabOS.Library.FaultFree
import LabOS.Library.Raising
import LabOS.Library.Replay
import LabOS.Library.RoundTrip
import LabOS.Library.Standing
import LabOS.Runtimes.DockerRuntime
import LabOS.Runtimes.Lifecycle
import LabOS.System.Aborts
import LabOS.System.Approvals
import LabOS.System.Areas
import LabOS.System.Archives
import LabOS.System.Audit
import LabOS.System.AuditLog
import LabOS.System.Captures
import LabOS.System.Clearings
import LabOS.System.Coherence
import LabOS.System.Commits
import LabOS.System.Confined
import LabOS.System.Containers
import LabOS.System.Decisions
import LabOS.System.DestroyRetries
import LabOS.System.DestroyedStorage
import LabOS.System.Dispatches
import LabOS.System.Expiries
import LabOS.System.ExportPaths
import LabOS.System.FailedRestores
import LabOS.System.Fleet
import LabOS.System.Frames
import LabOS.System.Holdings
import LabOS.System.HostMounts
import LabOS.System.Invariants
import LabOS.System.Isolation
import LabOS.System.Jobs
import LabOS.System.Journal
import LabOS.System.Labs
import LabOS.System.Layout
import LabOS.System.Leases
import LabOS.System.Lifecycles
import LabOS.System.Manifests
import LabOS.System.Moves
import LabOS.System.Pass
import LabOS.System.PassRows
import LabOS.System.Provenance
import LabOS.System.Provisioning
import LabOS.System.Queue
import LabOS.System.Reads
import LabOS.System.Records
import LabOS.System.References
import LabOS.System.Refusals
import LabOS.System.Regions
import LabOS.System.Registry
import LabOS.System.Rejections
import LabOS.System.ReleasedArea
import LabOS.System.Releases
import LabOS.System.Restores
import LabOS.System.Retention
import LabOS.System.Schedules
import LabOS.System.Secrets
import LabOS.System.SnapshotRoundTrip
import LabOS.System.Staging
import LabOS.System.StrayMembers
import LabOS.System.Symbolic
import LabOS.System.Workers
