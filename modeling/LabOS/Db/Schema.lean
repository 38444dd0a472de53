import LabOS.Core.PolicyModels
import LabOS.Library.Json
import LabOS.Library.Paths
import LabOS.Library.Table

/-!
# The database schema

One structure for each table, with its columns, and `Store`, the committed content of
all of them. Tables are keyed by the primary key; `lab_storage` by `lab_id`, which is
unique in it. The columns that hold a path hold the path itself; `updated_at`, which
nothing reads but the responses, and the ids of storage and event rows, which nothing
reads at all, are left out.
-/

namespace LabOS

/-! ### Times -/

/-- A `datetime` in microseconds: what its clock shows, and its offset from UTC where it
has one. -/
structure DateTime where
  wall : ℤ
  offset : Option ℤ
  deriving DecidableEq, Repr

namespace DateTime

/-- The value of `datetime.now(UTC)` at an instant. -/
def utc (instant : ℤ) : DateTime := ⟨instant, some 0⟩

/-- The instant a value stands for, where a value without offset is taken as UTC. -/
def instant (d : DateTime) : ℤ := d.wall - d.offset.getD 0

/-- `value if value.tzinfo is not None else value.replace(tzinfo=UTC)`. -/
def normalize (d : DateTime) : DateTime := ⟨d.wall, some (d.offset.getD 0)⟩

/-- A value after a round trip through a `DateTime` column of the default store, which
keeps what the clock shows and drops the offset. -/
def column (d : DateTime) : DateTime := ⟨d.wall, none⟩

/-- Later by some minutes. -/
def addMinutes (d : DateTime) (n : ℤ) : DateTime := { d with wall := d.wall + n * 60000000 }

end DateTime

/-! ### Rows -/

structure LabRow where
  id : String
  profileName : String
  state : LabState
  runtimeClass : RuntimeClass
  destroyAttempts : ℕ := 0
  lastDestroyError : Option String := none
  createdAt : DateTime
  deriving DecidableEq, Repr

structure LabStorageRow where
  labId : String
  persistenceMode : String
  rootPath : PosixPath
  workspacePath : PosixPath
  exportsPath : PosixPath
  quarantinePath : PosixPath
  snapshotsPath : PosixPath
  workspaceMountTarget : String
  deriving DecidableEq, Repr

structure RunRow where
  id : String
  labId : String
  state : RunState
  command : String
  timeoutAt : Option DateTime
  finishedAt : Option DateTime := none
  createdAt : DateTime
  deriving DecidableEq, Repr

structure ApprovalRow where
  id : String
  labId : Option String
  resourceType : String
  resourceId : String
  action : String
  reason : String
  requestedBy : String
  state : ApprovalState := .requested
  approved : Bool := false
  decisionComment : Option String := none
  decidedBy : Option String := none
  expiresAt : Option DateTime
  decidedAt : Option DateTime := none
  createdAt : DateTime
  deriving DecidableEq, Repr

/-- `ApprovalRow.default_expiry`. -/
def ApprovalRow.defaultExpiry (now : DateTime) : DateTime := now.addMinutes (24 * 60)

structure ExportRow where
  id : String
  labId : String
  runId : Option String
  sourcePath : String
  state : ExportState
  quarantinePath : PosixPath
  releasedPath : Option PosixPath
  approvalRequired : Bool
  sha256 : String
  sizeBytes : ℕ
  denialReason : Option String
  createdAt : DateTime
  deriving DecidableEq, Repr

structure SnapshotRow where
  id : String
  labId : String
  backendRef : PosixPath
  createdAt : DateTime
  deriving DecidableEq, Repr

structure SecretLeaseRow where
  id : String
  labId : String
  secretName : String
  approved : Bool
  expiresAt : DateTime
  revokedAt : Option DateTime
  createdAt : DateTime
  deriving DecidableEq, Repr

structure SchedulerJobRow where
  id : String
  action : SchedulerAction
  state : SchedulerJobState
  requesterId : String
  profileName : Option String
  labId : Option String
  command : Option String
  scheduledFor : DateTime
  attemptCount : ℕ := 0
  maxAttempts : ℕ
  lastError : Option String := none
  resultResourceType : Option String := none
  resultResourceId : Option String := none
  dispatchedAt : Option DateTime := none
  completedAt : Option DateTime := none
  createdAt : DateTime
  deriving DecidableEq, Repr

structure EventRow where
  labId : Option String := none
  runId : Option String := none
  eventType : String
  actorType : ActorType := .system
  actorId : Option String := none
  resourceType : Option String := none
  resourceId : Option String := none
  payload : List (String × Json) := []

/-- Every table. Events are only ever appended. -/
structure Store where
  labs : Table LabRow.id
  labStorage : Table LabStorageRow.labId
  runs : Table RunRow.id
  approvals : Table ApprovalRow.id
  exports : Table ExportRow.id
  snapshots : Table SnapshotRow.id
  secretLeases : Table SecretLeaseRow.id
  schedulerJobs : Table SchedulerJobRow.id
  events : List EventRow

/-- The store before the first request. -/
def Store.empty : Store := ⟨∅, ∅, ∅, ∅, ∅, ∅, ∅, ∅, []⟩

end LabOS
