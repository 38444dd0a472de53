import LabOS.Library.Replay
import LabOS.System.Commits

/-!
# What the events say

The audit events are a journal of the rows. A `Registry` has what can be read of each row from
the events about it, and `Registry.read` says what one event adds to it: which row it is about, what
becomes of that row, and which events make no sense where they stand, as a second decision on an
approval or a release of an export that was rejected. It is a reading of the events of its own, and
knows nothing of requests.
-/

namespace Json

/-- A text of a value. -/
@[simp] def asText : Json → Option String
  | .str s => some s
  | _ => none

/-- A text or `null`. -/
def asOptionalText : Json → Option (Option String)
  | .str s => some (some s)
  | .null => some none
  | _ => none

@[simp] def asNumber : Json → Option ℤ
  | .int n => some n
  | _ => none

@[simp] def asFlag : Json → Option Bool
  | .bool b => some b
  | _ => none

@[simp] theorem asOptionalText_ofOption (s : Option String) : (ofOption s).asOptionalText = some s := by
  cases s <;> rfl

end Json

namespace LabOS

open Replay

/-! ### The values of an event -/

/-- `LabState(value)`. -/
def LabState.ofValue (value : String) : Option LabState :=
  [.requested, .pendingApproval, .approved, .provisioning, .running, .stopped, .failed, .destroying,
    .destroyed, .archived].find? fun state => state.value = value

/-- `RunState(value)`. -/
def RunState.ofValue (value : String) : Option RunState :=
  [.queued, .starting, .running, .completed, .failed, .cancelled, .timedOut].find? fun state =>
    state.value = value

/-- `SchedulerJobState(value)`. -/
def SchedulerJobState.ofValue (value : String) : Option SchedulerJobState :=
  [.queued, .dispatched, .succeeded, .failed].find? fun state => state.value = value

/-- `SchedulerAction(value)`. -/
def SchedulerAction.ofValue (value : String) : Option SchedulerAction :=
  [.createLab, .startRun].find? fun action => action.value = value

/-- `RuntimeClass(value)`. -/
def RuntimeClass.ofValue (value : String) : Option RuntimeClass :=
  [.container, .microvm].find? fun runtimeClass => runtimeClass.value = value

@[simp] theorem LabState.ofValue_value (state : LabState) : ofValue state.value = some state := by
  cases state <;> decide

@[simp] theorem RunState.ofValue_value (state : RunState) : ofValue state.value = some state := by
  cases state <;> decide

@[simp] theorem SchedulerJobState.ofValue_value (state : SchedulerJobState) :
    ofValue state.value = some state := by
  cases state <;> decide

@[simp] theorem SchedulerAction.ofValue_value (action : SchedulerAction) :
    ofValue action.value = some action := by
  cases action <;> decide

@[simp] theorem RuntimeClass.ofValue_value (runtimeClass : RuntimeClass) :
    ofValue runtimeClass.value = some runtimeClass := by
  cases runtimeClass <;> decide

/-- The kinds of events there are. -/
inductive EventKind where
  | labRequested
  | labDestroyed
  | labDestroyRetryFailed
  | labDestroyFailed
  | labReconciliationFailed
  | runtimeLabOrphanDetected
  | runtimeLabZombieDetected
  | runQueued
  | runTimedOut
  | approvalRequested
  | approvalApproved
  | approvalDenied
  | approvalExpired
  | exportRequested
  | exportStaged
  | exportReleased
  | exportReleaseBlocked
  | exportDenied
  | snapshotCreated
  | snapshotRestored
  | secretLeaseIssued
  | secretLeaseRevoked
  | secretLeaseExpired
  | schedulerJobEnqueued
  | schedulerJobDispatched
  | schedulerJobSucceeded
  | schedulerJobFailed
  | schedulerJobRequeued

namespace EventKind

/-- All of them. -/
def all : List EventKind :=
  [.labRequested, .labDestroyed, .labDestroyRetryFailed, .labDestroyFailed, .labReconciliationFailed,
    .runtimeLabOrphanDetected, .runtimeLabZombieDetected, .runQueued, .runTimedOut, .approvalRequested,
    .approvalApproved, .approvalDenied, .approvalExpired, .exportRequested, .exportStaged, .exportReleased,
    .exportReleaseBlocked, .exportDenied, .snapshotCreated, .snapshotRestored, .secretLeaseIssued,
    .secretLeaseRevoked, .secretLeaseExpired, .schedulerJobEnqueued, .schedulerJobDispatched,
    .schedulerJobSucceeded, .schedulerJobFailed, .schedulerJobRequeued]

/-- Its `event_type`. -/
def eventType : EventKind → String
  | .labRequested => "lab.requested"
  | .labDestroyed => "lab.destroyed"
  | .labDestroyRetryFailed => "lab.destroy_retry_failed"
  | .labDestroyFailed => "lab.destroy_failed"
  | .labReconciliationFailed => "lab.reconciliation_failed"
  | .runtimeLabOrphanDetected => "runtime_lab.orphan_detected"
  | .runtimeLabZombieDetected => "runtime_lab.zombie_detected"
  | .runQueued => "run.queued"
  | .runTimedOut => "run.timed_out"
  | .approvalRequested => "approval.requested"
  | .approvalApproved => "approval.approved"
  | .approvalDenied => "approval.denied"
  | .approvalExpired => "approval.expired"
  | .exportRequested => "export.requested"
  | .exportStaged => "export.staged"
  | .exportReleased => "export.released"
  | .exportReleaseBlocked => "export.release_blocked"
  | .exportDenied => "export.denied"
  | .snapshotCreated => "snapshot.created"
  | .snapshotRestored => "snapshot.restored"
  | .secretLeaseIssued => "secret_lease.issued"
  | .secretLeaseRevoked => "secret_lease.revoked"
  | .secretLeaseExpired => "secret_lease.expired"
  | .schedulerJobEnqueued => "scheduler_job.enqueued"
  | .schedulerJobDispatched => "scheduler_job.dispatched"
  | .schedulerJobSucceeded => "scheduler_job.succeeded"
  | .schedulerJobFailed => "scheduler_job.failed"
  | .schedulerJobRequeued => "scheduler_job.requeued"

/-- Its `resource_type`. -/
def resourceType : EventKind → String
  | .labRequested | .labDestroyed | .labDestroyRetryFailed | .labDestroyFailed |
      .labReconciliationFailed => "lab"
  | .runtimeLabOrphanDetected | .runtimeLabZombieDetected => "runtime_lab"
  | .runQueued | .runTimedOut => "run"
  | .approvalRequested | .approvalApproved | .approvalDenied | .approvalExpired => "approval"
  | .exportRequested | .exportStaged | .exportReleased | .exportReleaseBlocked | .exportDenied => "export"
  | .snapshotCreated | .snapshotRestored => "snapshot"
  | .secretLeaseIssued | .secretLeaseRevoked | .secretLeaseExpired => "secret_lease"
  | .schedulerJobEnqueued | .schedulerJobDispatched | .schedulerJobSucceeded | .schedulerJobFailed |
      .schedulerJobRequeued => "scheduler_job"

end EventKind

namespace EventRow

variable (e : EventRow) (key : String)

/-- The kind of an event, where it has one. -/
def kind : Option EventKind :=
  EventKind.all.find? fun kind => e.eventType = kind.eventType && e.resourceType = some kind.resourceType

@[simp] def text : Option String := (Json.get? e.payload key).bind Json.asText

@[simp] def optionalText : Option (Option String) := (Json.get? e.payload key).bind Json.asOptionalText

@[simp] def number : Option ℤ := (Json.get? e.payload key).bind Json.asNumber

@[simp] def flag : Option Bool := (Json.get? e.payload key).bind Json.asFlag

end EventRow

/-! ### What is kept of each row -/

structure LabEntry where
  profileName : String
  runtimeClass : RuntimeClass
  state : LabState
  destroyAttempts : ℕ := 0
  lastDestroyError : Option String := none

structure RunEntry where
  labId : String
  command : String
  state : RunState

structure ApprovalEntry where
  labId : Option String
  resourceType : String
  resourceId : String
  action : String
  state : ApprovalState := .requested
  approved : Bool := false
  decisionComment : Option String := none
  decidedBy : Option String := none

/-- The paths are the texts of the columns. -/
structure ExportEntry where
  labId : String
  runId : Option String
  sourcePath : String
  state : ExportState := .quarantined
  quarantinePath : String
  releasedPath : Option String := none
  approvalRequired : Bool
  sha256 : String
  sizeBytes : ℕ
  denialReason : Option String := none

structure SnapshotEntry where
  labId : String
  backendRef : String

structure LeaseEntry where
  labId : String
  secretName : String
  approved : Bool
  /-- What the clock of its expiry shows. -/
  expiresAt : ℤ
  revoked : Bool := false

structure JobEntry where
  action : SchedulerAction
  requesterId : String
  scheduledFor : ℤ
  maxAttempts : ℕ
  state : SchedulerJobState := .queued
  attemptCount : ℕ := 0
  lastError : Option String := none
  resultResourceType : Option String := none
  resultResourceId : Option String := none

def LabRow.entry (row : LabRow) : LabEntry :=
  ⟨row.profileName, row.runtimeClass, row.state, row.destroyAttempts, row.lastDestroyError⟩

def RunRow.entry (row : RunRow) : RunEntry := ⟨row.labId, row.command, row.state⟩

def ApprovalRow.entry (row : ApprovalRow) : ApprovalEntry :=
  ⟨row.labId, row.resourceType, row.resourceId, row.action, row.state, row.approved, row.decisionComment,
    row.decidedBy⟩

def ExportRow.entry (row : ExportRow) : ExportEntry :=
  ⟨row.labId, row.runId, row.sourcePath, row.state, row.quarantinePath.text,
    row.releasedPath.map PosixPath.text, row.approvalRequired, row.sha256, row.sizeBytes, row.denialReason⟩

def SnapshotRow.entry (row : SnapshotRow) : SnapshotEntry := ⟨row.labId, row.backendRef.text⟩

def SecretLeaseRow.entry (row : SecretLeaseRow) : LeaseEntry :=
  ⟨row.labId, row.secretName, row.approved, row.expiresAt.wall, row.revokedAt.isSome⟩

def SchedulerJobRow.entry (row : SchedulerJobRow) : JobEntry :=
  ⟨row.action, row.requesterId, row.scheduledFor.wall, row.maxAttempts, row.state, row.attemptCount,
    row.lastError, row.resultResourceType, row.resultResourceId⟩

/-- What the events say of all rows. -/
structure Registry where
  labs : String → Option LabEntry
  runs : String → Option RunEntry
  approvals : String → Option ApprovalEntry
  exports : String → Option ExportEntry
  snapshots : String → Option SnapshotEntry
  leases : String → Option LeaseEntry
  jobs : String → Option JobEntry

namespace Registry

/-- Before the first event. -/
def empty : Registry :=
  ⟨fun _ => none, fun _ => none, fun _ => none, fun _ => none, fun _ => none, fun _ => none, fun _ => none⟩

/-- What is to be read of a store. -/
def ofStore (st : Store) : Registry where
  labs := viewOf st.labs LabRow.entry
  runs := viewOf st.runs RunRow.entry
  approvals := viewOf st.approvals ApprovalRow.entry
  exports := viewOf st.exports ExportRow.entry
  snapshots := viewOf st.snapshots SnapshotRow.entry
  leases := viewOf st.secretLeases SecretLeaseRow.entry
  jobs := viewOf st.schedulerJobs SchedulerJobRow.entry

/-! ### Reading an event -/

variable (g : Registry) (id : String) (e : EventRow)

def changeLab (f : LabEntry → Option LabEntry) : Option Registry :=
  (change g.labs id f).map fun labs => { g with labs := labs }

def changeRun (f : RunEntry → Option RunEntry) : Option Registry :=
  (change g.runs id f).map fun runs => { g with runs := runs }

def changeApproval (f : ApprovalEntry → Option ApprovalEntry) : Option Registry :=
  (change g.approvals id f).map fun approvals => { g with approvals := approvals }

def changeExport (f : ExportEntry → Option ExportEntry) : Option Registry :=
  (change g.exports id f).map fun exports => { g with exports := exports }

def changeLease (f : LeaseEntry → Option LeaseEntry) : Option Registry :=
  (change g.leases id f).map fun leases => { g with leases := leases }

def changeJob (f : JobEntry → Option JobEntry) : Option Registry :=
  (change g.jobs id f).map fun jobs => { g with jobs := jobs }

def labRequested : Option Registry := do
  let profileName ← e.text "profile_name"
  let runtimeClass ← (e.text "runtime_class").bind RuntimeClass.ofValue
  let state ← (e.text "state").bind LabState.ofValue
  let labs ← add g.labs id { profileName := profileName, runtimeClass := runtimeClass, state := state }
  return { g with labs := labs }

/-- A lab that was not destroyed is; a pass says how often it was tried. -/
def labDestroyed : Option Registry :=
  changeLab g id fun lab =>
    if lab.state = .destroyed then none
    else match e.number "attempt" with
      | none => some { lab with state := .destroyed }
      | some n => some { lab with state := .destroyed, destroyAttempts := n.toNat, lastDestroyError := none }

/-- A destroy of a lab failed, and leaves it in a state. -/
def destroyFailed (state : LabState) : Option Registry := do
  let n ← e.number "attempt"
  let reason ← e.optionalText "reason"
  changeLab g id fun lab =>
    if lab.state = .destroying then
      some { lab with state := state, destroyAttempts := n.toNat, lastDestroyError := reason }
    else none

def runQueued : Option Registry := do
  let labId ← e.labId
  let _ ← g.labs labId
  let command ← e.text "command"
  let state ← (e.text "state").bind RunState.ofValue
  let runs ← add g.runs id { labId := labId, command := command, state := state }
  return { g with runs := runs }

def approvalRequested : Option Registry := do
  let resourceType ← e.text "resource_type"
  let resourceId ← e.text "resource_id"
  let action ← e.text "action"
  let approvals ← add g.approvals id
    { labId := e.labId, resourceType := resourceType, resourceId := resourceId, action := action }
  return { g with approvals := approvals }

/-- What a decision makes of the resource of an approval. -/
def decideResource (approval : ApprovalEntry) (decision : App.Decision) (comment : Option String) :
    Option Registry :=
  if approval.resourceType = "lab" then
    changeLab g approval.resourceId fun lab =>
      some { lab with state := if decision = .approved then .approved else .failed }
  else if approval.resourceType = "export" then
    changeExport g approval.resourceId fun row => some <|
      if decision = .approved then
        { row with approvalRequired := false, state := .approved, denialReason := none }
      else { row with state := .rejected, denialReason := comment }
  else some g

/-- A pending approval is decided, and what it is for follows. -/
def approvalDecided (decision : App.Decision) : Option Registry := do
  let actor ← e.actorId
  let comment ← e.optionalText "comment"
  let approval ← g.approvals id
  let g ← changeApproval g id fun approval =>
    if approval.state = .requested then
      some { approval with
        state := decision.state
        approved := decision = .approved
        decisionComment := comment
        decidedBy := some actor }
    else none
  decideResource g approval decision comment

/-- What an expiry makes of the resource of an approval, where it is there. -/
def expireResource (approval : ApprovalEntry) : Registry :=
  if approval.resourceType = "lab" then
    (changeLab g approval.resourceId fun lab =>
      if lab.state = .pendingApproval then some { lab with state := .failed } else none).getD g
  else if approval.resourceType = "export" then
    (changeExport g approval.resourceId fun row => some { row with
      state := .rejected
      denialReason := some "approval request expired"
      approvalRequired := false }).getD g
  else g

def approvalExpired : Option Registry := do
  let approval ← g.approvals id
  let g ← changeApproval g id fun approval =>
    if approval.state = .requested then
      some { approval with state := .expired, approved := false, decidedBy := e.actorId }
    else none
  return expireResource g approval

def exportStaged : Option Registry := do
  let labId ← e.labId
  let _ ← g.labs labId
  let sourcePath ← e.text "source_path"
  let quarantinePath ← e.text "quarantine_path"
  let sha256 ← e.text "sha256"
  let sizeBytes ← e.number "size_bytes"
  let approvalRequired ← e.flag "approval_required"
  let exports ← add g.exports id {
    labId := labId
    runId := e.runId
    sourcePath := sourcePath
    quarantinePath := quarantinePath
    approvalRequired := approvalRequired
    sha256 := sha256
    sizeBytes := sizeBytes.toNat }
  return { g with exports := exports }

/-- An export that was neither rejected nor released, and waits for no approval, is released. -/
def exportReleased : Option Registry := do
  let releasedPath ← e.optionalText "released_path"
  changeExport g id fun row =>
    if row.state = .rejected ∨ row.state = .released ∨ row.approvalRequired = true then none
    else some { row with state := .released, releasedPath := releasedPath, denialReason := none }

/-- Only an export that waits for an approval is blocked. -/
def releaseBlocked : Option Registry :=
  changeExport g id fun row => if row.approvalRequired = true then some row else none

def exportDenied : Option Registry := do
  let reason ← e.optionalText "reason"
  changeExport g id fun row =>
    if row.state = .rejected ∨ row.state = .released then none
    else some { row with state := .rejected, denialReason := reason, releasedPath := none }

def snapshotCreated : Option Registry := do
  let labId ← e.labId
  let _ ← g.labs labId
  let backendRef ← e.text "backend_ref"
  let snapshots ← add g.snapshots id { labId := labId, backendRef := backendRef }
  return { g with snapshots := snapshots }

def leaseIssued : Option Registry := do
  let labId ← e.labId
  let _ ← g.labs labId
  let secretName ← e.text "secret_name"
  let approved ← e.flag "approved"
  let expiresAt ← e.number "expires_at"
  let leases ← add g.leases id
    { labId := labId, secretName := secretName, approved := approved, expiresAt := expiresAt }
  return { g with leases := leases }

/-- A lease is revoked once, by a request or by a pass. -/
def leaseRevoked : Option Registry :=
  changeLease g id fun lease => if lease.revoked then none else some { lease with revoked := true }

def jobEnqueued : Option Registry := do
  let requesterId ← e.actorId
  let action ← (e.text "action").bind SchedulerAction.ofValue
  let scheduledFor ← e.number "scheduled_for"
  let maxAttempts ← e.number "max_attempts"
  let jobs ← add g.jobs id {
    action := action
    requesterId := requesterId
    scheduledFor := scheduledFor
    maxAttempts := maxAttempts.toNat }
  return { g with jobs := jobs }

/-- A queued job is dispatched, and has one attempt more. -/
def jobDispatched : Option Registry := do
  let n ← e.number "attempt_count"
  changeJob g id fun job =>
    if job.state = .queued ∧ n.toNat = job.attemptCount + 1 then
      some { job with state := .dispatched, attemptCount := n.toNat, lastError := none }
    else none

/-- A dispatched job is left in a state. -/
def jobSettled (state : SchedulerJobState) : Option Registry := do
  let error ← e.optionalText "last_error"
  let resourceType ← e.optionalText "result_resource_type"
  let resourceId ← e.optionalText "result_resource_id"
  changeJob g id fun job =>
    if job.state = .dispatched then
      some { job with
        state := state
        lastError := error
        resultResourceType := resourceType
        resultResourceId := resourceId }
    else none

/-- What an event of a kind makes of what is known about the resource it is about; nothing where it makes
no sense. -/
def readKind : EventKind → Option Registry
  | .labRequested => labRequested g id e
  | .labDestroyed => labDestroyed g id e
  | .labDestroyRetryFailed => destroyFailed g id e .destroying
  | .labDestroyFailed => destroyFailed g id e .failed
  | .labReconciliationFailed => changeLab g id fun lab =>
    if lab.state = .destroyed then none else some { lab with state := .failed }
  | .runtimeLabOrphanDetected => if (g.labs id).isNone then some g else none
  | .runtimeLabZombieDetected => if (g.labs id).isSome then some g else none
  | .runQueued => runQueued g id e
  | .runTimedOut => changeRun g id fun run =>
    if run.state = .queued ∨ run.state = .starting ∨ run.state = .running then
      some { run with state := .timedOut }
    else none
  | .approvalRequested => approvalRequested g id e
  | .approvalApproved => approvalDecided g id e .approved
  | .approvalDenied => approvalDecided g id e .rejected
  | .approvalExpired => approvalExpired g id e
  | .exportRequested => if (g.exports id).isNone then some g else none
  | .exportStaged => exportStaged g id e
  | .exportReleased => exportReleased g id e
  | .exportReleaseBlocked => releaseBlocked g id
  | .exportDenied => exportDenied g id e
  | .snapshotCreated => snapshotCreated g id e
  | .snapshotRestored => if (g.snapshots id).isSome then some g else none
  | .secretLeaseIssued => leaseIssued g id e
  | .secretLeaseRevoked | .secretLeaseExpired => leaseRevoked g id
  | .schedulerJobEnqueued => jobEnqueued g id e
  | .schedulerJobDispatched => jobDispatched g id e
  | .schedulerJobSucceeded => jobSettled g id e .succeeded
  | .schedulerJobFailed => jobSettled g id e .failed
  | .schedulerJobRequeued => jobSettled g id e .queued

/-- What an event makes of what is known; nothing where it is of no kind, or about no resource. -/
def read : Option Registry := do
  let kind ← e.kind
  let id ← e.resourceId
  readKind g id e kind

variable {g id e}

theorem read_eq (kind : EventKind) (hkind : e.kind = some kind) (hid : e.resourceId = some id) :
    read g e = readKind g id e kind := by
  rw [read, hkind, hid]
  rfl

end Registry

end LabOS
