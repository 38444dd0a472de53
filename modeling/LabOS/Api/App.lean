import LabOS.Security.ExportGate
import LabOS.Security.SecretBroker
import LabOS.Storage.Snapshots
import LabOS.Workers.Reconciler

/-!
# The request handlers

One program for each request that writes, and one for the list of labs, in the words of the
handler: the rows it reads, its checks in their order, its effects on the disk and the rows
and events it writes. A handler returns the row its response shows. The block that commits is not
part of them; `releaseExport` alone returns an exception to raise after the commit,
because a release that an approval blocks commits the event that says so.
-/

namespace LabOS

open Exceptional FileOps

variable {β : Type} [Content β]

namespace App

/-! ### Labs and runs -/

/-- How `_create_lab_record` answers what policy evaluation raises. -/
def requestError : PolicyError → Exc
  | .keyError _ => .resourceNotFound "profile"
  | .valueError message => .http 400 message
  | .typeError => .policy .typeError

/-- `_record_approval_request`. -/
def recordApprovalRequest (env : Environment β) (now : ℤ) (labId : Option String)
    (resourceType resourceId action reason requestedBy : String) : SessionM β ApprovalRow := do
  let id ← newId env.uuid4
  let approval : ApprovalRow := {
    id := id
    labId := labId
    resourceType := resourceType
    resourceId := resourceId
    action := action
    reason := reason
    requestedBy := requestedBy
    state := .requested
    approved := false
    expiresAt := some (ApprovalRow.defaultExpiry (.utc now)).column
    createdAt := (DateTime.utc now).column
  }
  addRow .approvals approval
  return approval

/-- The event of an approval request. -/
def approvalRequested (approval : ApprovalRow) (labId runId : Option String) : EventRow where
  eventType := "approval.requested"
  labId := labId
  runId := runId
  actorType := .system
  actorId := some "policy-engine"
  resourceType := some "approval"
  resourceId := some approval.id
  payload := [
    ("approval_id", .str approval.id),
    ("resource_type", .str approval.resourceType),
    ("resource_id", .str approval.resourceId),
    ("action", .str approval.action)]

/-- The row of a lab that is allocated its storage. -/
def newLab (now : ℤ) (labId : String) (decision : RequestDecision) : LabRow where
  id := labId
  profileName := decision.profileName
  state := if decision.approvalRequired then .pendingApproval else .approved
  runtimeClass := decision.runtimeClass
  createdAt := (DateTime.utc now).column

/-- The storage row of an allocation. -/
def newLabStorage (allocation : StorageAllocation) : LabStorageRow where
  labId := allocation.labId
  persistenceMode := allocation.persistenceMode.value
  rootPath := allocation.rootPath
  workspacePath := allocation.workspacePath
  exportsPath := allocation.exportsPath
  quarantinePath := allocation.quarantinePath
  snapshotsPath := allocation.snapshotsPath
  workspaceMountTarget := allocation.workspaceMountTarget

/-- The approval a new lab waits for, where its decision asks for one. -/
def requestLabApproval (env : Environment β) (now : ℤ) (labId : String) (decision : RequestDecision)
    (requesterType : RequesterType) : SessionM β Unit :=
  whenever decision.approvalRequired do
    let approval ← recordApprovalRequest env now (some labId) "lab" labId "lab.create"
      (", ".intercalate decision.approvalReasons) requesterType.value
    recordEvent (approvalRequested approval (some labId) none)

/-- `_create_lab_record`. -/
def createLabRecord (env : Environment β) (now : ℤ) (profileName : String) (requesterType : RequesterType) :
    SessionM β LabRow := do
  let decision ← fromExcept
    ((PolicyEngine.validateRequest env.profiles profileName [] requesterType.value).mapError requestError)
  let labId ← newId env.uuid4
  let allocation ← onDisk <| ManagedStorageAllocator.allocate env.root labId {
    filesystemMode := decision.filesystemMode
    persistenceMode := decision.persistenceMode
    diskMb := decision.diskMb
    retentionDays := decision.retentionDays }
  let row := newLab now labId decision
  addRow .labs row
  addRow .labStorage (newLabStorage allocation)
  requestLabApproval env now labId decision requesterType
  recordEvent {
    eventType := "lab.requested"
    labId := some labId
    actorType := requesterType.actorType
    resourceType := some "lab"
    resourceId := some labId
    payload := [
      ("profile_name", .str decision.profileName),
      ("runtime_class", .str decision.runtimeClass.value),
      ("state", .str row.state.value)] }
  return row

/-- `GET /labs`: every lab with its storage row, which is looked up in a dictionary. -/
def listLabs : SessionM β (List (LabRow × LabStorageRow)) := do
  let s ← get
  let rows := s.store.labs.select (fun _ => true) (ReconciliationService.before LabRow.createdAt LabRow.id)
  let labIds := rows.map LabRow.id
  let storageRows := s.store.labStorage.rows.filter fun storageRow => labIds.contains storageRow.labId
  rows.mapM fun row => do
    let storageRow ← orRaise (storageRows.find? fun storageRow => storageRow.labId = row.id)
      (.policy (.keyError row.id))
    return (row, storageRow)

/-- `_create_run_record`. -/
def createRunRecord (env : Environment β) (now : ℤ) (labId command : String) (requesterType : RequesterType) :
    SessionM β RunRow := do
  let _ ← getOr .labs labId (.resourceNotFound "lab")
  let id ← newId env.uuid4
  let row : RunRow := {
    id := id
    labId := labId
    state := .queued
    command := command
    timeoutAt := some ((DateTime.utc now).addMinutes env.defaultRunTimeoutMinutes).column
    createdAt := (DateTime.utc now).column
  }
  addRow .runs row
  recordEvent {
    eventType := "run.queued"
    labId := some labId
    runId := some row.id
    actorType := requesterType.actorType
    resourceType := some "run"
    resourceId := some row.id
    payload := [("command", .str row.command), ("state", .str row.state.value)] }
  return row

/-- `DELETE /labs/{lab_id}`. -/
def destroyLab (env : Environment β) (labId : String) : SessionM β LabRow := do
  let row ← getOr .labs labId (.resourceNotFound "lab")
  let storageRow ← getOr .labStorage row.id (.resourceNotFound "lab_storage")
  raiseIf (row.state = .destroyed) (.conflict "lab_already_destroyed" "lab")
  let allocation ← fromExcept (storageAllocationFromRow storageRow)
  onDisk (ManagedStorageAllocator.destroy env.root allocation)
  let row := { row with state := .destroyed }
  setRow .labs row
  recordEvent {
    eventType := "lab.destroyed"
    labId := some row.id
    actorType := .human
    resourceType := some "lab"
    resourceId := some row.id
    payload := [("state", .str row.state.value)] }
  return row

/-! ### Secret leases -/

/-- How `create_secret_lease` answers what the service raises. -/
def leaseError : Exc → Exc
  | .secretNotFound secretName => .http 400 s!"secret value not found for {secretName}"
  | .lookup message => .resourceNotFound message
  | .policy (.keyError message) => .resourceNotFound s!"'{message}'"
  | .policy (.valueError message) => .http 400 message
  | .value message => .http 400 message
  | e => e

/-- `POST /labs/{lab_id}/secret-leases`. -/
def createSecretLease (env : Environment β) (now : ℤ) (labId secretName : String)
    (requesterType : RequesterType) (ttlMinutes : ℤ) : SessionM β SecretLeaseRow := do
  let lease ← (SecretLeaseService.issueLease env now labId secretName ttlMinutes).adaptExcept leaseError
  recordEvent {
    eventType := "secret_lease.issued"
    labId := some labId
    actorType := requesterType.actorType
    resourceType := some "secret_lease"
    resourceId := some lease.id
    payload := [
      ("secret_name", .str lease.secretName),
      ("approved", .bool lease.approved),
      ("expires_at", .int lease.expiresAt.wall)] }
  return lease

/-- How `revoke_secret_lease` answers what the service raises. -/
def revokeError : Exc → Exc
  | .lookup message => .resourceNotFound message
  | .secretLeaseState message => .conflict message "secret_lease"
  | e => e

/-- `POST /secret-leases/{lease_id}/revoke`. -/
def revokeSecretLease (now : ℤ) (leaseId actor : String) (reason : Option String) :
    SessionM β SecretLeaseRow := do
  let lease ← (SecretLeaseService.revokeLease now leaseId).adaptExcept revokeError
  recordEvent {
    eventType := "secret_lease.revoked"
    labId := some lease.labId
    actorType := .human
    actorId := some actor
    resourceType := some "secret_lease"
    resourceId := some lease.id
    payload := [
      ("secret_name", .str lease.secretName),
      ("reason", .ofOption reason),
      ("revoked_at", (lease.revokedAt.map fun at' => Json.int at'.wall).getD .null)] }
  return lease

/-! ### Scheduler jobs -/

/-- `POST /scheduler/jobs`. -/
def enqueueSchedulerJob (env : Environment β) (now : ℤ) (request : SchedulerJobCreateRequest) :
    SessionM β SchedulerJobRow := do
  let row ← (SchedulerService.enqueue env now request).adaptExcept fun e =>
    if e = .schedulerQuotaExceeded
      then .conflict "scheduler_pending_job_quota_exceeded" "scheduler_job" else e
  recordEvent {
    eventType := "scheduler_job.enqueued"
    actorType := .scheduler
    actorId := some request.requesterId
    resourceType := some "scheduler_job"
    resourceId := some row.id
    payload := [
      ("action", .str row.action.value),
      ("scheduled_for", .int row.scheduledFor.wall),
      ("max_attempts", .int row.maxAttempts)] }
  return row

/-- The lab a job creates. -/
def createJobLab (env : Environment β) (now : ℤ) (profileName : String) : SessionM β String := do
  let lab ← createLabRecord env now profileName .scheduler
  return lab.id

/-- The run a job creates. -/
def createJobRun (env : Environment β) (now : ℤ) (labId command : String) : SessionM β String := do
  let run ← createRunRecord env now labId command .scheduler
  return run.id

/-- An event of the scheduler about a job. -/
def jobEvent (eventType : String) (row : SchedulerJobRow) (payload : List (String × Json)) : EventRow where
  eventType := eventType
  actorType := .system
  actorId := some "scheduler-worker"
  resourceType := some "scheduler_job"
  resourceId := some row.id
  payload := payload

/-- The two events of a dispatch. -/
def recordDispatch (row : SchedulerJobRow) : SessionM β Unit := do
  recordEvent (jobEvent "scheduler_job.dispatched" row
    [("action", .str row.action.value), ("attempt_count", .int row.attemptCount)])
  recordEvent (jobEvent
    (if row.state = .succeeded then "scheduler_job.succeeded"
      else if row.state = .failed then "scheduler_job.failed"
      else "scheduler_job.requeued") row
    [("state", .str row.state.value),
     ("attempt_count", .int row.attemptCount),
     ("last_error", .ofOption row.lastError),
     ("result_resource_type", .ofOption row.resultResourceType),
     ("result_resource_id", .ofOption row.resultResourceId)])

/-- `POST /scheduler/jobs/dispatch-next`. -/
def dispatchNextSchedulerJob (env : Environment β) (now : ℤ) : SessionM β SchedulerJobRow := do
  let row ← SchedulerService.runNext now (createJobLab env now) (createJobRun env now)
  let row ← orRaise row (.resourceNotFound "scheduler_job")
  recordDispatch row
  return row

/-! ### Approvals -/

/-- Has the expiry of a pending approval passed at the time of a decision? -/
def isExpired (now : ℤ) (row : ApprovalRow) : Bool :=
  match row.expiresAt with
  | none => false
  | some expiresAt => expiresAt.normalize.instant ≤ now

/-- `datetime.now(expires_at.tzinfo)`, in UTC where the expiry has no offset. -/
def currentTime (now : ℤ) (row : ApprovalRow) : DateTime :=
  let offset := (row.expiresAt.bind DateTime.offset).getD 0
  ⟨now + offset, some offset⟩

/-- `_ensure_approval_pending`. -/
def ensureApprovalPending (now : ℤ) (row : ApprovalRow) : SessionM β Unit := do
  raiseIf (row.state ≠ .requested) (.conflict "approval_not_pending" "approval")
  whenever (isExpired now row) do
    setRow .approvals
      { row with state := .expired, approved := false, decidedAt := some (currentTime now row).column }
    throw (.conflict "approval_request_expired" "approval")

/-- The decisions an approval request can be answered with. -/
inductive Decision where
  | approved
  | rejected
  deriving DecidableEq, Repr

/-- The state of an approval after a decision. -/
def Decision.state : Decision → ApprovalState
  | .approved => .approved
  | .rejected => .rejected

/-- The lab after the decision on its approval. -/
def decidedLab (decision : Decision) (lab : LabRow) : LabRow :=
  { lab with state := if decision = .approved then .approved else .failed }

/-- The export after the decision on its approval. -/
def decidedExport (decision : Decision) (comment : Option String) (row : ExportRow) : ExportRow :=
  if decision = .approved then { row with approvalRequired := false, state := .approved, denialReason := none }
  else { row with state := .rejected, denialReason := comment }

/-- What a decision does to the resource it is about. -/
def decideResource (row : ApprovalRow) (decision : Decision) (comment : Option String) : SessionM β Unit :=
  if row.resourceType = "lab" then do
    let lab ← getOr .labs row.resourceId (.resourceNotFound "lab")
    setRow .labs (decidedLab decision lab)
  else if row.resourceType = "export" then do
    let exported ← getOr .exports row.resourceId (.resourceNotFound "export")
    setRow .exports (decidedExport decision comment exported)
  else pure ()

/-- The approval after a decision. -/
def decidedApproval (now : ℤ) (decision : Decision) (actor : String) (comment : Option String)
    (row : ApprovalRow) :
    ApprovalRow :=
  { row with
    state := decision.state
    approved := decision = .approved
    decisionComment := comment
    decidedBy := some actor
    decidedAt := some (DateTime.utc now).column }

/-- `_apply_approval_decision`. -/
def applyApprovalDecision (now : ℤ) (row : ApprovalRow) (decision : Decision) (actor : String)
    (comment : Option String) : SessionM β ApprovalRow := do
  ensureApprovalPending now row
  raiseIf (decision = .rejected ∧ comment.all Strings.isBlank = true)
    (.conflict "approval_comment_required" "approval")
  let row := decidedApproval now decision actor comment row
  setRow .approvals row
  decideResource row decision comment
  return row

/-- `POST /approvals/{approval_id}/approve` and `/deny`. -/
def decideRequest (now : ℤ) (decision : Decision) (approvalId actor : String) (comment : Option String) :
    SessionM β ApprovalRow := do
  let row ← getOr .approvals approvalId (.resourceNotFound "approval")
  let row ← applyApprovalDecision now row decision actor comment
  recordEvent {
    eventType := if decision = .approved then "approval.approved" else "approval.denied"
    labId := row.labId
    actorType := .human
    actorId := some actor
    resourceType := some "approval"
    resourceId := some row.id
    payload := [
      ("approval_id", .str row.id),
      ("resource_type", .str row.resourceType),
      ("resource_id", .str row.resourceId),
      ("action", .str row.action),
      ("actor", .str actor),
      ("comment", .ofOption comment)] }
  return row

/-- `POST /approvals/{approval_id}/approve`. -/
def approveRequest (now : ℤ) (approvalId actor : String) (comment : Option String) : SessionM β ApprovalRow :=
  decideRequest now .approved approvalId actor comment

/-- `POST /approvals/{approval_id}/deny`. -/
def denyRequest (now : ℤ) (approvalId actor : String) (comment : Option String) : SessionM β ApprovalRow :=
  decideRequest now .rejected approvalId actor comment

/-! ### Snapshots -/

/-- The run a request names must exist and be of the lab. -/
def checkRun (runId : Option String) (lab : LabRow) (mismatch : Exc) : SessionM β Unit :=
  match runId with
  | none => pure ()
  | some runId => do
    let run ← getOr .runs runId (.resourceNotFound "run")
    raiseIf (run.labId ≠ lab.id) mismatch

/-- How the snapshot handlers answer what the manager raises; a creation raises no
`SnapshotMetadataError`. -/
def snapshotError : Exc → Exc
  | .unsupportedSnapshotRuntime _ => .conflict "unsupported_snapshot_runtime" "snapshot"
  | .snapshotMetadata message => .conflict message "snapshot"
  | e => e

/-- `POST /snapshots`. -/
def createSnapshot (env : Environment β) (now : ℤ) (labId : String) (runId : Option String)
    (requesterType : RequesterType) : SessionM β SnapshotRow := do
  let lab ← getOr .labs labId (.resourceNotFound "lab")
  let storageRow ← getOr .labStorage labId (.resourceNotFound "lab_storage")
  checkRun runId lab (.conflict "snapshot_run_mismatch" "snapshot")
  let snapshotId ← newId env.uuid4
  let metadata ← (onDisk (SnapshotManager.createSnapshot env now snapshotId lab storageRow runId)).adaptExcept
    snapshotError
  let row : SnapshotRow := {
    id := snapshotId
    labId := lab.id
    backendRef := metadata.backendRef
    createdAt := (DateTime.utc now).column
  }
  addRow .snapshots row
  recordEvent {
    eventType := "snapshot.created"
    labId := some lab.id
    runId := runId
    actorType := requesterType.actorType
    resourceType := some "snapshot"
    resourceId := some snapshotId
    payload := [
      ("backend_ref", .str metadata.backendRef.text),
      ("runtime_class", .str metadata.runtimeClass),
      ("state", .str metadata.state)] }
  return row

/-- `POST /snapshots/{snapshot_id}/restore`. -/
def restoreSnapshot (env : Environment β) (now : ℤ) (snapshotId labId : String)
    (requesterType : RequesterType) :
    SessionM β SnapshotRow := do
  let snapshot ← getOr .snapshots snapshotId (.resourceNotFound "snapshot")
  let targetLab ← getOr .labs labId (.resourceNotFound "lab")
  let targetStorage ← getOr .labStorage targetLab.id (.resourceNotFound "lab_storage")
  let metadata ←
    (onDisk (SnapshotManager.restoreSnapshot env now snapshot targetLab targetStorage)).adaptExcept
      snapshotError
  recordEvent {
    eventType := "snapshot.restored"
    labId := some targetLab.id
    runId := metadata.runId
    actorType := requesterType.actorType
    resourceType := some "snapshot"
    resourceId := some snapshot.id
    payload := [
      ("source_lab_id", .str snapshot.labId),
      ("restored_lab_id", .str targetLab.id),
      ("state", .str metadata.state)] }
  return snapshot

/-! ### Exports -/

/-- How `create_export` answers what the gate raises. -/
def stageError : Exc → Exc
  | .exportSourceNotFound _ => .resourceNotFound "export_source"
  | .exportPolicy message => .conflict message "export"
  | e => e

/-- The row of a staged export. -/
def newExport (now : ℤ) (exportId : String) (lab : LabRow) (runId : Option String)
    (staged : ExportStageResult) :
    ExportRow where
  id := exportId
  labId := lab.id
  runId := runId
  sourcePath := staged.provenance.sourcePath
  state := staged.state
  quarantinePath := staged.provenance.quarantinePath
  releasedPath := staged.provenance.releasedPath
  approvalRequired := staged.approvalRequired
  sha256 := staged.provenance.sha256
  sizeBytes := staged.provenance.sizeBytes
  denialReason := none
  createdAt := (DateTime.utc now).column

/-- The approval the release of an export waits for, where staging asks for one. -/
def requestExportApproval (env : Environment β) (now : ℤ) (row : ExportRow) : SessionM β Unit :=
  whenever row.approvalRequired do
    let approval ← recordApprovalRequest env now (some row.labId) "export" row.id "export.release"
      "profile requires export approval" "system"
    recordEvent (approvalRequested approval (some row.labId) row.runId)

/-- `POST /exports`. -/
def createExport (env : Environment β) (now : ℤ) (labId sourcePath : String) (runId : Option String)
    (requesterType : RequesterType) : SessionM β ExportRow := do
  let lab ← getOr .labs labId (.resourceNotFound "lab")
  let storageRow ← getOr .labStorage labId (.resourceNotFound "lab_storage")
  checkRun runId lab (.conflict "export_run_mismatch" "export")
  let exportId ← newId env.uuid4
  recordEvent {
    eventType := "export.requested"
    labId := some lab.id
    runId := runId
    actorType := requesterType.actorType
    resourceType := some "export"
    resourceId := some exportId
    payload := [("export_id", .str exportId), ("source_path", .str sourcePath)] }
  let staged ←
    (onDisk (ExportGate.stageExport env exportId lab storageRow sourcePath runId)).adaptExcept stageError
  let row := newExport now exportId lab runId staged
  addRow .exports row
  recordEvent {
    eventType := "export.staged"
    labId := some lab.id
    runId := runId
    actorType := .system
    actorId := some "export-gate"
    resourceType := some "export"
    resourceId := some exportId
    payload := [
      ("export_id", .str exportId),
      ("source_path", .str row.sourcePath),
      ("quarantine_path", .str row.quarantinePath.text),
      ("sha256", .str row.sha256),
      ("size_bytes", .int row.sizeBytes),
      ("approval_required", .bool row.approvalRequired)] }
  requestExportApproval env now row
  return row

/-- An event about the release of an export. -/
def releaseEvent (eventType : String) (row : ExportRow) (payload : List (String × Json)) : EventRow where
  eventType := eventType
  labId := some row.labId
  runId := row.runId
  actorType := .system
  actorId := some "export-gate"
  resourceType := some "export"
  resourceId := some row.id
  payload := ("export_id", .str row.id) :: payload

/-- The export once it is released. -/
def releasedExport (row : ExportRow) (released : ExportStageResult) : ExportRow :=
  { row with state := released.state, releasedPath := released.provenance.releasedPath, denialReason := none }

/-- How `release_export` goes on from what the gate returned or raised. -/
def finishRelease (row : ExportRow) : Except Exc ExportStageResult → SessionM β (Except Exc ExportRow)
  | .ok released => do
    let row := releasedExport row released
    setRow .exports row
    recordEvent (releaseEvent "export.released" row
      [("released_path", .ofOption (row.releasedPath.map PosixPath.text))])
    return .ok row
  | .error (.exportPolicy message) => do
    recordEvent (releaseEvent "export.release_blocked" row [("reason", .str message)])
    return .error (.conflict message "export")
  | .error (.exportSourceNotFound _) => throw (.resourceNotFound "export_source")
  | .error (.exportState message) => throw (.conflict message "export")
  | .error e => throw e

/-- `POST /exports/{export_id}/release`, up to the exception it raises after its commit. -/
def releaseExport (exportId : String) : SessionM β (Except Exc ExportRow) := do
  let row ← getOr .exports exportId (.resourceNotFound "export")
  let storageRow ← getOr .labStorage row.labId (.resourceNotFound "lab_storage")
  let outcome ← attempt (onDisk (ExportGate.releaseExport row storageRow))
  finishRelease row outcome

/-- How `deny_export` answers what the gate raises. -/
def denyError : Exc → Exc
  | .exportState message => .conflict message "export"
  | e => e

/-- The export once it is denied. -/
def deniedExport (row : ExportRow) (denied : ExportStageResult) : ExportRow :=
  { row with state := denied.state, denialReason := denied.denialReason, releasedPath := none }

/-- `POST /exports/{export_id}/deny`. -/
def denyExport (exportId reason : String) : SessionM β ExportRow := do
  let row ← getOr .exports exportId (.resourceNotFound "export")
  let denied ← fromExcept ((ExportGate.denyExport row reason).mapError denyError)
  let row := deniedExport row denied
  setRow .exports row
  recordEvent {
    eventType := "export.denied"
    labId := some row.labId
    runId := row.runId
    actorType := .human
    resourceType := some "export"
    resourceId := some row.id
    payload := [("export_id", .str row.id), ("reason", .ofOption row.denialReason)] }
  return row

end App

end LabOS
