import LabOS.Runtimes.Base
import LabOS.Storage.Allocator
import LabOS.Workers.Scheduler

/-!
# The reconciler

One pass over the store: approvals and leases that have expired, runs that are overdue,
labs whose destruction is retried, labs whose storage is missing, and runtimes that no
lab accounts for. Each sweep is a loop over the rows a query selected; the report
collects the ids it acted on and every action has its event.
-/

namespace LabOS

open Exceptional FileOps

variable {β ρ : Type}

structure ReconciliationReport where
  failedLabIds : List String := []
  destroyedLabIds : List String := []
  failedDestroyLabIds : List String := []
  orphanedRuntimeLabIds : List String := []
  zombieLabIds : List String := []
  expiredApprovalIds : List String := []
  revokedSecretLeaseIds : List String := []
  timedOutRunIds : List String := []
  deriving DecidableEq, Repr

/-- What the service is built with. -/
structure Reconciler (β : Type) where
  runtimeInventory : Option (List LabInspection) := none
  storageDestroyer : Option (StorageAllocation → DiskM β Unit) := none
  maxDestroyAttempts : ℕ := 3

namespace ReconciliationService

/-- The order of a query: `created_at`, then `id`. -/
def before (createdAt : ρ → DateTime) (id : ρ → String) (a b : ρ) : Prop :=
  (createdAt a).wall < (createdAt b).wall ∨ (createdAt a).wall = (createdAt b).wall ∧ id a ≤ id b

instance (createdAt : ρ → DateTime) (id : ρ → String) : DecidableRel (before createdAt id) :=
  fun a b => by unfold before; infer_instance

/-- An event of the reconciler. -/
def event (eventType resourceType resourceId : String) (labId runId : Option String)
    (payload : List (String × Json)) : EventRow where
  eventType := eventType
  labId := labId
  runId := runId
  actorType := .system
  actorId := some "reconciler"
  resourceType := some resourceType
  resourceId := some resourceId
  payload := payload

/-- What the expiry of an approval does to the resource it is for. -/
def expireResource (approval : ApprovalRow) : SessionM β Unit :=
  if approval.resourceType = "lab" then do
    let lab ← getRow .labs approval.resourceId
    match lab with
    | some lab => whenever (lab.state = .pendingApproval) (setRow .labs { lab with state := .failed })
    | none => pure ()
  else if approval.resourceType = "export" then do
    let row ← getRow .exports approval.resourceId
    match row with
    | some row =>
      setRow .exports { row with
        state := .rejected
        denialReason := some "approval request expired"
        approvalRequired := false }
    | none => pure ()
  else pure ()

/-- Has the expiry of an approval passed? -/
def isStale (now : DateTime) (approval : ApprovalRow) : Bool :=
  match approval.expiresAt with
  | none => false
  | some expiresAt => expiresAt.normalize.instant ≤ now.instant

/-- An approval is stale exactly when it expires and the time it expires at, read as UTC where it names no
zone, is not after `now`. -/
theorem isStale_iff {now : DateTime} {approval : ApprovalRow} :
    isStale now approval = true ↔
      ∃ expiresAt, approval.expiresAt = some expiresAt ∧ expiresAt.normalize.instant ≤ now.instant := by
  unfold isStale
  cases approval.expiresAt <;> simp

def expireApproval (now : DateTime) (report : ReconciliationReport) (approval : ApprovalRow) :
    SessionM β ReconciliationReport :=
  if isStale now approval then do
    setRow .approvals { approval with
      state := .expired
      approved := false
      decidedBy := some "reconciler"
      decidedAt := some now.column }
    expireResource approval
    recordEvent <| event "approval.expired" "approval" approval.id approval.labId none
      [("approval_id", .str approval.id),
       ("resource_type", .str approval.resourceType),
       ("resource_id", .str approval.resourceId),
       ("action", .str approval.action)]
    return { report with expiredApprovalIds := report.expiredApprovalIds ++ [approval.id] }
  else return report

/-- `_expire_stale_approvals`. -/
def expireStaleApprovals (now : DateTime) (report : ReconciliationReport) :
    SessionM β ReconciliationReport := do
  let s ← get
  let approvals := s.store.approvals.select (fun row => row.state = .requested && row.expiresAt.isSome)
    (before ApprovalRow.createdAt ApprovalRow.id)
  approvals.foldlM (expireApproval now) report

def revokeExpired (now : DateTime) (report : ReconciliationReport) (lease : SecretLeaseRow) :
    SessionM β ReconciliationReport :=
  if lease.expiresAt.normalize.instant ≤ now.instant then do
    setRow .secretLeases { lease with revokedAt := some now.column }
    recordEvent <| event "secret_lease.expired" "secret_lease" lease.id (some lease.labId) none
      [("secret_name", .str lease.secretName), ("lease_id", .str lease.id)]
    return { report with revokedSecretLeaseIds := report.revokedSecretLeaseIds ++ [lease.id] }
  else return report

/-- `_revoke_expired_secret_leases`. -/
def revokeExpiredSecretLeases (now : DateTime) (report : ReconciliationReport) :
    SessionM β ReconciliationReport := do
  let s ← get
  let leases := s.store.secretLeases.select (fun row => row.revokedAt.isNone)
    (before SecretLeaseRow.createdAt SecretLeaseRow.id)
  leases.foldlM (revokeExpired now) report

/-- Is the time of a run up? -/
def isOverdue (now : DateTime) (run : RunRow) : Bool :=
  match run.timeoutAt with
  | none => false
  | some timeoutAt => timeoutAt.normalize.instant ≤ now.instant

/-- A run is overdue exactly when it has a timeout and that, read as UTC where it names no zone, is not after
`now`. -/
theorem isOverdue_iff {now : DateTime} {run : RunRow} :
    isOverdue now run = true ↔
      ∃ timeoutAt, run.timeoutAt = some timeoutAt ∧ timeoutAt.normalize.instant ≤ now.instant := by
  unfold isOverdue
  cases run.timeoutAt <;> simp

def timeoutRun (now : DateTime) (report : ReconciliationReport) (run : RunRow) :
    SessionM β ReconciliationReport :=
  if isOverdue now run then do
    setRow .runs { run with state := .timedOut, finishedAt := some now.column }
    recordEvent <| event "run.timed_out" "run" run.id (some run.labId) (some run.id)
      [("state", .str RunState.timedOut.value), ("timeout_at", .int (run.timeoutAt.elim 0 DateTime.wall))]
    return { report with timedOutRunIds := report.timedOutRunIds ++ [run.id] }
  else return report

/-- `_timeout_overdue_runs`. -/
def timeoutOverdueRuns (now : DateTime) (report : ReconciliationReport) :
    SessionM β ReconciliationReport := do
  let s ← get
  let runs := s.store.runs.select
    (fun row => (row.state = .queued || row.state = .starting || row.state = .running) &&
      row.timeoutAt.isSome)
    (before RunRow.createdAt RunRow.id)
  runs.foldlM (timeoutRun now) report

/-- The payload of an event about a destroy attempt. -/
def attemptPayload (service : Reconciler β) (lab : LabRow) : List (String × Json) :=
  [("attempt", .int lab.destroyAttempts),
   ("max_attempts", .int service.maxDestroyAttempts),
   ("reason", .ofOption lab.lastDestroyError)]

/-- The destroy of a lab is given up. -/
def failDestroy (service : Reconciler β) (report : ReconciliationReport) (lab : LabRow) :
    SessionM β ReconciliationReport := do
  let lab := { lab with state := .failed }
  setRow .labs lab
  recordEvent (event "lab.destroy_failed" "lab" lab.id (some lab.id) none (attemptPayload service lab))
  return { report with failedDestroyLabIds := report.failedDestroyLabIds ++ [lab.id] }

/-- Build the allocation of a lab and destroy it. -/
def destroyStorage (destroyer : StorageAllocation → DiskM β Unit) (storageRow : LabStorageRow)
    (labId : String) :
    DiskM β Unit := do
  let allocation ← fromExcept (storageAllocationFromRow storageRow)
  destroyer { allocation with labId := labId }

def retryDestroy (service : Reconciler β) (destroyer : StorageAllocation → DiskM β Unit)
    (storageByLabId : String → Option LabStorageRow) (report : ReconciliationReport) (lab : LabRow) :
    SessionM β ReconciliationReport :=
  match storageByLabId lab.id with
  | none => failDestroy service report { lab with lastDestroyError := some "missing_storage_record" }
  | some storageRow => do
    let lab := { lab with destroyAttempts := lab.destroyAttempts + 1 }
    let outcome ← attempt (onDisk (destroyStorage destroyer storageRow lab.id))
    match outcome with
    | .error e => do
      let lab := { lab with lastDestroyError := some e.text }
      setRow .labs lab
      recordEvent (event "lab.destroy_retry_failed" "lab" lab.id (some lab.id) none
        (attemptPayload service lab))
      if service.maxDestroyAttempts ≤ lab.destroyAttempts then failDestroy service report lab
        else return report
    | .ok _ => do
      let lab := { lab with state := .destroyed, lastDestroyError := none }
      setRow .labs lab
      recordEvent <| event "lab.destroyed" "lab" lab.id (some lab.id) none
        [("attempt", .int lab.destroyAttempts), ("state", .str lab.state.value)]
      return { report with destroyedLabIds := report.destroyedLabIds ++ [lab.id] }

/-- `_retry_destroying_labs`. -/
def retryDestroyingLabs (service : Reconciler β) (storageByLabId : String → Option LabStorageRow)
    (report : ReconciliationReport) : SessionM β ReconciliationReport :=
  match service.storageDestroyer with
  | none => pure report
  | some destroyer => do
    let s ← get
    let labs := s.store.labs.select (fun row => row.state = .destroying) (before LabRow.createdAt LabRow.id)
    labs.foldlM (retryDestroy service destroyer storageByLabId) report

/-- Why a lab is failed: its storage row or its storage root is missing. -/
def failureReason (storageRow : Option LabStorageRow) : DiskM β (Option String) :=
  match storageRow with
  | none => pure (some "missing_storage_record")
  | some storageRow => do
    let there ← files (pathExists storageRow.rootPath)
    pure (if there then none else some "missing_storage_root")

def checkStorage (storageByLabId : String → Option LabStorageRow) (report : ReconciliationReport)
    (labId : String) :
    SessionM β ReconciliationReport := do
  let lab ← getRow .labs labId
  match lab with
  | none => pure report
  | some lab =>
    if lab.state = .destroyed then pure report
    else do
      let reason ← onDisk (failureReason (storageByLabId lab.id))
      match reason with
      | none => pure report
      | some reason => do
        let lab := { lab with state := .failed }
        setRow .labs lab
        recordEvent <| event "lab.reconciliation_failed" "lab" lab.id (some lab.id) none
          [("reason", .str reason), ("state", .str lab.state.value)]
        return { report with failedLabIds := report.failedLabIds ++ [lab.id] }

/-- `_is_zombie_lab`. -/
def isZombieLab (labState : LabState) (runtimeStatus : String) : Bool :=
  ["created", "restarting", "running", "paused"].contains runtimeStatus &&
    !(labState = .provisioning || labState = .running || labState = .stopped || labState = .destroying)

/-- A lab is a zombie exactly when its container is there to be used and its state is not one of those in which
a lab has a container. -/
theorem isZombieLab_iff {labState : LabState} {runtimeStatus : String} :
    isZombieLab labState runtimeStatus = true ↔
      (runtimeStatus = "created" ∨ runtimeStatus = "restarting" ∨ runtimeStatus = "running" ∨
        runtimeStatus = "paused") ∧
      labState ≠ .provisioning ∧ labState ≠ .running ∧ labState ≠ .stopped ∧ labState ≠ .destroying := by
  simp [isZombieLab, and_assoc]

/-- What the runtime says about a container. -/
def inspectionPayload (inspection : LabInspection) : List (String × Json) :=
  [("backend", .str inspection.backend),
   ("container_name", .str inspection.containerName),
   ("status", .str inspection.status)]

def inspect (report : ReconciliationReport) (inspection : LabInspection) :
    SessionM β ReconciliationReport := do
  let lab ← getRow .labs inspection.labId
  match lab with
  | none => do
    recordEvent (event "runtime_lab.orphan_detected" "runtime_lab" inspection.labId none none
      (inspectionPayload inspection))
    return { report with orphanedRuntimeLabIds := report.orphanedRuntimeLabIds ++ [inspection.labId] }
  | some lab =>
    if isZombieLab lab.state inspection.status then do
      recordEvent <| event "runtime_lab.zombie_detected" "runtime_lab" inspection.labId (some lab.id) none
        (inspectionPayload inspection ++ [("lab_state", .str lab.state.value)])
      return { report with zombieLabIds := report.zombieLabIds ++ [inspection.labId] }
    else return report

/-- `_sort_report`. -/
def sortReport (report : ReconciliationReport) : ReconciliationReport where
  failedLabIds := report.failedLabIds.insertionSort (· ≤ ·)
  destroyedLabIds := report.destroyedLabIds.insertionSort (· ≤ ·)
  failedDestroyLabIds := report.failedDestroyLabIds.insertionSort (· ≤ ·)
  orphanedRuntimeLabIds := report.orphanedRuntimeLabIds.insertionSort (· ≤ ·)
  zombieLabIds := report.zombieLabIds.insertionSort (· ≤ ·)
  expiredApprovalIds := report.expiredApprovalIds.insertionSort (· ≤ ·)
  revokedSecretLeaseIds := report.revokedSecretLeaseIds.insertionSort (· ≤ ·)
  timedOutRunIds := report.timedOutRunIds.insertionSort (· ≤ ·)

def reconcile (service : Reconciler β) (now : DateTime) : SessionM β ReconciliationReport := do
  let now := now.normalize
  let s ← get
  let labs := s.store.labs.select (fun _ => true) (before LabRow.createdAt LabRow.id)
  let storageByLabId := s.store.labStorage.get?
  let report ← expireStaleApprovals now {}
  let report ← revokeExpiredSecretLeases now report
  let report ← timeoutOverdueRuns now report
  let report ← retryDestroyingLabs service storageByLabId report
  let report ← (labs.map LabRow.id).foldlM (checkStorage storageByLabId) report
  let report ← (service.runtimeInventory.getD []).foldlM inspect report
  return sortReport report

end ReconciliationService

end LabOS
