import LabOS.Api.App

/-!
# What the application is asked

The requests that change nothing: the listings, each in the order of its query, and the labs and runs by their
ids. A snapshot is listed with its manifest, which is read from the disk.
-/

namespace LabOS

namespace App

open Exceptional ReconciliationService

variable {β : Type} [Content β]

/-- `GET /labs/{lab_id}`. -/
def getLab (labId : String) : SessionM β (LabRow × LabStorageRow) := do
  let row ← getOr .labs labId (.resourceNotFound "lab")
  let storageRow ← getOr .labStorage row.id (.resourceNotFound "lab_storage")
  return (row, storageRow)

/-- `GET /runs`. -/
def listRuns : SessionM β (List RunRow) := do
  let s ← get
  return s.store.runs.select (fun _ => true) (before RunRow.createdAt RunRow.id)

/-- `GET /runs/{run_id}`. -/
def getRun (runId : String) : SessionM β RunRow := getOr .runs runId (.resourceNotFound "run")

/-- `GET /labs/{lab_id}/secret-leases`, by `list_leases`. -/
def listSecretLeases (labId : String) : SessionM β (List SecretLeaseRow) := do
  let _ ← getOr .labs labId (.resourceNotFound "lab")
  let s ← get
  return s.store.secretLeases.select (fun row => row.labId = labId) SecretLeaseService.before

/-- `GET /scheduler/jobs`. -/
def listSchedulerJobs : SessionM β (List SchedulerJobRow) := do
  let s ← get
  return SchedulerService.listJobs s.store

/-- `GET /approvals`. -/
def listApprovals : SessionM β (List ApprovalRow) := do
  let s ← get
  return s.store.approvals.select (fun _ => true) (before ApprovalRow.createdAt ApprovalRow.id)

/-- `GET /exports`. -/
def listExports : SessionM β (List ExportRow) := do
  let s ← get
  return s.store.exports.select (fun _ => true) (before ExportRow.createdAt ExportRow.id)

/-- `GET /snapshots`. -/
def listSnapshots (env : Environment β) : SessionM β (List (SnapshotRow × Option SnapshotMetadata)) := do
  let s ← get
  let rows := s.store.snapshots.select (fun _ => true) (before SnapshotRow.createdAt SnapshotRow.id)
  rows.mapM fun row => do
    let metadata ← onDisk (SnapshotManager.loadMetadata env row)
    return (row, metadata)

end App

end LabOS
