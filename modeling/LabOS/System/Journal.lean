import LabOS.System.Jobs
import LabOS.System.Registry

/-!
# The events tell the rows

Every event a request commits is one the registry can read where it stands, and the rows are then what it
says they are: what a handler does is *journaled*. It is proved like what the handlers record
(`recorded_of_handler`), handler by handler and round by round; the rounds of a pass over selected rows
need that each finds its row as it was selected (`foldlM_selected`).

## What is proved

* `journaled_of_handler` — what a handler does to the rows can be read from the events it appends.
-/

namespace LabOS

open Exceptional Replay ReconciliationService

/-- The events appended tell what became of the rows. -/
abbrev Journaled (st st' : Store) : Prop := Explained Registry.read Store.events Registry.ofStore st st'

section Tables

variable {st : Store} {id : String} {e : EventRow}

namespace Registry

@[simp] theorem ofStore_events (evs : List EventRow) : ofStore { st with events := evs } = ofStore st := rfl

/-! What the registry has of a row that is there, or not. -/

theorem labs_ofStore_none (h : st.labs.get? id = none) : (ofStore st).labs id = none := viewOf_eq_none h

theorem labs_ofStore {lab : LabRow} (h : st.labs.get? id = some lab) :
    (ofStore st).labs id = some lab.entry :=
  viewOf_eq_some h

theorem runs_ofStore {run : RunRow} (h : st.runs.get? id = some run) :
    (ofStore st).runs id = some run.entry :=
  viewOf_eq_some h

theorem approvals_ofStore {a : ApprovalRow} (h : st.approvals.get? id = some a) :
    (ofStore st).approvals id = some a.entry :=
  viewOf_eq_some h

theorem exports_ofStore {row : ExportRow} (h : st.exports.get? id = some row) :
    (ofStore st).exports id = some row.entry :=
  viewOf_eq_some h

theorem snapshots_ofStore {row : SnapshotRow} (h : st.snapshots.get? id = some row) :
    (ofStore st).snapshots id = some row.entry :=
  viewOf_eq_some h

theorem leases_ofStore {lease : SecretLeaseRow} (h : st.secretLeases.get? id = some lease) :
    (ofStore st).leases id = some lease.entry :=
  viewOf_eq_some h

theorem jobs_ofStore {job : SchedulerJobRow} (h : st.schedulerJobs.get? id = some job) :
    (ofStore st).jobs id = some job.entry :=
  viewOf_eq_some h

theorem runs_ofStore_none (h : st.runs.get? id = none) : (ofStore st).runs id = none := viewOf_eq_none h

theorem approvals_ofStore_none (h : st.approvals.get? id = none) : (ofStore st).approvals id = none :=
  viewOf_eq_none h

theorem exports_ofStore_none (h : st.exports.get? id = none) : (ofStore st).exports id = none :=
  viewOf_eq_none h

theorem snapshots_ofStore_none (h : st.snapshots.get? id = none) : (ofStore st).snapshots id = none :=
  viewOf_eq_none h

theorem leases_ofStore_none (h : st.secretLeases.get? id = none) : (ofStore st).leases id = none :=
  viewOf_eq_none h

theorem jobs_ofStore_none (h : st.schedulerJobs.get? id = none) : (ofStore st).jobs id = none :=
  viewOf_eq_none h

end Registry

namespace Journaled

/-- One event tells what became of the rows. -/
theorem single {st' : Store} (hevents : st'.events = st.events ++ [e])
    (h : Registry.read (.ofStore st) e = some (.ofStore st')) : Journaled st st' :=
  ⟨[e], hevents, by rw [replay_cons, h]; rfl⟩

/-! One event, and the row that is stored with it. -/

theorem labRow {row : LabRow} (h : Registry.read (.ofStore st) e = some { Registry.ofStore st with
      labs := Function.update (Registry.ofStore st).labs row.id (some row.entry) }) :
    Journaled st { st with labs := st.labs.put row, events := st.events ++ [e] } :=
  single rfl (by rw [h]; simp [Registry.ofStore])

theorem runRow {row : RunRow} (h : Registry.read (.ofStore st) e = some { Registry.ofStore st with
      runs := Function.update (Registry.ofStore st).runs row.id (some row.entry) }) :
    Journaled st { st with runs := st.runs.put row, events := st.events ++ [e] } :=
  single rfl (by rw [h]; simp [Registry.ofStore])

theorem approvalRow {row : ApprovalRow} (h : Registry.read (.ofStore st) e = some { Registry.ofStore st with
      approvals := Function.update (Registry.ofStore st).approvals row.id (some row.entry) }) :
    Journaled st { st with approvals := st.approvals.put row, events := st.events ++ [e] } :=
  single rfl (by rw [h]; simp [Registry.ofStore])

theorem exportRow {row : ExportRow} (h : Registry.read (.ofStore st) e = some { Registry.ofStore st with
      exports := Function.update (Registry.ofStore st).exports row.id (some row.entry) }) :
    Journaled st { st with exports := st.exports.put row, events := st.events ++ [e] } :=
  single rfl (by rw [h]; simp [Registry.ofStore])

theorem snapshotRow {row : SnapshotRow} (h : Registry.read (.ofStore st) e = some { Registry.ofStore st with
      snapshots := Function.update (Registry.ofStore st).snapshots row.id (some row.entry) }) :
    Journaled st { st with snapshots := st.snapshots.put row, events := st.events ++ [e] } :=
  single rfl (by rw [h]; simp [Registry.ofStore])

theorem leaseRow {row : SecretLeaseRow} (h : Registry.read (.ofStore st) e = some { Registry.ofStore st with
      leases := Function.update (Registry.ofStore st).leases row.id (some row.entry) }) :
    Journaled st { st with secretLeases := st.secretLeases.put row, events := st.events ++ [e] } :=
  single rfl (by rw [h]; simp [Registry.ofStore])

theorem jobRow {row : SchedulerJobRow} (h : Registry.read (.ofStore st) e = some { Registry.ofStore st with
      jobs := Function.update (Registry.ofStore st).jobs row.id (some row.entry) }) :
    Journaled st { st with schedulerJobs := st.schedulerJobs.put row, events := st.events ++ [e] } :=
  single rfl (by rw [h]; simp [Registry.ofStore])

end Journaled

end Tables

variable {β : Type} [Content β]

/-! ### What the handlers journal -/

section Handlers

variable {env : Environment β} {now : ℤ} {s s' : Session β}

theorem journaled_of_destroyLab {labId : String} {row : LabRow}
    (h : App.destroyLab env labId s = .ok row s') :
    Journaled s.store s'.store := by
  simp [App.destroyLab, bind_eq_ok] at h
  obtain ⟨lab, hlab, storage, -, halive, allocation, -, _, d, -, rfl, rfl⟩ := h
  obtain rfl : lab.id = labId := Table.key_of_get? hlab
  refine .labRow ?_
  rw [Registry.read_eq .labDestroyed rfl rfl]
  simp [Registry.readKind, Registry.labDestroyed, Registry.changeLab, Json.get?,
    change_eq (Registry.labs_ofStore hlab), halive, LabRow.entry]

theorem journaled_of_createSecretLease {labId secretName : String} {requester : RequesterType}
    {ttlMinutes : ℤ} {row : SecretLeaseRow}
    (h : App.createSecretLease env now labId secretName requester ttlMinutes s = .ok row s') :
    Journaled s.store s'.store := by
  simp [App.createSecretLease, SecretLeaseService.issueLease, SecretLeaseService.resolve, adaptExcept_eq_ok,
    PolicyEngine.getProfile_eq_ok, bind_eq_ok] at h
  obtain ⟨⟨-, lab, hlab, profile, -, -, -, hfresh, rfl⟩, rfl⟩ := h
  refine .leaseRow ?_
  rw [Registry.read_eq .secretLeaseIssued rfl rfl]
  simp [Registry.readKind, Registry.leaseIssued, Json.get?, Registry.labs_ofStore hlab,
    add_eq_some (Registry.leases_ofStore_none hfresh), SecretLeaseRow.entry]

omit [Content β] in
theorem journaled_of_revokeSecretLease {leaseId actor : String} {reason : Option String}
    {row : SecretLeaseRow} (h : App.revokeSecretLease now leaseId actor reason s = .ok row s') :
    Journaled s.store s'.store := by
  simp [App.revokeSecretLease, SecretLeaseService.revokeLease, adaptExcept_eq_ok, bind_eq_ok] at h
  obtain ⟨lease, ⟨hlease, hlive⟩, rfl, -⟩ := h
  obtain rfl : lease.id = leaseId := Table.key_of_get? hlease
  refine .leaseRow ?_
  rw [Registry.read_eq .secretLeaseRevoked rfl rfl]
  simp [Registry.readKind, Registry.leaseRevoked, Registry.changeLease,
    change_eq (Registry.leases_ofStore hlease), hlive, SecretLeaseRow.entry]

theorem journaled_of_enqueueSchedulerJob {request : SchedulerJobCreateRequest} {row : SchedulerJobRow}
    (h : App.enqueueSchedulerJob env now request s = .ok row s') : Journaled s.store s'.store := by
  simp [App.enqueueSchedulerJob, SchedulerService.enqueue, adaptExcept_eq_ok, bind_eq_ok] at h
  obtain ⟨⟨-, hfresh, rfl⟩, rfl⟩ := h
  refine .jobRow ?_
  rw [Registry.read_eq .schedulerJobEnqueued rfl rfl]
  simp [Registry.readKind, Registry.jobEnqueued, Json.get?, add_eq_some (Registry.jobs_ofStore_none hfresh),
    SchedulerJobRow.entry]

theorem journaled_of_createSnapshot {labId : String} {runId : Option String} {requester : RequesterType}
    {row : SnapshotRow} (h : App.createSnapshot env now labId runId requester s = .ok row s') :
    Journaled s.store s'.store := by
  simp [App.createSnapshot, adaptExcept_eq_ok, bind_eq_ok] at h
  obtain ⟨lab, hlab, storage, -, _, _, hrun, metadata, d, -, hfresh, rfl, -⟩ := h
  obtain rfl := checkRun_eq_ok hrun
  obtain rfl : lab.id = labId := Table.key_of_get? hlab
  refine .snapshotRow ?_
  rw [Registry.read_eq .snapshotCreated rfl rfl]
  simp [Registry.readKind, Registry.snapshotCreated, Json.get?, Registry.labs_ofStore hlab,
    add_eq_some (Registry.snapshots_ofStore_none hfresh), SnapshotRow.entry]

theorem journaled_of_restoreSnapshot {snapshotId labId : String} {requester : RequesterType}
    {row : SnapshotRow} (h : App.restoreSnapshot env now snapshotId labId requester s = .ok row s') :
    Journaled s.store s'.store := by
  simp [App.restoreSnapshot, adaptExcept_eq_ok, bind_eq_ok] at h
  obtain ⟨hsnapshot, _, -, _, -, _, _, -, rfl⟩ := h
  obtain rfl : row.id = snapshotId := Table.key_of_get? hsnapshot
  refine .single rfl ?_
  rw [Registry.read_eq .snapshotRestored rfl rfl]
  simp only [Registry.readKind, Registry.snapshots_ofStore hsnapshot]
  rfl

omit [Content β] in
theorem journaled_of_denyExport {exportId reason : String} {row : ExportRow}
    (h : App.denyExport exportId reason s = .ok row s') : Journaled s.store s'.store := by
  simp [App.denyExport, bind_eq_ok] at h
  obtain ⟨row, hrow, denied, hdenied, rfl, -⟩ := h
  obtain rfl : row.id = exportId := Table.key_of_get? hrow
  refine .exportRow ?_
  rw [Registry.read_eq .exportDenied rfl rfl]
  obtain ⟨hrejected, hreleased, -, hstate, -⟩ := ExportGate.denyExport_eq_ok hdenied
  simp [Registry.readKind, Registry.exportDenied, Registry.changeExport, Json.get?, change,
    Registry.exports_ofStore hrow, hreleased, hrejected, App.deniedExport, hstate, ExportRow.entry]

/-- The event of an approval request adds the approval. -/
theorem read_approvalRequested {g : Registry} {a : ApprovalRow} {labId runId : Option String}
    (hfresh : g.approvals a.id = none) (hlab : a.labId = labId) (hstate : a.state = .requested)
    (happroved : a.approved = false) (hundecided : a.decisionComment = none ∧ a.decidedBy = none) :
    Registry.read g (App.approvalRequested a labId runId) =
      some { g with approvals := Function.update g.approvals a.id (some a.entry) } := by
  rw [Registry.read_eq .approvalRequested rfl rfl]
  simp [Registry.readKind, Registry.approvalRequested, App.approvalRequested, Json.get?,
    add_eq_some hfresh, ApprovalRow.entry, hlab, hstate, happroved, hundecided]

theorem journaled_of_requestExportApproval {row : ExportRow} {u : Unit}
    (h : App.requestExportApproval env now row s = .ok u s') : Journaled s.store s'.store := by
  unfold App.requestExportApproval App.recordApprovalRequest at h
  rcases whenever_eq_ok.mp h with ⟨-, h⟩ | ⟨-, rfl⟩
  · simp [bind_eq_ok] at h
    obtain ⟨hfresh, rfl⟩ := h
    exact .approvalRow (read_approvalRequested
      (Registry.approvals_ofStore_none hfresh) rfl rfl rfl ⟨rfl, rfl⟩)
  · exact .refl _

theorem journaled_of_createExport {labId sourcePath : String} {runId : Option String}
    {requester : RequesterType} {row : ExportRow}
    (h : App.createExport env now labId sourcePath runId requester s = .ok row s') :
    Journaled s.store s'.store := by
  simp [App.createExport, adaptExcept_eq_ok, bind_eq_ok] at h
  obtain ⟨lab, hlab, storage, -, _, _, hrun, staged, d, hstage, hfresh, ⟨_, happroval⟩, rfl⟩ := h
  obtain rfl := checkRun_eq_ok hrun
  obtain rfl : lab.id = labId := Table.key_of_get? hlab
  obtain ⟨-, hstate, hpath, -⟩ := ExportGate.stageExport_eq_ok hstage
  refine Explained.trans ⟨_, rfl, ?_⟩ (journaled_of_requestExportApproval happroval)
  -- the first event says that an export is to be staged, and the second adds it
  rw [replay_cons, Registry.read_eq .exportRequested rfl rfl]
  have hfresh' : (Registry.ofStore s.store).exports (env.uuid4 s.minted) = none :=
    Registry.exports_ofStore_none hfresh
  simp only [Registry.readKind, hfresh', Option.isNone_none, if_true, Option.bind_some]
  rw [replay_cons, Registry.read_eq .exportStaged rfl rfl]
  simp [Registry.readKind, Registry.exportStaged, Json.get?, Registry.labs_ofStore hlab, add_eq_some hfresh']
  simp [Registry.ofStore, App.newExport, ExportRow.entry, hstate, hpath]

theorem journaled_of_releaseExport {exportId : String} {released : Except Exc ExportRow}
    (h : App.releaseExport exportId s = .ok released s') : Journaled s.store s'.store := by
  simp only [App.releaseExport, bind_eq_ok, getOr_eq_ok] at h
  obtain ⟨row, _, ⟨hrow, rfl⟩, storage, _, ⟨-, rfl⟩, outcome, s₁, hattempt, h⟩ := h
  obtain rfl : row.id = exportId := Table.key_of_get? hrow
  unfold App.finishRelease at h
  rcases attempt_eq_ok.mp hattempt with ⟨released, rfl, hgate⟩ | ⟨e, rfl, hgate⟩
  · obtain ⟨d, hreleases, rfl⟩ := onDisk_eq_ok.mp hgate
    simp [bind_eq_ok] at h
    obtain ⟨rfl, -⟩ := h
    refine .exportRow ?_
    obtain ⟨hrejected, hreleased, hcleared, hstate, -⟩ := ExportGate.releaseExport_eq_ok hreleases
    rw [Registry.read_eq .exportReleased rfl rfl]
    simp [Registry.readKind, Registry.exportReleased, Registry.changeExport, App.releaseEvent, Json.get?,
      change_eq (Registry.exports_ofStore hrow), hreleased, hrejected, hcleared, App.releasedExport, hstate,
        ExportRow.entry]
  · cases e with
    | exportPolicy message =>
      simp at h
      obtain ⟨rfl, -⟩ := h
      obtain ⟨d, hblocked, rfl⟩ := onDisk_eq_error.mp hgate
      have happroval : row.approvalRequired = true := by
        rcases releaseExport_eq_error hblocked with he | he | ⟨happroval, -⟩ | ⟨_, he⟩ | ⟨_, he⟩
        all_goals first | exact happroval | exact absurd he (by simp)
      refine .single rfl ?_
      rw [Registry.read_eq .exportReleaseBlocked rfl rfl]
      rw [Registry.readKind, Registry.releaseBlocked, Registry.changeExport,
        change_self (Registry.exports_ofStore hrow) (by simp [ExportRow.entry, happroval])]
      rfl
    | _ => exact absurd h throw_eq_ok

/-- The event of a decision. -/
def decidedEvent (decision : App.Decision) (actor : String) (comment : Option String) (a : ApprovalRow) :
    EventRow where
  eventType := if decision = .approved then "approval.approved" else "approval.denied"
  labId := a.labId
  actorType := .human
  actorId := some actor
  resourceType := some "approval"
  resourceId := some a.id
  payload := [
    ("approval_id", .str a.id),
    ("resource_type", .str a.resourceType),
    ("resource_id", .str a.resourceId),
    ("action", .str a.action),
    ("actor", .str actor),
    ("comment", .ofOption comment)]

/-- It is read as the decision on a pending approval, and on what the approval is for. -/
theorem read_decided {st : Store} {a : ApprovalRow} (now : ℤ) (decision : App.Decision) (actor : String)
    (comment : Option String) (ha : st.approvals.get? a.id = some a) (hpending : a.state = .requested) :
    Registry.read (.ofStore st) (decidedEvent decision actor comment a) = Registry.decideResource
      (.ofStore { st with approvals := st.approvals.put (App.decidedApproval now decision actor comment a) })
      a.entry decision comment := by
  have hview := Registry.approvals_ofStore ha
  have hentry : a.entry.state = .requested := hpending
  have hdecided : Registry.approvalDecided (.ofStore st) a.id
      (decidedEvent decision actor comment a) decision =
      Registry.decideResource (.ofStore { st with
        approvals := st.approvals.put (App.decidedApproval now decision actor comment a) })
      a.entry decision comment := by
    simp [Registry.approvalDecided, Registry.changeApproval, decidedEvent, Json.get?, hview,
      change_eq hview, hentry]
    simp [Registry.ofStore, App.decidedApproval, ApprovalRow.entry]
  cases decision with
  | approved => exact (Registry.read_eq .approvalApproved rfl rfl).trans hdecided
  | rejected => exact (Registry.read_eq .approvalDenied rfl rfl).trans hdecided

omit [Content β] in
/-- What a decision does to its resource is what it is read as. -/
theorem decideResource_read {a : ApprovalRow} {decision : App.Decision} {comment : Option String} {u : Unit}
    (h : App.decideResource a decision comment s = .ok u s') : s'.store.events = s.store.events ∧
      Registry.decideResource (.ofStore s.store) a.entry decision comment = some (.ofStore s'.store) := by
  unfold App.decideResource at h
  split at h
  · next htype =>
    simp only [bind_eq_ok, getOr_eq_ok, setRow_eq_ok] at h
    obtain ⟨lab, _, ⟨hlab, rfl⟩, rfl⟩ := h
    have hid : a.resourceId = lab.id := (Table.key_of_get? hlab).symm
    refine ⟨rfl, ?_⟩
    have hview : (Registry.ofStore s.store).labs a.entry.resourceId = some lab.entry :=
      Registry.labs_ofStore hlab
    rw [Registry.decideResource, if_pos (show a.entry.resourceType = "lab" from htype), Registry.changeLab,
      change_eq hview]
    simp [Registry.ofStore, App.decidedLab, LabRow.entry, ApprovalRow.entry, hid]
  · next hlab =>
    split at h
    · next htype =>
      simp only [bind_eq_ok, getOr_eq_ok, setRow_eq_ok] at h
      obtain ⟨row, _, ⟨hrow, rfl⟩, rfl⟩ := h
      have hid : a.resourceId = row.id := (Table.key_of_get? hrow).symm
      refine ⟨rfl, ?_⟩
      have hview : (Registry.ofStore s.store).exports a.entry.resourceId = some row.entry :=
        Registry.exports_ofStore hrow
      rw [Registry.decideResource, if_neg (show a.entry.resourceType ≠ "lab" from hlab),
        if_pos (show a.entry.resourceType = "export" from htype), Registry.changeExport, change_eq hview]
      cases decision <;> simp [Registry.ofStore, App.decidedExport, ExportRow.entry, ApprovalRow.entry, hid]
    · next hexport =>
      obtain ⟨-, rfl⟩ := pure_eq_ok.mp h
      refine ⟨rfl, ?_⟩
      rw [Registry.decideResource, if_neg (show a.entry.resourceType ≠ "lab" from hlab),
        if_neg (show a.entry.resourceType ≠ "export" from hexport)]

omit [Content β] in
theorem journaled_of_decideRequest {decision : App.Decision} {approvalId actor : String}
    {comment : Option String} {row : ApprovalRow}
    (h : App.decideRequest now decision approvalId actor comment s = .ok row s') :
    Journaled s.store s'.store := by
  simp [App.decideRequest, App.applyApprovalDecision, bind_eq_ok] at h
  obtain ⟨a, ha, _, _, hpending, -, _, s₂, hresource, rfl, rfl⟩ := h
  obtain ⟨hstate, -, rfl⟩ := ensureApprovalPending_eq_ok hpending
  obtain rfl : a.id = approvalId := Table.key_of_get? ha
  obtain ⟨hevents, hread⟩ := decideResource_read hresource
  refine ⟨[decidedEvent decision actor comment a], ?_, ?_⟩
  · rw [← hevents]
    rfl
  · rw [replay_cons, read_decided now decision actor comment ha hstate]
    exact congrArg (Option.bind · _) hread

/-! ### What a job creates -/

/-- What is known when the jobs are known otherwise. -/
def Registry.withJobs (g : Registry) (jobs : String → Option JobEntry) : Registry := { g with jobs := jobs }

/-- The events appended tell what became of the rows, whatever becomes of the jobs meanwhile. -/
def Apart (st st' : Store) : Prop :=
  st'.schedulerJobs = st.schedulerJobs ∧ ∃ es, st'.events = st.events ++ es ∧
    ∀ jobs, replay Registry.read ((Registry.ofStore st).withJobs jobs) es =
      some ((Registry.ofStore st').withJobs jobs)

theorem Apart.journaled {st st' : Store} (h : Apart st st') : Journaled st st' := by
  obtain ⟨hjobs, es, hevents, hreplay⟩ := h
  refine ⟨es, hevents, ?_⟩
  have hst' : (Registry.ofStore st').withJobs (Registry.ofStore st).jobs = Registry.ofStore st' := by
    simp [Registry.withJobs, Registry.ofStore, hjobs]
  exact hst' ▸ hreplay (Registry.ofStore st).jobs

theorem apart_of_createRunRecord {labId command : String} {requester : RequesterType} {run : RunRow}
    (h : App.createRunRecord env now labId command requester s = .ok run s') : Apart s.store s'.store := by
  simp [App.createRunRecord, bind_eq_ok] at h
  obtain ⟨⟨lab, hlab⟩, hfresh, rfl, rfl⟩ := h
  refine ⟨rfl, _, rfl, fun jobs => ?_⟩
  have hviewed : ((Registry.ofStore s.store).withJobs jobs).labs labId = some lab.entry :=
    Registry.labs_ofStore hlab
  have hnew : ((Registry.ofStore s.store).withJobs jobs).runs (env.uuid4 s.minted) = none :=
    Registry.runs_ofStore_none hfresh
  rw [replay_cons, Registry.read_eq .runQueued rfl rfl]
  simp [Registry.readKind, Registry.runQueued, Json.get?, hviewed, add_eq_some hnew]
  simp [Registry.ofStore, Registry.withJobs, RunRow.entry]

/-- The event of a lab request. -/
def labRequestedEvent (now : ℤ) (labId : String) (decision : RequestDecision) (requester : RequesterType) :
    EventRow where
  eventType := "lab.requested"
  labId := some labId
  actorType := requester.actorType
  resourceType := some "lab"
  resourceId := some labId
  payload := [
    ("profile_name", .str decision.profileName),
    ("runtime_class", .str decision.runtimeClass.value),
    ("state", .str (App.newLab now labId decision).state.value)]

/-- It adds the lab. -/
theorem read_labRequested {g : Registry} {labId : String} (now : ℤ) (decision : RequestDecision)
    (requester : RequesterType) (hfresh : g.labs labId = none) :
    Registry.read g (labRequestedEvent now labId decision requester) = some { g with
      labs := Function.update g.labs labId (some (App.newLab now labId decision).entry) } := by
  rw [Registry.read_eq .labRequested rfl rfl]
  simp [Registry.readKind, Registry.labRequested, labRequestedEvent, Json.get?,
    add_eq_some hfresh, App.newLab,
    LabRow.entry]

theorem apart_of_createLabRecord {profileName : String} {requester : RequesterType} {lab : LabRow}
    (h : App.createLabRecord env now profileName requester s = .ok lab s') : Apart s.store s'.store := by
  simp [App.createLabRecord, bind_eq_ok] at h
  obtain ⟨decision, -, allocation, d, -, hfresh, -, _, s₁, hasks, rfl, rfl⟩ := h
  have hnew : ∀ jobs, ((Registry.ofStore s.store).withJobs jobs).labs (env.uuid4 s.minted) = none := fun _ =>
    Registry.labs_ofStore_none hfresh
  unfold App.requestLabApproval App.recordApprovalRequest at hasks
  rcases whenever_eq_ok.mp hasks with ⟨-, hasks⟩ | ⟨-, rfl⟩
  · simp [bind_eq_ok] at hasks
    obtain ⟨hunasked, rfl⟩ := hasks
    -- the approval is recorded before the lab
    refine ⟨rfl, [App.approvalRequested _ _ none,
      labRequestedEvent now (env.uuid4 s.minted) decision requester],
      List.append_assoc _ _ _, fun jobs => ?_⟩
    have hunasked' : ((Registry.ofStore s.store).withJobs jobs).approvals (env.uuid4 (s.minted + 1)) = none :=
      Registry.approvals_ofStore_none hunasked
    rw [replay_cons, read_approvalRequested hunasked' rfl rfl rfl ⟨rfl, rfl⟩, Option.bind_some, replay_cons,
      read_labRequested]
    · simp [Registry.ofStore, Registry.withJobs, App.newLab, LabRow.entry]
    · exact hnew jobs
  · refine ⟨rfl, [labRequestedEvent now (env.uuid4 s.minted) decision requester], rfl, fun jobs => ?_⟩
    rw [replay_cons, read_labRequested now decision requester (hnew jobs)]
    simp [Registry.ofStore, Registry.withJobs, App.newLab, LabRow.entry]

/-- The action of a job is journaled apart from the jobs, and nothing is left of it where it raised. -/
theorem apart_of_action {job : SchedulerJobRow} {outcome : Except Exc (String × String)}
    (h : attempt (rollingBack (SchedulerService.action (App.createJobLab env now) (App.createJobRun env now)
      job)) s = .ok outcome s') : Apart s.store s'.store := by
  rcases attempt_eq_ok.mp h with ⟨result, rfl, haction⟩ | ⟨e, rfl, haction⟩
  · rcases SchedulerService.action_eq_ok (rollingBack_eq_ok.mp haction) with
      ⟨profileName, id, -, -, hcreate, -⟩ | ⟨labId, command, id, -, -, -, hcreate, -⟩
    · simp [App.createJobLab] at hcreate
      obtain ⟨lab, hcreate, -⟩ := hcreate
      exact apart_of_createLabRecord hcreate
    · simp [App.createJobRun] at hcreate
      obtain ⟨run, hcreate, -⟩ := hcreate
      exact apart_of_createRunRecord hcreate
  · rw [store_of_rollingBack_error haction]
    exact ⟨rfl, [], by simp, fun jobs => rfl⟩

section Dispatch

variable {g : Registry} {job row : SchedulerJobRow}

/-- The first event of a dispatch is read as the job claimed. -/
theorem read_dispatched {n : ℕ} (hrow : row.id = job.id) (hn : n = job.attemptCount + 1)
    (hjob : g.jobs job.id = some job.entry) (hqueued : job.state = .queued) :
    Registry.read g (App.jobEvent "scheduler_job.dispatched" row
        [("action", .str row.action.value), ("attempt_count", .int n)]) =
      some (g.withJobs (Function.update g.jobs job.id (some (SchedulerService.claimed now job).entry))) := by
  have hentry : job.entry.state = .queued := hqueued
  rw [Registry.read_eq .schedulerJobDispatched rfl rfl]
  simp [Registry.readKind, Registry.jobDispatched, Registry.changeJob, App.jobEvent, Json.get?, hrow, hn,
    change_eq hjob, hentry]
  simp [Registry.withJobs, SchedulerService.claimed, SchedulerJobRow.entry]

/-- What the second event of a dispatch says of its job. -/
def settledPayload (row : SchedulerJobRow) : List (String × Json) :=
  [("state", .str row.state.value), ("attempt_count", .int row.attemptCount),
    ("last_error", .ofOption row.lastError), ("result_resource_type", .ofOption row.resultResourceType),
    ("result_resource_id", .ofOption row.resultResourceId)]

/-- The second event is read as the job settled in a state. -/
theorem jobSettled_eq {e : EventRow} (state : SchedulerJobState) (hpayload : e.payload = settledPayload row)
    (hjob : g.jobs job.id = some job.entry) (hdispatched : job.state = .dispatched)
    (hrow : row.entry = { job.entry with
      state := state
      lastError := row.lastError
      resultResourceType := row.resultResourceType
      resultResourceId := row.resultResourceId }) :
    Registry.jobSettled g job.id e state =
      some (g.withJobs (Function.update g.jobs job.id (some row.entry))) := by
  have hentry : job.entry.state = .dispatched := hdispatched
  simp [Registry.jobSettled, Registry.changeJob, hpayload, settledPayload, Json.get?, change_eq hjob, hentry]
  rw [hrow]
  rfl

theorem read_settled (hid : row.id = job.id) (hjob : g.jobs job.id = some job.entry)
    (hdispatched : job.state = .dispatched)
    (hstate : row.state = .succeeded ∨ row.state = .failed ∨ row.state = .queued)
    (hrow : row.entry = { job.entry with
      state := row.state
      lastError := row.lastError
      resultResourceType := row.resultResourceType
      resultResourceId := row.resultResourceId }) :
    Registry.read g (App.jobEvent
        (if row.state = .succeeded then "scheduler_job.succeeded"
          else if row.state = .failed then "scheduler_job.failed"
          else "scheduler_job.requeued") row (settledPayload row)) =
      some (g.withJobs (Function.update g.jobs job.id (some row.entry))) := by
  have hsettled := fun e hpayload => jobSettled_eq (e := e) row.state hpayload hjob hdispatched hrow
  rw [← hid] at hsettled ⊢
  rcases hstate with hstate | hstate | hstate <;> simp only [hstate] at hsettled ⊢
  · exact (Registry.read_eq .schedulerJobSucceeded rfl rfl).trans (hsettled _ rfl)
  · exact (Registry.read_eq .schedulerJobFailed rfl rfl).trans (hsettled _ rfl)
  · exact (Registry.read_eq .schedulerJobRequeued rfl rfl).trans (hsettled _ rfl)

omit [Content β] in
/-- A settled job has one attempt more, and is in one of three states. -/
theorem settled_cases (now : ℤ) (job : SchedulerJobRow) (outcome : Except Exc (String × String)) :
    let row := SchedulerService.settled now (SchedulerService.claimed now job) outcome
    row.attemptCount = job.attemptCount + 1 ∧
      (row.state = .succeeded ∨ row.state = .failed ∨ row.state = .queued) ∧
      row.entry = { (SchedulerService.claimed now job).entry with
        state := row.state
        lastError := row.lastError
        resultResourceType := row.resultResourceType
        resultResourceId := row.resultResourceId } := by
  cases outcome with
  | ok result => simp [SchedulerService.settled, SchedulerService.claimed, SchedulerJobRow.entry]
  | error e =>
    by_cases hlast : job.maxAttempts ≤ job.attemptCount + 1 <;>
      simp [SchedulerService.settled, SchedulerService.claimed, SchedulerJobRow.entry, hlast]

/-- The two events of a dispatch are read as the job settled. -/
theorem replay_dispatchEvents {outcome : Except Exc (String × String)} (now : ℤ)
    (hjob : g.jobs job.id = some job.entry) (hqueued : job.state = .queued) :
    replay Registry.read g (dispatchEvents
        (SchedulerService.settled now (SchedulerService.claimed now job) outcome)) =
      some (g.withJobs (Function.update g.jobs job.id
        (some (SchedulerService.settled now (SchedulerService.claimed now job) outcome).entry))) := by
  obtain ⟨hattempts, hstate, hrow⟩ := settled_cases now job outcome
  have hid : (SchedulerService.settled now (SchedulerService.claimed now job) outcome).id = job.id :=
    SchedulerService.settled_id now _ outcome
  have hclaimed : (SchedulerService.settled now (SchedulerService.claimed now job) outcome).id =
      (SchedulerService.claimed now job).id := hid
  rw [dispatchEvents, replay_cons, read_dispatched hid hattempts hjob hqueued, Option.bind_some, replay_cons]
  erw [read_settled hclaimed (Function.update_self _ _ _) rfl hstate hrow]
  simp [Registry.withJobs, SchedulerService.claimed]

end Dispatch

theorem journaled_of_dispatchNextSchedulerJob {row : SchedulerJobRow}
    (h : App.dispatchNextSchedulerJob env now s = .ok row s') : Journaled s.store s'.store := by
  simp [App.dispatchNextSchedulerJob, bind_eq_ok] at h
  obtain ⟨s₁, h, _, hrecord⟩ := h
  obtain ⟨job, outcome, s₂, hnext, hattempt, rfl, rfl⟩ := runNext_eq_ok.mp h
  obtain ⟨hjob, hqueued⟩ := nextJob_eq_some hnext
  obtain ⟨hjobs, es, hevents, hreplay⟩ := apart_of_action hattempt
  -- what the job creates is read before the events of the dispatch, with the job still queued
  have hcreated : replay Registry.read (Registry.ofStore s.store) es =
      some ((Registry.ofStore s₂.store).withJobs (Registry.ofStore s.store).jobs) :=
    hreplay (Registry.ofStore s.store).jobs
  have hqueuedJob : ((Registry.ofStore s₂.store).withJobs (Registry.ofStore s.store).jobs).jobs job.id =
      some job.entry := Registry.jobs_ofStore hjob
  have hstore := recordDispatch_eq_ok hrecord
  refine ⟨es ++ dispatchEvents
    (SchedulerService.settled now (SchedulerService.claimed now job) outcome), ?_, ?_⟩
  · rw [hstore, ← List.append_assoc]
    exact congrArg (· ++ _) hevents
  · rw [hstore, replay_append, hcreated, Option.bind_some,
      replay_dispatchEvents now hqueuedJob hqueued]
    simp [Registry.ofStore, Registry.withJobs, hjobs, SchedulerService.claimed]

end Handlers

/-! ### What a pass journals -/

section Pass

omit [Content β]

variable {γ ρ : Type} {key : ρ → String} {now : DateTime} {s s' : Session β}
  {report report' : ReconciliationReport}

/-- What an expiry does to its lab is what it is read as. -/
theorem expireResource_read_lab {a : ApprovalRow} {lab : LabRow} {u : Unit}
    (hlab : s.store.labs.get? a.resourceId = some lab) (htype : a.resourceType = "lab")
    (h : whenever (lab.state = .pendingApproval) (setRow .labs { lab with state := .failed }) s = .ok u s') :
    s'.store.events = s.store.events ∧
      Registry.expireResource (.ofStore s.store) a.entry = .ofStore s'.store := by
  rw [Registry.expireResource, if_pos (show a.entry.resourceType = "lab" from htype), Registry.changeLab]
  have hview : (Registry.ofStore s.store).labs a.entry.resourceId = some lab.entry :=
    Registry.labs_ofStore hlab
  have hid : a.resourceId = lab.id := (Table.key_of_get? hlab).symm
  rw [change_eq hview]
  rcases whenever_eq_ok.mp h with ⟨hpending, h⟩ | ⟨hpending, rfl⟩
  · obtain rfl := setRow_eq_ok.mp h
    have hentry : lab.entry.state = .pendingApproval := of_decide_eq_true hpending
    refine ⟨rfl, ?_⟩
    rw [if_pos hentry]
    simp [Registry.ofStore, LabRow.entry, ApprovalRow.entry, hid]
  · have hentry : lab.entry.state ≠ .pendingApproval := of_decide_eq_false hpending
    exact ⟨rfl, by rw [if_neg hentry]; rfl⟩

/-- What it does to its export is. -/
theorem expireResource_read_export {a : ApprovalRow} {row : ExportRow}
    (hrow : s.store.exports.get? a.resourceId = some row) (htype : a.resourceType = "export") :
    Registry.expireResource (.ofStore s.store) a.entry =
      .ofStore { s.store with exports := s.store.exports.put (expiredExport row) } := by
  have hview : (Registry.ofStore s.store).exports a.entry.resourceId = some row.entry :=
    Registry.exports_ofStore hrow
  have hid : a.resourceId = row.id := (Table.key_of_get? hrow).symm
  have hlab : a.entry.resourceType ≠ "lab" := fun hlab => by
    rw [show a.entry.resourceType = "export" from htype] at hlab
    exact absurd hlab (by decide)
  rw [Registry.expireResource, if_neg hlab, if_pos (show a.entry.resourceType = "export" from htype),
    Registry.changeExport, change_eq hview]
  simp [Registry.ofStore, ExportRow.entry, ApprovalRow.entry, expiredExport, hid]

/-- **What an expiry does to its resource** is what it is read as. -/
theorem expireResource_read {a : ApprovalRow} {u : Unit} (h : expireResource a s = .ok u s') :
    s'.store.events = s.store.events ∧
      Registry.expireResource (.ofStore s.store) a.entry = .ofStore s'.store := by
  unfold expireResource at h
  split at h
  · next htype =>
    simp only [bind_eq_ok, getRow_eq_ok] at h
    obtain ⟨lab, _, ⟨hlab, rfl⟩, h⟩ := h
    cases lab with
    | none =>
      obtain ⟨-, rfl⟩ := pure_eq_ok.mp h
      have hview : (Registry.ofStore s.store).labs a.entry.resourceId = none :=
        Registry.labs_ofStore_none hlab
      rw [Registry.expireResource, if_pos (show a.entry.resourceType = "lab" from htype), Registry.changeLab]
      exact ⟨rfl, by simp [change, hview]⟩
    | some lab => exact expireResource_read_lab hlab htype h
  · next hlab =>
    split at h
    · next htype =>
      simp only [bind_eq_ok, getRow_eq_ok] at h
      obtain ⟨row, _, ⟨hrow, rfl⟩, h⟩ := h
      cases row with
      | none =>
        obtain ⟨-, rfl⟩ := pure_eq_ok.mp h
        have hview : (Registry.ofStore s.store).exports a.entry.resourceId = none :=
          Registry.exports_ofStore_none hrow
        rw [Registry.expireResource, if_neg (show a.entry.resourceType ≠ "lab" from hlab),
          if_pos (show a.entry.resourceType = "export" from htype), Registry.changeExport]
        exact ⟨rfl, by simp [change, hview]⟩
      | some row =>
        obtain rfl := setRow_eq_ok.mp h
        exact ⟨rfl, expireResource_read_export hrow htype⟩
    · next hexport =>
      obtain ⟨-, rfl⟩ := pure_eq_ok.mp h
      refine ⟨rfl, ?_⟩
      rw [Registry.expireResource, if_neg (show a.entry.resourceType ≠ "lab" from hlab),
        if_neg (show a.entry.resourceType ≠ "export" from hexport)]

theorem journaled_of_expireApproval {a : ApprovalRow} (hpending : a.state = .requested)
    (ha : s.store.approvals.get? a.id = some a) (h : expireApproval now report a s = .ok report' s') :
    Journaled s.store s'.store := by
  unfold expireApproval at h
  split at h
  · simp only [bind_eq_ok, setRow_eq_ok, recordEvent_eq_ok, pure_eq_ok] at h
    obtain ⟨_, _, rfl, _, s₂, hresource, _, _, rfl, -, rfl⟩ := h
    obtain ⟨hevents, hread⟩ := expireResource_read hresource
    refine .single (by rw [hevents]) ?_
    have hentry : a.entry.state = .requested := hpending
    have hview := Registry.approvals_ofStore ha
    rw [Registry.read_eq .approvalExpired rfl rfl, Registry.readKind, Registry.approvalExpired]
    simp only [hview, Registry.changeApproval, change_eq hview, hentry, if_true, Option.bind_eq_bind,
      Option.bind_some, Option.map_some]
    refine congrArg some (Eq.trans ?_ hread)
    simp [Registry.ofStore, ApprovalRow.entry, event]
  · obtain ⟨-, rfl⟩ := pure_eq_ok.mp h
    exact .refl _

theorem journaled_of_revokeExpired {lease : SecretLeaseRow} (hlive : lease.revokedAt = none)
    (hlease : s.store.secretLeases.get? lease.id = some lease)
    (h : revokeExpired now report lease s = .ok report' s') : Journaled s.store s'.store ∧
      ∀ k, k ≠ lease.id → s'.store.secretLeases.get? k = s.store.secretLeases.get? k := by
  unfold revokeExpired at h
  split at h
  · simp only [bind_eq_ok, setRow_eq_ok, recordEvent_eq_ok, pure_eq_ok] at h
    obtain ⟨_, _, rfl, _, _, rfl, -, rfl⟩ := h
    refine ⟨.leaseRow ?_, fun k hk => Table.get?_put_ne hk⟩
    rw [Registry.read_eq .secretLeaseExpired rfl rfl]
    simp [Registry.readKind, Registry.leaseRevoked, Registry.changeLease,
      change_eq (Registry.leases_ofStore hlease), hlive, SecretLeaseRow.entry]
  · obtain ⟨-, rfl⟩ := pure_eq_ok.mp h
    exact ⟨.refl _, fun _ _ => rfl⟩

theorem journaled_of_timeoutRun {run : RunRow}
    (hwaiting : run.state = .queued ∨ run.state = .starting ∨ run.state = .running)
    (hrun : s.store.runs.get? run.id = some run)
    (h : timeoutRun now report run s = .ok report' s') : Journaled s.store s'.store ∧
      ∀ k, k ≠ run.id → s'.store.runs.get? k = s.store.runs.get? k := by
  unfold timeoutRun at h
  split at h
  · simp only [bind_eq_ok, setRow_eq_ok, recordEvent_eq_ok, pure_eq_ok] at h
    obtain ⟨_, _, rfl, _, _, rfl, -, rfl⟩ := h
    refine ⟨.runRow ?_, fun k hk => Table.get?_put_ne hk⟩
    rw [Registry.read_eq .runTimedOut rfl rfl]
    simp [Registry.readKind, Registry.changeRun, change_eq (Registry.runs_ofStore hrun),
      hwaiting, RunRow.entry]
  · obtain ⟨-, rfl⟩ := pure_eq_ok.mp h
    exact ⟨.refl _, fun _ _ => rfl⟩

/-- The event of a destroy that failed is read as the lab it leaves behind. -/
theorem destroyFailed_eq {g : Registry} {lab failed : LabRow} {e : EventRow} {service : Reconciler β}
    (state : LabState) (hpayload : e.payload = attemptPayload service failed)
    (hlab : g.labs lab.id = some lab.entry) (hdestroying : lab.state = .destroying)
    (hfailed : failed.entry = { lab.entry with
      state := state, destroyAttempts := failed.destroyAttempts, lastDestroyError :=
        failed.lastDestroyError }) :
    Registry.destroyFailed g lab.id e state =
      some { g with labs := Function.update g.labs lab.id (some failed.entry) } := by
  have hentry : lab.entry.state = .destroying := hdestroying
  simp [Registry.destroyFailed, Registry.changeLab, hpayload, attemptPayload, Json.get?,
    change_eq hlab, hentry]
  rw [hfailed]

theorem journaled_of_failDestroy {service : Reconciler β} (lab : LabRow) {failed : LabRow}
    (hlab : s.store.labs.get? lab.id = some lab) (hdestroying : lab.state = .destroying)
    (hfailed : failed.id = lab.id) (hprofile : failed.profileName = lab.profileName)
    (hruntime : failed.runtimeClass = lab.runtimeClass)
    (h : failDestroy service report failed s = .ok report' s') : Journaled s.store s'.store := by
  simp only [failDestroy, bind_eq_ok, setRow_eq_ok, recordEvent_eq_ok, pure_eq_ok] at h
  obtain ⟨_, _, rfl, _, _, rfl, -, rfl⟩ := h
  refine .labRow ?_
  rw [Registry.read_eq .labDestroyFailed rfl rfl, Registry.readKind]
  dsimp only
  rw [hfailed]
  exact destroyFailed_eq .failed rfl (Registry.labs_ofStore hlab) hdestroying
    (by simp [LabRow.entry, hprofile, hruntime])

theorem journaled_of_retryDestroy {service : Reconciler β} {destroyer : StorageAllocation → DiskM β Unit}
    {storageOf : String → Option LabStorageRow} {lab : LabRow} (hdestroying : lab.state = .destroying)
    (hlab : s.store.labs.get? lab.id = some lab)
    (h : retryDestroy service destroyer storageOf report lab s = .ok report' s') :
    Journaled s.store s'.store := by
  unfold retryDestroy at h
  cases hstorage : storageOf lab.id with
  | none =>
    rw [hstorage] at h
    refine journaled_of_failDestroy lab hlab hdestroying ?_ ?_ ?_ h
    all_goals rfl
  | some storageRow =>
    rw [hstorage] at h
    obtain ⟨outcome, s₁, h₁, h⟩ := bind_eq_ok.mp h
    have hs₁ : s₁.store = s.store := by
      rcases attempt_eq_ok.mp h₁ with ⟨_, -, h₁⟩ | ⟨_, -, h₁⟩
      · obtain ⟨d, -, rfl⟩ := onDisk_eq_ok.mp h₁
        rfl
      · exact store_of_onDisk_error h₁
    rw [← hs₁] at hlab ⊢
    have hview := Registry.labs_ofStore hlab
    cases outcome with
    | error e =>
      simp only [bind_eq_ok, setRow_eq_ok, recordEvent_eq_ok] at h
      obtain ⟨_, s₂, rfl, _, s₃, rfl, h⟩ := h
      have hretry : Journaled s₁.store { s₁.store with
          labs := s₁.store.labs.put (retriedLab e lab)
          events := s₁.store.events ++ [event "lab.destroy_retry_failed" "lab" lab.id (some lab.id) none
            (attemptPayload service (retriedLab e lab))] } := by
        refine .labRow ?_
        rw [Registry.read_eq .labDestroyRetryFailed rfl rfl, Registry.readKind]
        exact destroyFailed_eq .destroying rfl hview hdestroying
          (by simp [LabRow.entry, retriedLab, hdestroying])
      split at h
      · -- the last attempt: the lab is failed on top of it
        exact hretry.trans (journaled_of_failDestroy (retriedLab e lab) (Table.get?_put_self _ _)
          hdestroying rfl rfl rfl h)
      · obtain ⟨-, rfl⟩ := pure_eq_ok.mp h
        exact hretry
    | ok u =>
      simp only [bind_eq_ok, setRow_eq_ok, recordEvent_eq_ok, pure_eq_ok] at h
      obtain ⟨_, _, rfl, _, _, rfl, -, rfl⟩ := h
      refine .labRow ?_
      rw [Registry.read_eq .labDestroyed rfl rfl]
      have hentry : lab.entry.state ≠ .destroyed := by simp [LabRow.entry, hdestroying]
      simp [Registry.readKind, Registry.labDestroyed, Registry.changeLab, event, Json.get?, change_eq hview,
        hentry]
      simp [LabRow.entry]

theorem journaled_of_checkStorage {storageOf : String → Option LabStorageRow} {labId : String}
    (h : checkStorage storageOf report labId s = .ok report' s') : Journaled s.store s'.store := by
  unfold checkStorage at h
  simp only [bind_eq_ok, getRow_eq_ok] at h
  obtain ⟨lab, _, ⟨hlab, rfl⟩, h⟩ := h
  cases lab with
  | none =>
    obtain ⟨-, rfl⟩ := pure_eq_ok.mp h
    exact .refl _
  | some lab =>
    obtain rfl : lab.id = labId := Table.key_of_get? hlab
    dsimp only at h
    split at h
    · obtain ⟨-, rfl⟩ := pure_eq_ok.mp h
      exact .refl _
    · next halive =>
      obtain ⟨reason, s₁, h₁, h⟩ := bind_eq_ok.mp h
      obtain ⟨d, -, rfl⟩ := onDisk_eq_ok.mp h₁
      cases reason with
      | none =>
        obtain ⟨-, rfl⟩ := pure_eq_ok.mp h
        exact .refl _
      | some reason =>
        simp only [bind_eq_ok, setRow_eq_ok, recordEvent_eq_ok, pure_eq_ok] at h
        obtain ⟨_, _, rfl, _, _, rfl, -, rfl⟩ := h
        refine .labRow ?_
        rw [Registry.read_eq .labReconciliationFailed rfl rfl]
        simp [Registry.readKind, Registry.changeLab, change_eq (Registry.labs_ofStore hlab),
          halive, LabRow.entry]

theorem journaled_of_inspect {inspection : LabInspection} (h : inspect report inspection s = .ok report' s') :
    Journaled s.store s'.store := by
  unfold inspect at h
  simp only [bind_eq_ok, getRow_eq_ok] at h
  obtain ⟨lab, _, ⟨hlab, rfl⟩, h⟩ := h
  cases lab with
  | none =>
    simp only [bind_eq_ok, recordEvent_eq_ok, pure_eq_ok] at h
    obtain ⟨_, _, rfl, -, rfl⟩ := h
    refine .single rfl ?_
    rw [Registry.read_eq .runtimeLabOrphanDetected rfl rfl]
    simp only [Registry.readKind, Registry.labs_ofStore_none hlab]
    rfl
  | some lab =>
    dsimp only at h
    split at h
    · simp only [bind_eq_ok, recordEvent_eq_ok, pure_eq_ok] at h
      obtain ⟨_, _, rfl, -, rfl⟩ := h
      refine .single rfl ?_
      rw [Registry.read_eq .runtimeLabZombieDetected rfl rfl]
      simp only [Registry.readKind, Registry.labs_ofStore hlab]
      rfl
    · obtain ⟨-, rfl⟩ := pure_eq_ok.mp h
      exact .refl _

theorem journaled_of_expireStaleApprovals (h : expireStaleApprovals now report s = .ok report' s') :
    Journaled s.store s'.store := by
  simp only [expireStaleApprovals, bind_eq_ok, get_eq_ok] at h
  obtain ⟨_, _, ⟨rfl, rfl⟩, h⟩ := h
  refine foldlM_selected (R := Journaled) .refl .trans .approvals (fun _ _ a _ _ hp ha h => ?_)
    (Table.nodup_select _ _ _)
    (fun _ ha => get?_of_mem_select ha) h
  have hpending : a.state = .requested := by
    simp only [Bool.and_eq_true, decide_eq_true_eq] at hp
    exact hp.1
  exact ⟨journaled_of_expireApproval hpending ha h, (expireApproval_eq_ok hpending ha h).2⟩

theorem journaled_of_revokeExpiredSecretLeases
    (h : revokeExpiredSecretLeases now report s = .ok report' s') : Journaled s.store s'.store := by
  simp only [revokeExpiredSecretLeases, bind_eq_ok, get_eq_ok] at h
  obtain ⟨_, _, ⟨rfl, rfl⟩, h⟩ := h
  refine foldlM_selected (R := Journaled) .refl .trans .secretLeases (fun _ _ lease _ _ hp hlease h => ?_)
    (Table.nodup_select _ _ _)
    (fun _ hl => get?_of_mem_select hl) h
  exact journaled_of_revokeExpired (by simpa using hp) hlease h

theorem journaled_of_timeoutOverdueRuns (h : timeoutOverdueRuns now report s = .ok report' s') :
    Journaled s.store s'.store := by
  simp only [timeoutOverdueRuns, bind_eq_ok, get_eq_ok] at h
  obtain ⟨_, _, ⟨rfl, rfl⟩, h⟩ := h
  refine foldlM_selected (R := Journaled) .refl .trans .runs (fun _ _ run _ _ hp hrun h => ?_)
    (Table.nodup_select _ _ _)
    (fun _ hr => get?_of_mem_select hr) h
  have hwaiting : run.state = .queued ∨ run.state = .starting ∨ run.state = .running := by
    simp only [Bool.and_eq_true, Bool.or_eq_true, decide_eq_true_eq] at hp
    exact or_assoc.mp hp.1
  exact journaled_of_timeoutRun hwaiting hrun h

theorem journaled_of_retryDestroyingLabs {service : Reconciler β} {storageOf : String → Option LabStorageRow}
    (h : retryDestroyingLabs service storageOf report s = .ok report' s') : Journaled s.store s'.store := by
  unfold retryDestroyingLabs at h
  cases hd : service.storageDestroyer with
  | none =>
    rw [hd] at h
    obtain ⟨-, rfl⟩ := pure_eq_ok.mp h
    exact .refl _
  | some destroyer =>
    simp only [hd, bind_eq_ok, get_eq_ok] at h
    obtain ⟨_, _, ⟨rfl, rfl⟩, h⟩ := h
    refine foldlM_selected (R := Journaled) .refl .trans .labs (fun _ _ lab _ _ hp hlab h => ?_)
      (Table.nodup_select _ _ _)
      (fun _ hl => get?_of_mem_select hl) h
    have hdestroying : lab.state = .destroying := by simpa using hp
    obtain ⟨-, hothers⟩ : Sweeps (.utc 0) _ _ ∧ _ := retryDestroy_eq_ok hdestroying hlab h
    exact ⟨journaled_of_retryDestroy hdestroying hlab h, hothers⟩

/-- **A pass is journaled**, sweep by sweep. -/
theorem journaled_of_reconcile {service : Reconciler β} (h : reconcile service now s = .ok report s') :
    Journaled s.store s'.store := by
  simp only [reconcile, bind_eq_ok, get_eq_ok, pure_eq_ok] at h
  obtain ⟨_, _, ⟨rfl, rfl⟩, _, s₁, h₁, _, s₂, h₂, _, s₃, h₃, _, s₄, h₄, _, s₅, h₅, _, s₆, h₆, -, rfl⟩ := h
  have hswept : Journaled s.store s₃.store :=
    (journaled_of_expireStaleApprovals h₁).trans <|
      (journaled_of_revokeExpiredSecretLeases h₂).trans (journaled_of_timeoutOverdueRuns h₃)
  exact hswept.trans <| (journaled_of_retryDestroyingLabs h₄).trans <|
    (foldlM_relates (R := fun s s' : Session β => Journaled s.store s'.store) (fun s => .refl s.store) .trans
      (fun _ _ _ _ _ => journaled_of_checkStorage) h₅).trans <|
    foldlM_relates (R := fun s s' : Session β => Journaled s.store s'.store) (fun s => .refl s.store) .trans
      (fun _ _ _ _ _ => journaled_of_inspect) h₆

end Pass

/-! ### Requests and runs -/

section Requests

variable {env : Environment β} {now : ℤ} {r : Request β} {s s' : Session β}

/-- **Every handler is journaled.** -/
theorem journaled_of_handler {result : Except Exc Response} (h : handler env now r s = .ok result s') :
    Journaled s.store s'.store := by
  cases r with
  | createLab =>
    obtain ⟨row, h, -⟩ := map_eq_ok.mp h
    exact (apart_of_createLabRecord h).journaled
  | destroyLab =>
    obtain ⟨row, h, -⟩ := map_eq_ok.mp h
    exact journaled_of_destroyLab h
  | createSecretLease =>
    obtain ⟨row, h, -⟩ := map_eq_ok.mp h
    exact journaled_of_createSecretLease h
  | revokeSecretLease =>
    obtain ⟨row, h, -⟩ := map_eq_ok.mp h
    exact journaled_of_revokeSecretLease h
  | createRun =>
    obtain ⟨row, h, -⟩ := map_eq_ok.mp h
    exact (apart_of_createRunRecord h).journaled
  | enqueueSchedulerJob =>
    obtain ⟨row, h, -⟩ := map_eq_ok.mp h
    exact journaled_of_enqueueSchedulerJob h
  | dispatchNextSchedulerJob =>
    obtain ⟨row, h, -⟩ := map_eq_ok.mp h
    exact journaled_of_dispatchNextSchedulerJob h
  | approveRequest | denyRequest =>
    obtain ⟨row, h, -⟩ := map_eq_ok.mp h
    exact journaled_of_decideRequest h
  | createSnapshot =>
    obtain ⟨row, h, -⟩ := map_eq_ok.mp h
    exact journaled_of_createSnapshot h
  | restoreSnapshot =>
    obtain ⟨row, h, -⟩ := map_eq_ok.mp h
    exact journaled_of_restoreSnapshot h
  | createExport =>
    obtain ⟨row, h, -⟩ := map_eq_ok.mp h
    exact journaled_of_createExport h
  | releaseExport =>
    obtain ⟨released, h, -⟩ := map_eq_ok.mp h
    exact journaled_of_releaseExport h
  | denyExport =>
    obtain ⟨row, h, -⟩ := map_eq_ok.mp h
    exact journaled_of_denyExport h
  | reconcile =>
    obtain ⟨report, h, -⟩ := map_eq_ok.mp h
    exact journaled_of_reconcile h

/-- **Every action is journaled.** -/
theorem journaled_of_step (env : Environment β) (s : State β) (a : Action β) :
    Journaled s.store (step env s a).store := by
  cases a with
  | guest labId entries => exact .refl _
  | request r now fates =>
    show Journaled s.store (endState (answer env s r now fates)).store
    rcases store_of_answer env s r now fates with hstore | ⟨result, s₁, h, hstore⟩
    · rw [hstore]
      exact .refl _
    · rw [hstore]
      exact journaled_of_handler h

/-- **The rows can be read back from the events.** In every state of a run, reading the events from the
first on makes sense all the way, and gives every lab, run, approval, export, snapshot, lease and job
of the database, as it is: its state, and what the events say of it. -/
theorem rows_of_events (env : Environment β) (s₀ : State β) (h₀ : Initial env s₀)
    (actions : List (Action β)) :
    replay Registry.read .empty (runFrom env s₀ actions).store.events =
      some (.ofStore (runFrom env s₀ actions).store) := by
  refine Runs.after_keeps
    (I := fun s : State β => replay Registry.read .empty s.store.events = some (.ofStore s.store))
    (fun s a hs => replay_of_explained hs (journaled_of_step env s a)) ?_
  rw [h₀.store]
  rfl

end Requests

/-- A lab is requested and approved, a job starts a run in it, and a pass finds the time of the run up. -/
def journalRun : List (Action Blob) :=
  [.request (.createLab "red-zone" .human) 0 [],
   .request (.approveRequest "aa" "ops" none) 1 [],
   .request (.enqueueSchedulerJob
     { action := .startRun, requesterId := "cron", labId := some "a", command := some "make" }) 2 [],
   .request .dispatchNextSchedulerJob 3 [],
   .request (.reconcile (some []) true 3 (.utc 1000000000000)) 4 []]

/-- All of it can be told from the events. -/
theorem rows_of_events_journalRun :
    (replay Registry.read .empty (runFrom (symbolic defaultProfiles) emptyState journalRun).store.events).any
      (fun g => (g.labs "a").any (fun lab => lab.state = .approved) &&
        (g.jobs "aaa").any (fun job => job.state = .succeeded && job.resultResourceId = some "aaaa") &&
        (g.runs "aaaa").any fun run => run.state = .timedOut) = true := by
  rw [rows_of_events (symbolic defaultProfiles) emptyState (initial_emptyState _) journalRun]
  decide +kernel

end LabOS
