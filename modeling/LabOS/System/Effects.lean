import LabOS.System
import LabOS.System.Sweeps

/-!
# What a request does to the rows

`Effect r m m' st st'` says what answering the request `r` may make of the rows `st` when
the identifiers from the `m`-th to before the `m'`-th are taken: one constructor for each
way a request changes rows, with the guards its handler checked. It is derived once from
the handlers (`effect_of_answer`), and every property of the rows is then a case analysis
over it. A reconciliation pass is a sequence of `Sweep`s.
-/

namespace LabOS

open Exceptional

variable {β : Type} [Content β]

/-! ### Rows that are added -/

/-- An identifier taken from the `m`-th on and before the `m'`-th. -/
def Minted (env : Environment β) (m m' : ℕ) (id : String) : Prop := ∃ n, m ≤ n ∧ n < m' ∧ id = env.uuid4 n

/-- A pending approval for a resource is among the rows `t'`, which are otherwise `t`, where
one is demanded. -/
inductive Asks (demanded : Bool) (resourceType resourceId : String) (t : Table ApprovalRow.id) :
    Table ApprovalRow.id → Prop where
  | no (h : demanded = false) : Asks demanded resourceType resourceId t t
  | yes (h : demanded = true) (a : ApprovalRow) (fresh : t.get? a.id = none)
      (type : a.resourceType = resourceType)
      (resource : a.resourceId = resourceId)
      (pending : a.state = .requested ∧ a.approved = false ∧ a.decidedAt = none) :
      Asks demanded resourceType resourceId t (t.put a)

/-- The storage row of a lab, at the paths the allocator gives it. -/
def AtLayout (root : PosixPath) (row : LabStorageRow) : Prop :=
  row.rootPath = ManagedStorageAllocator.labRoot root row.labId ∧
    row.workspacePath = row.rootPath ++ ["workspace"] ∧
    row.exportsPath = row.rootPath ++ ["exports"] ∧ row.quarantinePath = row.rootPath ++ ["quarantine"] ∧
      row.snapshotsPath = row.rootPath ++ ["snapshots"]

/-- A lab, its storage row and its approval are added. -/
structure NewLab (env : Environment β) (profileName : String) (requester : RequesterType)
    (m m' : ℕ) (st : Store) (lab : LabRow) (storage : LabStorageRow)
    (approvals : Table ApprovalRow.id) : Prop where
  profile : ∃ profile, PolicyEngine.profile? env.profiles profileName = some profile ∧
    lab.profileName = profile.name ∧ lab.runtimeClass = profile.runtimeClass ∧
    lab.state = if PolicyEngine.demandsApproval profile requester then .pendingApproval else .approved
  minted : Minted env m m' lab.id
  fresh : st.labs.get? lab.id = none
  storageOf : storage.labId = lab.id
  layout : AtLayout env.root storage
  asks : Asks (lab.state = .pendingApproval) "lab" lab.id st.approvals approvals

/-- A run is added to a lab that exists. -/
structure NewRun (env : Environment β) (m m' : ℕ) (st : Store) (labId : String) (run : RunRow) : Prop where
  lab : ∃ lab, st.labs.get? labId = some lab
  labId : run.labId = labId
  state : run.state = .queued
  minted : Minted env m m' run.id
  fresh : st.runs.get? run.id = none

/-- A job is queued, under the quota of its requester. -/
structure NewJob (env : Environment β) (now : ℤ) (m m' : ℕ) (request : SchedulerJobCreateRequest) (st : Store)
    (job : SchedulerJobRow) : Prop where
  accepted : request.accepted = true
  quota : SchedulerService.pendingCount st request.requesterId < env.maxPendingJobsPerRequester
  minted : Minted env m m' job.id
  fresh : st.schedulerJobs.get? job.id = none
  state : job.state = .queued
  requester : job.requesterId = request.requesterId
  payload : job.action = request.action ∧ job.profileName = request.profileName ∧ job.labId = request.labId ∧
    job.command = request.command
  scheduledFor : job.scheduledFor = (request.scheduledFor.getD (.utc now)).column
  attempts : job.attemptCount = 0 ∧ job.maxAttempts = request.maxAttempts
  unfinished : job.resultResourceType = none ∧ job.resultResourceId = none ∧ job.lastError = none ∧
    job.completedAt = none

/-- A lease for a secret the profile of its lab allows. -/
structure NewLease (env : Environment β) (now : ℤ) (m m' : ℕ) (st : Store) (labId secretName : String)
    (ttlMinutes : ℤ) (lease : SecretLeaseRow) : Prop where
  allowed : ∃ lab profile, st.labs.get? labId = some lab ∧
    PolicyEngine.profile? env.profiles lab.profileName = some profile ∧
      secretName ∈ profile.allowedSecretNames
  minted : Minted env m m' lease.id
  fresh : st.secretLeases.get? lease.id = none
  labId : lease.labId = labId
  secretName : lease.secretName = secretName
  active : lease.approved = true ∧ lease.revokedAt = none
  expiresAt : lease.expiresAt = ((DateTime.utc now).addMinutes ttlMinutes).column

/-- A snapshot of a container lab. -/
structure NewSnapshot (env : Environment β) (m m' : ℕ) (st : Store) (labId : String)
    (row : SnapshotRow) : Prop where
  lab : ∃ lab, st.labs.get? labId = some lab ∧ lab.runtimeClass = .container
  storage : ∃ storage, st.labStorage.get? labId = some storage ∧
    row.backendRef = SnapshotManager.archivePath storage.snapshotsPath row.id
  labId : row.labId = labId
  minted : Minted env m m' row.id
  fresh : st.snapshots.get? row.id = none

/-- An export in quarantine, and the approval its release waits for. -/
structure NewExport (env : Environment β) (m m' : ℕ) (st : Store) (labId : String) (row : ExportRow)
    (approvals : Table ApprovalRow.id) : Prop where
  lab : ∃ lab profile, st.labs.get? labId = some lab ∧
    PolicyEngine.profile? env.profiles lab.profileName = some profile ∧
      row.approvalRequired = profile.approvalOnExport
  storage : ∃ storage name, st.labStorage.get? labId = some storage ∧
    row.quarantinePath = storage.quarantinePath ++ [row.id, name]
  labId : row.labId = labId
  minted : Minted env m m' row.id
  fresh : st.exports.get? row.id = none
  state : row.state = .quarantined ∧ row.releasedPath = none ∧ row.denialReason = none
  asks : Asks row.approvalRequired "export" row.id st.approvals approvals

/-- An approval that may be decided: it is pending and has not expired, and a denial says why. -/
structure Decides (now : ℤ) (st : Store) (decision : App.Decision) (approvalId : String)
    (comment : Option String) (a : ApprovalRow) : Prop where
  row : st.approvals.get? approvalId = some a
  pending : a.state = .requested
  unexpired : App.isExpired now a = false
  commented : decision = .rejected → comment.all Strings.isBlank = false

/-- The request that decides an approval. -/
def decisionRequest (decision : App.Decision) (approvalId actor : String)
    (comment : Option String) : Request β :=
  match decision with
  | .approved => .approveRequest approvalId actor comment
  | .rejected => .denyRequest approvalId actor comment

/-- What answering a request may make of the rows. -/
inductive Effect (env : Environment β) (now : ℤ) : Request β → ℕ → ℕ → Store → Store → Prop where
  /-- The request failed, or has no effect on rows but the events. -/
  | onlyEvents {r m m' st evs} : Effect env now r m m' st { st with events := evs }
  | labCreated {profileName requester m m' st lab storage approvals evs}
      (new : NewLab env profileName requester m m' st lab storage approvals) :
      Effect env now (.createLab profileName requester) m m' st { st with
        labs := st.labs.put lab, labStorage := st.labStorage.put storage, approvals :=
          approvals, events := evs }
  | labDestroyed {labId m m' st lab evs} (h : st.labs.get? labId = some lab)
      (alive : lab.state ≠ .destroyed) :
      Effect env now (.destroyLab labId) m m' st { st with
        labs := st.labs.put { lab with state := .destroyed }, events := evs }
  | leaseIssued {labId secretName requester ttlMinutes m m' st lease evs}
      (new : NewLease env now m m' st labId secretName ttlMinutes lease) :
      Effect env now (.createSecretLease labId secretName requester ttlMinutes) m m' st { st with
        secretLeases := st.secretLeases.put lease, events := evs }
  | leaseRevoked {leaseId actor reason m m' st lease evs} (h : st.secretLeases.get? leaseId = some lease)
      (unrevoked : lease.revokedAt = none) :
      Effect env now (.revokeSecretLease leaseId actor reason) m m' st { st with
        secretLeases := st.secretLeases.put { lease with revokedAt := some (DateTime.utc now).column },
          events := evs }
  | runCreated {labId command requester m m' st run evs} (new : NewRun env m m' st labId run) :
      Effect env now (.createRun labId command requester) m m' st
        { st with runs := st.runs.put run, events := evs }
  | jobQueued {request m m' st job evs} (new : NewJob env now m m' request st job) :
      Effect env now (.enqueueSchedulerJob request) m m' st { st with
        schedulerJobs := st.schedulerJobs.put job, events := evs }
  | jobFailed {m m' st job e evs} (next : SchedulerService.nextJob st now = some job) :
      Effect env now .dispatchNextSchedulerJob m m' st { st with
        schedulerJobs := st.schedulerJobs.put
          (SchedulerService.settled now (SchedulerService.claimed now job) (.error e)), events := evs }
  | jobMadeLab {profileName m m' st job lab storage approvals evs}
      (next : SchedulerService.nextJob st now = some job) (action : job.action = .createLab)
      (profile : job.profileName = some profileName)
      (new : NewLab env profileName .scheduler m m' st lab storage approvals) :
      Effect env now .dispatchNextSchedulerJob m m' st { st with
        labs := st.labs.put lab, labStorage := st.labStorage.put storage, approvals := approvals
        schedulerJobs := st.schedulerJobs.put
          (SchedulerService.settled now (SchedulerService.claimed now job) (.ok ("lab", lab.id))), events :=
            evs }
  | jobMadeRun {labId command m m' st job run evs} (next : SchedulerService.nextJob st now = some job)
      (action : job.action = .startRun) (payload : job.labId = some labId ∧ job.command = some command)
      (new : NewRun env m m' st labId run) :
      Effect env now .dispatchNextSchedulerJob m m' st { st with
        runs := st.runs.put run
        schedulerJobs := st.schedulerJobs.put
          (SchedulerService.settled now (SchedulerService.claimed now job) (.ok ("run", run.id))), events :=
            evs }
  | labDecided {decision approvalId actor comment m m' st a lab evs}
      (decides : Decides now st decision approvalId comment a) (type : a.resourceType = "lab")
      (h : st.labs.get? a.resourceId = some lab) :
      Effect env now (decisionRequest decision approvalId actor comment) m m' st { st with
        approvals := st.approvals.put (App.decidedApproval now decision actor comment a)
        labs := st.labs.put (App.decidedLab decision lab), events := evs }
  | exportDecided {decision approvalId actor comment m m' st a row evs}
      (decides : Decides now st decision approvalId comment a) (type : a.resourceType = "export")
      (h : st.exports.get? a.resourceId = some row) :
      Effect env now (decisionRequest decision approvalId actor comment) m m' st { st with
        approvals := st.approvals.put (App.decidedApproval now decision actor comment a)
        exports := st.exports.put (App.decidedExport decision comment row), events := evs }
  | otherDecided {decision approvalId actor comment m m' st a evs}
      (decides : Decides now st decision approvalId comment a) (type : a.resourceType ≠ "lab")
      (type' : a.resourceType ≠ "export") :
      Effect env now (decisionRequest decision approvalId actor comment) m m' st { st with
        approvals := st.approvals.put (App.decidedApproval now decision actor comment a), events := evs }
  | snapshotCreated {labId runId requester m m' st row evs} (new : NewSnapshot env m m' st labId row) :
      Effect env now (.createSnapshot labId runId requester) m m' st { st with
        snapshots := st.snapshots.put row, events := evs }
  | exportStaged {labId sourcePath runId requester m m' st row approvals evs}
      (new : NewExport env m m' st labId row approvals) :
      Effect env now (.createExport labId sourcePath runId requester) m m' st { st with
        exports := st.exports.put row, approvals := approvals, events := evs }
  | exportReleased {exportId m m' st row storage evs} (h : st.exports.get? exportId = some row)
      (hstorage : st.labStorage.get? row.labId = some storage) (unrejected : row.state ≠ .rejected)
      (unreleased : row.state ≠ .released) (cleared : row.approvalRequired = false) :
      Effect env now (.releaseExport exportId) m m' st { st with
        exports := st.exports.put { row with
          state := .released, denialReason := none
          releasedPath := some
            (ExportGate.releasedDir storage row.id ++ [PosixPath.name row.quarantinePath]) }
        events := evs }
  | exportDenied {exportId reason m m' st row evs} (h : st.exports.get? exportId = some row)
      (unrejected : row.state ≠ .rejected) (unreleased : row.state ≠ .released)
      (reasoned : Strings.isBlank reason = false) :
      Effect env now (.denyExport exportId reason) m m' st { st with
        exports := st.exports.put
          { row with state := .rejected, denialReason := some reason, releasedPath := none }
        events := evs }
  | reconciled {inventory destroys maxDestroyAttempts at' m m' st st'}
      (sweeps : Sweeps (DateTime.normalize at') st st') :
      Effect env now (.reconcile inventory destroys maxDestroyAttempts at') m m' st st'

/-! ### What the handlers do -/

theorem requestLabApproval_eq_ok {env : Environment β} {now : ℤ} {labId : String} {decision : RequestDecision}
    {requester : RequesterType} {u : Unit} {s s' : Session β}
    (h : App.requestLabApproval env now labId decision requester s = .ok u s') :
    ∃ approvals, Asks decision.approvalRequired "lab" labId s.store.approvals approvals ∧
      s.minted ≤ s'.minted ∧
      s'.store = { s.store with approvals := approvals, events := s'.store.events } := by
  unfold App.requestLabApproval App.recordApprovalRequest at h
  rcases whenever_eq_ok.mp h with ⟨hd, h⟩ | ⟨hd, rfl⟩
  · simp [bind_eq_ok] at h
    obtain ⟨hfresh, rfl⟩ := h
    exact ⟨_, .yes hd _ hfresh rfl rfl ⟨rfl, rfl, rfl⟩, Nat.le_succ _, rfl⟩
  · exact ⟨_, .no hd, le_rfl, rfl⟩

theorem createLabRecord_eq_ok {env : Environment β} {now : ℤ} {profileName : String}
    {requester : RequesterType} {lab : LabRow} {s s' : Session β}
    (h : App.createLabRecord env now profileName requester s = .ok lab s') :
    ∃ storage approvals, NewLab env profileName requester s.minted s'.minted s.store lab storage approvals ∧
      s'.store = { s.store with
        labs := s.store.labs.put lab, labStorage := s.store.labStorage.put storage,
        approvals := approvals, events := s'.store.events } := by
  simp [App.createLabRecord, bind_eq_ok] at h
  obtain ⟨decision, hdecision, allocation, d, halloc, hfresh, -, _, s₁, hasks, rfl, rfl⟩ := h
  obtain ⟨profile, hp, hname, hruntime, -, hdemand⟩ := PolicyEngine.validateRequest_eq_ok hdecision
  have hallocation := ManagedStorageAllocator.allocate_eq_ok halloc
  obtain ⟨approvals, hasks, hminted, hstore⟩ := requestLabApproval_eq_ok hasks
  have hpending : decision.approvalRequired =
      decide ((App.newLab now (env.uuid4 s.minted) decision).state = .pendingApproval) := by
    unfold App.newLab
    cases decision.approvalRequired <;> rfl
  refine ⟨App.newLabStorage allocation, approvals, ⟨⟨profile, hp, hname, hruntime, ?_⟩,
    ⟨_, le_rfl, hminted, rfl⟩, hfresh, ?_, ?_, hpending ▸ hasks⟩, ?_⟩
  · simp only [App.newLab, hdemand]
  · rw [hallocation]
    rfl
  · rw [hallocation]
    exact ⟨rfl, rfl, rfl, rfl, rfl⟩
  · rw [hstore]

theorem createRunRecord_eq_ok {env : Environment β} {now : ℤ} {labId command : String}
    {requester : RequesterType} {run : RunRow} {s s' : Session β}
    (h : App.createRunRecord env now labId command requester s = .ok run s') :
    NewRun env s.minted s'.minted s.store labId run ∧ s'.store = { s.store with
      runs := s.store.runs.put run, events := s'.store.events } := by
  simp [App.createRunRecord, bind_eq_ok] at h
  obtain ⟨hlab, hfresh, rfl, rfl⟩ := h
  exact ⟨⟨hlab, rfl, rfl, ⟨_, le_rfl, Nat.lt_succ_self _, rfl⟩, hfresh⟩, rfl⟩

section Handlers

variable {env : Environment β} {now : ℤ} {s s' : Session β}

theorem destroyLab_eq_ok {labId : String} {row : LabRow} (h : App.destroyLab env labId s = .ok row s') :
    Effect env now (.destroyLab labId) s.minted s'.minted s.store s'.store := by
  simp [App.destroyLab, bind_eq_ok] at h
  obtain ⟨lab, hlab, storage, -, halive, allocation, -, _, d, -, rfl, rfl⟩ := h
  exact .labDestroyed hlab halive

theorem createSecretLease_eq_ok {labId secretName : String} {requester : RequesterType} {ttlMinutes : ℤ}
    {row : SecretLeaseRow}
    (h : App.createSecretLease env now labId secretName requester ttlMinutes s = .ok row s') :
    Effect env now (.createSecretLease labId secretName requester ttlMinutes) s.minted s'.minted
      s.store s'.store := by
  simp [App.createSecretLease, SecretLeaseService.issueLease, SecretLeaseService.resolve, adaptExcept_eq_ok,
    PolicyEngine.getProfile_eq_ok, bind_eq_ok] at h
  obtain ⟨⟨-, lab, hlab, profile, hprofile, hallowed, -, hfresh, -⟩, rfl⟩ := h
  exact .leaseIssued ⟨⟨lab, profile, hlab, hprofile, hallowed⟩, ⟨_, le_rfl, Nat.lt_succ_self _, rfl⟩,
    hfresh, rfl, rfl,
    ⟨rfl, rfl⟩, rfl⟩

theorem revokeSecretLease_eq_ok {leaseId actor : String} {reason : Option String} {row : SecretLeaseRow}
    (h : App.revokeSecretLease now leaseId actor reason s = .ok row s') :
    Effect env now (.revokeSecretLease leaseId actor reason) s.minted s'.minted s.store s'.store := by
  simp [App.revokeSecretLease, SecretLeaseService.revokeLease, adaptExcept_eq_ok, bind_eq_ok] at h
  obtain ⟨lease, ⟨hlease, hactive⟩, rfl, -⟩ := h
  exact .leaseRevoked hlease hactive

theorem enqueueSchedulerJob_eq_ok {request : SchedulerJobCreateRequest} {row : SchedulerJobRow}
    (haccepted : request.accepted = true) (h : App.enqueueSchedulerJob env now request s = .ok row s') :
    Effect env now (.enqueueSchedulerJob request) s.minted s'.minted s.store s'.store := by
  simp [App.enqueueSchedulerJob, SchedulerService.enqueue, adaptExcept_eq_ok, bind_eq_ok] at h
  obtain ⟨⟨hquota, hfresh, -⟩, rfl⟩ := h
  exact .jobQueued ⟨haccepted, hquota, ⟨_, le_rfl, Nat.lt_succ_self _, rfl⟩, hfresh, rfl, rfl,
    ⟨rfl, rfl, rfl, rfl⟩, rfl,
    ⟨rfl, rfl⟩, ⟨rfl, rfl, rfl, rfl⟩⟩

omit [Content β] in
/-- The check of a request's run changes nothing. -/
theorem checkRun_eq_ok {runId : Option String} {lab : LabRow} {mismatch : Exc} {u : Unit}
    (h : App.checkRun runId lab mismatch s = .ok u s') : s = s' := by
  unfold App.checkRun at h
  cases runId with
  | none => exact (pure_eq_ok.mp h).2
  | some runId =>
    simp only [bind_eq_ok, getOr_eq_ok, raiseIf_eq_ok] at h
    obtain ⟨_, _, ⟨-, rfl⟩, -, rfl⟩ := h
    rfl

theorem createSnapshot_eq_ok {labId : String} {runId : Option String} {requester : RequesterType}
    {row : SnapshotRow} (h : App.createSnapshot env now labId runId requester s = .ok row s') :
    Effect env now (.createSnapshot labId runId requester) s.minted s'.minted s.store s'.store := by
  simp [App.createSnapshot, adaptExcept_eq_ok, bind_eq_ok] at h
  obtain ⟨lab, hlab, storage, hstorage, _, _, hrun, metadata, d, hsnapshot, hfresh, rfl, -⟩ := h
  obtain rfl := checkRun_eq_ok hrun
  obtain ⟨hruntime, href⟩ := SnapshotManager.createSnapshot_eq_ok hsnapshot
  have hid : lab.id = labId := Table.key_of_get? hlab
  exact .snapshotCreated ⟨⟨lab, hlab, hruntime⟩, ⟨storage, hstorage, href⟩, hid,
    ⟨_, le_rfl, Nat.lt_succ_self _, rfl⟩, hfresh⟩

theorem restoreSnapshot_eq_ok {snapshotId labId : String} {requester : RequesterType} {row : SnapshotRow}
    (h : App.restoreSnapshot env now snapshotId labId requester s = .ok row s') :
    Effect env now (.restoreSnapshot snapshotId labId requester) s.minted s'.minted s.store s'.store := by
  simp [App.restoreSnapshot, adaptExcept_eq_ok, bind_eq_ok] at h
  obtain ⟨-, _, -, _, -, _, _, -, rfl⟩ := h
  exact .onlyEvents

theorem requestExportApproval_eq_ok {row : ExportRow} {u : Unit}
    (h : App.requestExportApproval env now row s = .ok u s') :
    ∃ approvals, Asks row.approvalRequired "export" row.id s.store.approvals approvals ∧
      s.minted ≤ s'.minted ∧
      s'.store = { s.store with approvals := approvals, events := s'.store.events } := by
  unfold App.requestExportApproval App.recordApprovalRequest at h
  rcases whenever_eq_ok.mp h with ⟨hd, h⟩ | ⟨hd, rfl⟩
  · simp [bind_eq_ok] at h
    obtain ⟨hfresh, rfl⟩ := h
    exact ⟨_, .yes hd _ hfresh rfl rfl ⟨rfl, rfl, rfl⟩, Nat.le_succ _, rfl⟩
  · exact ⟨_, .no hd, le_rfl, rfl⟩

theorem createExport_eq_ok {labId sourcePath : String} {runId : Option String} {requester : RequesterType}
    {row : ExportRow} (h : App.createExport env now labId sourcePath runId requester s = .ok row s') :
    Effect env now (.createExport labId sourcePath runId requester) s.minted s'.minted s.store s'.store := by
  simp [App.createExport, adaptExcept_eq_ok, bind_eq_ok] at h
  obtain ⟨lab, hlab, storage, hstorage, _, _, hrun, staged, d, hstage, hfresh, ⟨_, happroval⟩, rfl⟩ := h
  obtain rfl := checkRun_eq_ok hrun
  obtain ⟨⟨profile, hprofile, hdemand⟩, hstate, hreleased, hname, -⟩ := ExportGate.stageExport_eq_ok hstage
  obtain ⟨name, hname⟩ := hname
  obtain ⟨approvals, hasks, hminted, hstore⟩ := requestExportApproval_eq_ok happroval
  rw [hstore]
  have hid : lab.id = labId := Table.key_of_get? hlab
  exact .exportStaged ⟨⟨lab, profile, hlab, hprofile, hdemand⟩, ⟨storage, name, hstorage, hname⟩, hid,
    ⟨_, le_rfl, hminted, rfl⟩, hfresh, ⟨hstate, hreleased, rfl⟩, hasks⟩

theorem releaseExport_eq_ok {exportId : String} {released : Except Exc ExportRow}
    (h : App.releaseExport exportId s = .ok released s') :
    Effect env now (.releaseExport exportId) s.minted s'.minted s.store s'.store := by
  simp only [App.releaseExport, bind_eq_ok, getOr_eq_ok] at h
  obtain ⟨row, _, ⟨hrow, rfl⟩, storage, _, ⟨hstorage, rfl⟩, outcome, s₁, hattempt, h⟩ := h
  unfold App.finishRelease at h
  rcases attempt_eq_ok.mp hattempt with ⟨released, rfl, hgate⟩ | ⟨e, rfl, hgate⟩
  · obtain ⟨d, hreleased, rfl⟩ := onDisk_eq_ok.mp hgate
    obtain ⟨hrejected, hreleased, hcleared, hstate, hpath, -⟩ := ExportGate.releaseExport_eq_ok hreleased
    simp [bind_eq_ok] at h
    obtain ⟨rfl, -⟩ := h
    simp only [App.releasedExport, hstate, hpath]
    exact .exportReleased hrow hstorage hrejected hreleased hcleared
  · have hstore := store_of_onDisk_error hgate
    cases e with
    | exportPolicy message =>
      simp at h
      obtain ⟨rfl, -⟩ := h
      rw [← hstore]
      exact .onlyEvents
    | _ => exact absurd h throw_eq_ok

theorem denyExport_eq_ok {exportId reason : String} {row : ExportRow}
    (h : App.denyExport exportId reason s = .ok row s') :
    Effect env now (.denyExport exportId reason) s.minted s'.minted s.store s'.store := by
  simp [App.denyExport, bind_eq_ok] at h
  obtain ⟨row, hrow, denied, hdenied, rfl, -⟩ := h
  obtain ⟨hrejected, hreleased, hreason, hstate, hdenial⟩ := ExportGate.denyExport_eq_ok hdenied
  simp only [App.deniedExport, hstate, hdenial]
  exact .exportDenied hrow hrejected hreleased hreason

omit [Content β] in
/-- An approval that passes the check is pending and has not expired. -/
theorem ensureApprovalPending_eq_ok {a : ApprovalRow} {u : Unit}
    (h : App.ensureApprovalPending now a s = .ok u s') :
    a.state = .requested ∧ App.isExpired now a = false ∧ s = s' := by
  simp only [App.ensureApprovalPending, bind_eq_ok, raiseIf_eq_ok] at h
  obtain ⟨_, _, ⟨hstate, rfl⟩, h⟩ := h
  rcases whenever_eq_ok.mp h with ⟨-, h⟩ | ⟨hexpired, rfl⟩
  · obtain ⟨_, _, -, h⟩ := bind_eq_ok.mp h
    exact absurd h throw_eq_ok
  · exact ⟨by simpa using hstate, hexpired, rfl⟩

theorem decideRequest_eq_ok {decision : App.Decision} {approvalId actor : String} {comment : Option String}
    {row : ApprovalRow} (h : App.decideRequest now decision approvalId actor comment s = .ok row s') :
    Effect env now (decisionRequest decision approvalId actor comment) s.minted s'.minted
      s.store s'.store := by
  simp [App.decideRequest, App.applyApprovalDecision, bind_eq_ok] at h
  obtain ⟨a, ha, _, _, hpending, hcomment, _, s₂, hresource, rfl, -⟩ := h
  obtain ⟨hstate, hexpired, rfl⟩ := ensureApprovalPending_eq_ok hpending
  have hdecides : Decides now s.store decision approvalId comment a := ⟨ha, hstate, hexpired, hcomment⟩
  unfold App.decideResource at hresource
  split at hresource
  · next htype =>
    simp only [bind_eq_ok, getOr_eq_ok, setRow_eq_ok] at hresource
    obtain ⟨lab, _, ⟨hlab, rfl⟩, rfl⟩ := hresource
    exact .labDecided hdecides htype hlab
  · next hlab =>
    split at hresource
    · next htype =>
      simp only [bind_eq_ok, getOr_eq_ok, setRow_eq_ok] at hresource
      obtain ⟨exported, _, ⟨hexport, rfl⟩, rfl⟩ := hresource
      exact .exportDecided hdecides htype hexport
    · next hexport =>
      obtain ⟨-, rfl⟩ := pure_eq_ok.mp hresource
      exact .otherDecided hdecides hlab hexport

omit [Content β] in
/-- A dispatch settles the next job as its action went. -/
theorem runNext_eq_ok {createLab : String → SessionM β String}
    {createRun : String → String → SessionM β String} {row : SchedulerJobRow} :
    SchedulerService.runNext now createLab createRun s = .ok (some row) s' ↔
      ∃ job outcome s₁, SchedulerService.nextJob s.store now = some job ∧
        attempt (rollingBack (SchedulerService.action createLab createRun (SchedulerService.claimed now job)))
          { s with store := { s.store with
              schedulerJobs := s.store.schedulerJobs.put (SchedulerService.claimed now job) } } =
                .ok outcome s₁ ∧
        row = SchedulerService.settled now (SchedulerService.claimed now job) outcome ∧
        s' = { s₁ with store := { s₁.store with schedulerJobs := s₁.store.schedulerJobs.put row } } := by
  simp only [SchedulerService.runNext, bind_eq_ok, get_eq_ok]
  cases hnext : SchedulerService.nextJob s.store now with
  | none => simp [hnext]
  | some job =>
    simp only [SchedulerService.runJob]
    constructor
    · rintro ⟨_, _, ⟨rfl, rfl⟩, h⟩
      rw [hnext] at h
      simp only [bind_eq_ok, setRow_eq_ok, pure_eq_ok] at h
      obtain ⟨_, _, ⟨_, _, rfl, outcome, s₁, hattempt, _, _, rfl, rfl, rfl⟩, hrow, rfl⟩ := h
      exact ⟨job, outcome, s₁, rfl, hattempt, (Option.some.inj hrow).symm, by rw [Option.some.inj hrow]⟩
    · rintro ⟨job', outcome, s₁, hjob, hattempt, rfl, rfl⟩
      obtain rfl := Option.some.inj hjob
      refine ⟨_, _, ⟨rfl, rfl⟩, ?_⟩
      rw [hnext]
      simp only [bind_eq_ok, setRow_eq_ok, pure_eq_ok]
      exact ⟨_, _, ⟨(), _, rfl, outcome, s₁, hattempt, (), _, rfl, rfl, rfl⟩, rfl, rfl⟩

/-- The callbacks of a dispatch: where they return, they have created a lab or a run as the handlers do.
What they do before they raise is not restricted. -/
structure Callbacks (env : Environment β) (now : ℤ) where
  createLab : String → SessionM β String
  createRun : String → String → SessionM β String
  createLab_ok : ∀ {profileName id s s'}, createLab profileName s = .ok id s' →
    App.createJobLab env now profileName s = .ok id s'
  createRun_ok : ∀ {labId command id s s'}, createRun labId command s = .ok id s' →
    App.createJobRun env now labId command s = .ok id s'

/-- `POST /scheduler/jobs/dispatch-next`, with any callbacks. -/
def dispatchWith {env : Environment β} {now : ℤ} (callbacks : Callbacks env now) :
    SessionM β SchedulerJobRow := do
  let row ← SchedulerService.runNext now callbacks.createLab callbacks.createRun
  let row ← orRaise row (.resourceNotFound "scheduler_job")
  App.recordDispatch row
  return row

/-- The callbacks of the handler itself. -/
def handlerCallbacks (env : Environment β) (now : ℤ) : Callbacks env now where
  createLab := App.createJobLab env now
  createRun := App.createJobRun env now
  createLab_ok := id
  createRun_ok := id

theorem dispatchWith_eq_ok (callbacks : Callbacks env now) {row : SchedulerJobRow}
    (h : dispatchWith callbacks s = .ok row s') :
    Effect env now .dispatchNextSchedulerJob s.minted s'.minted s.store s'.store := by
  simp [dispatchWith, App.recordDispatch, bind_eq_ok] at h
  obtain ⟨s₁, h, rfl⟩ := h
  obtain ⟨job, outcome, s₂, hnext, hattempt, rfl, rfl⟩ := runNext_eq_ok.mp h
  have hput : ∀ outcome, (s.store.schedulerJobs.put (SchedulerService.claimed now job)).put
      (SchedulerService.settled now (SchedulerService.claimed now job) outcome) =
        s.store.schedulerJobs.put (SchedulerService.settled now (SchedulerService.claimed now job) outcome) :=
    fun outcome => Table.put_put (SchedulerService.settled_id now _ outcome).symm
  rcases attempt_eq_ok.mp hattempt with ⟨result, rfl, haction⟩ | ⟨e, rfl, haction⟩
  · rcases SchedulerService.action_eq_ok (rollingBack_eq_ok.mp haction) with
      ⟨profileName, id, hact, hprofile, hcreate, rfl⟩ |
        ⟨labId, command, id, hact, hlabId, hcommand, hcreate, rfl⟩
    · have hcreated := callbacks.createLab_ok hcreate
      simp [App.createJobLab] at hcreated
      obtain ⟨lab, hcreated, rfl⟩ := hcreated
      obtain ⟨storage, approvals, new, hstore⟩ := createLabRecord_eq_ok hcreated
      rw [hstore]
      simp only [hput]
      exact .jobMadeLab hnext hact hprofile
        ⟨new.profile, new.minted, new.fresh, new.storageOf, new.layout, new.asks⟩
    · have hcreated := callbacks.createRun_ok hcreate
      simp [App.createJobRun] at hcreated
      obtain ⟨run, hcreated, rfl⟩ := hcreated
      obtain ⟨new, hstore⟩ := createRunRecord_eq_ok hcreated
      rw [hstore]
      simp only [hput]
      exact .jobMadeRun hnext hact ⟨hlabId, hcommand⟩ ⟨new.lab, new.labId, new.state, new.minted, new.fresh⟩
  · have hstore := store_of_rollingBack_error haction
    simp only [hstore, hput]
    exact .jobFailed hnext

end Handlers

/-! ### Answers -/

section Answers

variable {env : Environment β} {now : ℤ} {r : Request β} {s : Session β}

/-- A block has the effect its body has when it returns. -/
theorem effect_of_withSession {α : Type} {body : SessionM β α}
    (h : ∀ a s₁, body s = .ok a s₁ → Effect env now r s.minted s₁.minted s.store s₁.store) :
    Effect env now r s.minted (endState (withSession body s)).minted s.store
      (endState (withSession body s)).store := by
  rcases store_of_withSession body s with hstore | ⟨a, s₁, hbody, hstore, hminted⟩
  · rw [hstore]
    exact .onlyEvents
  · rw [hstore, hminted]
    exact h a s₁ hbody

theorem effect_of_block {α : Type} {f : α → Response} {body : SessionM β α}
    (h : ∀ a s₁, body s = .ok a s₁ → Effect env now r s.minted s₁.minted s.store s₁.store) :
    Effect env now r s.minted (endState ((f <$> withSession body) s)).minted s.store
      (endState ((f <$> withSession body) s)).store := by
  rw [endState_map]
  exact effect_of_withSession h

/-- What checks the request before the block changes nothing. -/
theorem effect_of_raiseIf {c : Prop} [Decidable c] {e : Exc} {x : SessionM β Response}
    (h : ¬ c → Effect env now r s.minted (endState (x s)).minted s.store (endState (x s)).store) :
    Effect env now r s.minted (endState ((raiseIf c e >>= fun _ => x) s)).minted s.store
      (endState ((raiseIf c e >>= fun _ => x) s)).store := by
  by_cases hc : c
  · have hraise : (raiseIf c e >>= fun _ => x) s = .error e s := by
      simp only [raiseIf, if_pos hc]
      rfl
    rw [hraise]
    exact .onlyEvents
  · have hpass : (raiseIf c e >>= fun _ => x) s = x s := by
      simp only [raiseIf, if_neg hc]
      rfl
    rw [hpass]
    exact h hc

theorem effect_of_respond (env : Environment β) (now : ℤ) (r : Request β) (s : Session β) :
    Effect env now r s.minted (endState (respond env now r s)).minted s.store
      (endState (respond env now r s)).store := by
  cases r with
  | createLab profileName requester =>
    apply effect_of_block
    intro _ _ h
    obtain ⟨storage, approvals, new, hstore⟩ := createLabRecord_eq_ok h
    rw [hstore]
    exact .labCreated new
  | destroyLab labId => exact effect_of_block fun _ _ h => destroyLab_eq_ok h
  | createSecretLease labId secretName requester ttlMinutes =>
    exact effect_of_raiseIf fun _ => effect_of_block fun _ _ h => createSecretLease_eq_ok h
  | revokeSecretLease leaseId actor reason => exact effect_of_block fun _ _ h => revokeSecretLease_eq_ok h
  | createRun labId command requester =>
    apply effect_of_block
    intro _ _ h
    obtain ⟨new, hstore⟩ := createRunRecord_eq_ok h
    rw [hstore]
    exact .runCreated new
  | enqueueSchedulerJob request =>
    exact effect_of_raiseIf fun haccepted => effect_of_block fun _ _ h =>
      enqueueSchedulerJob_eq_ok (by simpa using haccepted) h
  | dispatchNextSchedulerJob =>
    exact effect_of_block fun _ _ h => dispatchWith_eq_ok (handlerCallbacks env now) h
  | approveRequest approvalId actor comment => exact effect_of_block fun _ _ h => decideRequest_eq_ok h
  | denyRequest approvalId actor comment => exact effect_of_block fun _ _ h => decideRequest_eq_ok h
  | createSnapshot labId runId requester => exact effect_of_block fun _ _ h => createSnapshot_eq_ok h
  | restoreSnapshot snapshotId labId requester => exact effect_of_block fun _ _ h => restoreSnapshot_eq_ok h
  | createExport labId sourcePath runId requester => exact effect_of_block fun _ _ h => createExport_eq_ok h
  | releaseExport exportId =>
    simp only [respond, endState_bind_fromExcept]
    exact effect_of_withSession fun _ _ h => releaseExport_eq_ok h
  | denyExport exportId reason => exact effect_of_block fun _ _ h => denyExport_eq_ok h
  | reconcile inventory destroys maxDestroyAttempts at' =>
    exact effect_of_block fun _ _ h => .reconciled (reconcile_sweeps h)

/-- **What answering a request does to the rows.** -/
theorem effect_of_answer (env : Environment β) (s : State β) (r : Request β) (now : ℤ) (fates : List Fate) :
    Effect env now r s.minted (endState (answer env s r now fates)).minted s.store
      (endState (answer env s r now fates)).store :=
  effect_of_respond env now r (s.session fates)

end Answers

/-! ### Runs -/

section Runs

variable {env : Environment β}

/-- What the allowed effects on rows keep, allowed runs keep. -/
theorem rows_kept_of {I : Store → Prop} {ok : State β → Action β → Prop}
    (h : ∀ s r now fates m m' st', ok s (.request r now fates) → Effect env now r m m' s.store st' →
      I s.store → I st')
    {s : State β} {actions : List (Action β)} (hs : I s.store) (hok : Runs.Allowed (step env) ok s actions) :
    I (runFrom env s actions).store := by
  refine Runs.after_keeps_of (I := fun s : State β => I s.store) (fun s a hs ha => ?_) hs hok
  cases a with
  | request r now fates => exact h s r now fates _ _ _ ha (effect_of_answer env s r now fates) hs
  | guest labId entries => exact hs

/-- What every effect on rows keeps, every run keeps. -/
theorem rows_kept {I : Store → Prop}
    (h : ∀ {now r m m' st st'}, Effect env now r m m' st st' → I st → I st')
    {s : State β} {actions : List (Action β)} (hs : I s.store) : I (runFrom env s actions).store := by
  refine Runs.after_keeps (I := fun s : State β => I s.store) (fun s a hs => ?_) hs
  cases a with
  | request r now fates => exact h (effect_of_answer env s r now fates) hs
  | guest labId entries => exact hs

end Runs

end LabOS
