import LabOS.System.Moves

/-!
# What a request does to the disk

A handler works on the disk only through the gate, the snapshot manager and the
allocator. `DiskWork env now G s r` says that what answering `r` in the session `s` runs
of these stays in a frame `G` on the tree; then all of the request does
(`within_respond`), whether it returns or raises, and identifiers are never given back.
-/

namespace LabOS

open Exceptional FileOps ReconciliationService

variable {β : Type} [Content β]

/-- No lab is being destroyed. No request puts a lab in that state. -/
def Quiet (st : Store) : Prop := ∀ id lab, st.labs.get? id = some lab → lab.state ≠ .destroying

/-- The run a request names is there and of the lab. -/
def runOf (st : Store) (runId : Option String) (labId : String) : Bool :=
  match runId with
  | none => true
  | some runId => (st.runs.get? runId).any fun run => run.labId = labId

/-- What answering a request runs on the disk stays in the frame. -/
def DiskWork (env : Environment β) (now : ℤ) (G : Frame (FileTree β)) (s : Session β) : Request β → Prop
  | .createLab _ _ | .dispatchNextSchedulerJob => ∀ policy,
    Within (onTree G) (ManagedStorageAllocator.allocate env.root (env.uuid4 s.minted) policy) s.disk
  | .destroyLab labId => ∀ lab storage, s.store.labs.get? labId = some lab →
    s.store.labStorage.get? lab.id = some storage → lab.state ≠ .destroyed →
    ∀ allocation, storageAllocationFromRow storage = .ok allocation →
    Within (onTree G) (ManagedStorageAllocator.destroy env.root allocation) s.disk
  | .createSnapshot labId runId _ => ∀ lab storage, s.store.labs.get? labId = some lab →
    s.store.labStorage.get? labId = some storage → runOf s.store runId labId = true →
    Within (onTree G) (SnapshotManager.createSnapshot env now (env.uuid4 s.minted) lab storage runId) s.disk
  | .restoreSnapshot snapshotId labId _ =>
      ∀ snapshot lab storage, s.store.snapshots.get? snapshotId = some snapshot →
    s.store.labs.get? labId = some lab → s.store.labStorage.get? lab.id = some storage →
    Within (onTree G) (SnapshotManager.restoreSnapshot env now snapshot lab storage) s.disk
  | .createExport labId sourcePath runId _ => ∀ lab storage, s.store.labs.get? labId = some lab →
    s.store.labStorage.get? labId = some storage → runOf s.store runId labId = true →
    Within (onTree G) (ExportGate.stageExport env (env.uuid4 s.minted) lab storage sourcePath runId) s.disk
  | .releaseExport exportId => ∀ row storage, s.store.exports.get? exportId = some row →
    s.store.labStorage.get? row.labId = some storage →
    Within (onTree G) (ExportGate.releaseExport row storage) s.disk
  | .reconcile .. => Quiet s.store
  | _ => True

section Handlers

variable {env : Environment β} {now : ℤ} {G : Frame (FileTree β)} {s : Session β}

omit [Content β] in
theorem within_files {α : Type} {F : Frame (Disk β)} {x : FileM β α} {d : Disk β} (h : Within F x d) :
    Within F (files x) d :=
  h.adaptExcept

omit [Content β] in
theorem within_attempt {α : Type} {x : SessionM β α} (h : Within (touching G) x s) :
    Within (touching G) (attempt x) s := by
  unfold Within attempt at *
  cases hx : x s <;> (rw [hx] at h; exact h)

theorem within_recordApprovalRequest {labId : Option String}
    {resourceType resourceId action reason requestedBy : String} : Within (touching G)
      (App.recordApprovalRequest env now labId resourceType resourceId action reason requestedBy) s :=
  (within_newId _).bind fun _ _ _ _ => (within_addRow _).bind fun _ _ _ _ => Within.pure _

theorem within_createLabRecord {profileName : String} {requester : RequesterType}
    (h : ∀ policy, Within (onTree G)
      (ManagedStorageAllocator.allocate env.root (env.uuid4 s.minted) policy) s.disk) :
    Within (touching G) (App.createLabRecord env now profileName requester) s := by
  refine (Within.fromExcept _).bind fun decision s₁ h₁ _ => (within_newId _).bind fun labId s₂ h₂ _ => ?_
  obtain ⟨-, rfl⟩ := fromExcept_eq_ok.mp h₁
  obtain ⟨rfl, rfl⟩ := newId_eq_ok.mp h₂
  refine Within.bind ?_ fun allocation s₃ _ _ => (within_addRow _).bind fun _ s₄ _ _ =>
    (within_addRow _).bind fun _ s₅ _ _ => Within.bind ?_ fun _ s₆ _ _ =>
    (within_recordEvent _).bind fun _ _ _ _ => Within.pure _
  · exact within_onDisk (h _)
  · exact Within.whenever fun _ => within_recordApprovalRequest.bind fun _ _ _ _ => within_recordEvent _

theorem within_createRunRecord {labId command : String} {requester : RequesterType} :
    Within (touching G) (App.createRunRecord env now labId command requester) s :=
  (within_getOr _ _).bind fun _ _ _ _ => (within_newId _).bind fun _ _ _ _ =>
    (within_addRow _).bind fun _ _ _ _ =>
    (within_recordEvent _).bind fun _ _ _ _ => Within.pure _

theorem within_destroyLab {labId : String} (h : ∀ lab storage, s.store.labs.get? labId = some lab →
      s.store.labStorage.get? lab.id = some storage → lab.state ≠ .destroyed →
      ∀ allocation, storageAllocationFromRow storage = .ok allocation →
      Within (onTree G) (ManagedStorageAllocator.destroy env.root allocation) s.disk) :
    Within (touching G) (App.destroyLab env labId) s := by
  refine (within_getOr _ _).bind fun lab s₁ h₁ _ => (within_getOr _ _).bind fun storage s₂ h₂ _ =>
    (Within.raiseIf _ _).bind fun _ s₃ h₃ _ => (Within.fromExcept _).bind fun allocation s₄ h₄ _ => ?_
  obtain ⟨hlab, rfl⟩ := getOr_eq_ok.mp h₁
  obtain ⟨hstorage, rfl⟩ := getOr_eq_ok.mp h₂
  obtain ⟨halive, rfl⟩ := raiseIf_eq_ok.mp h₃
  obtain ⟨hallocation, rfl⟩ := fromExcept_eq_ok.mp h₄
  exact (within_onDisk (h lab storage hlab hstorage halive allocation hallocation)).bind fun _ _ _ _ =>
    (within_setRow _).bind fun _ _ _ _ =>
    (within_recordEvent _).bind fun _ _ _ _ => Within.pure _

theorem within_createSecretLease {labId secretName : String} {requester : RequesterType} {ttlMinutes : ℤ} :
    Within (touching G) (App.createSecretLease env now labId secretName requester ttlMinutes) s := by
  refine (Within.adaptExcept ?_).bind fun _ _ _ _ => (within_recordEvent _).bind fun _ _ _ _ => Within.pure _
  exact (Within.raiseIf _ _).bind fun _ _ _ _ => (within_getOr _ _).bind fun _ _ _ _ =>
    (Within.fromExcept _).bind fun _ _ _ _ => (Within.raiseIf _ _).bind fun _ _ _ _ =>
    (Within.orRaise _ _).bind fun _ _ _ _ => (within_newId _).bind fun _ _ _ _ =>
    (within_addRow _).bind fun _ _ _ _ => Within.pure _

omit [Content β] in
theorem within_revokeSecretLease {leaseId actor : String} {reason : Option String} :
    Within (touching G) (App.revokeSecretLease now leaseId actor reason) s := by
  refine (Within.adaptExcept ?_).bind fun _ _ _ _ => (within_recordEvent _).bind fun _ _ _ _ => Within.pure _
  exact (within_getOr _ _).bind fun _ _ _ _ => (Within.raiseIf _ _).bind fun _ _ _ _ =>
    (within_setRow _).bind fun _ _ _ _ => Within.pure _

theorem within_enqueueSchedulerJob {request : SchedulerJobCreateRequest} :
    Within (touching G) (App.enqueueSchedulerJob env now request) s := by
  refine (Within.adaptExcept ?_).bind fun _ _ _ _ => (within_recordEvent _).bind fun _ _ _ _ => Within.pure _
  exact Within.get.bind fun _ _ _ _ => (Within.raiseIf _ _).bind fun _ _ _ _ =>
    (within_newId _).bind fun _ _ _ _ =>
    (within_addRow _).bind fun _ _ _ _ => Within.pure _

theorem within_dispatchNextSchedulerJob
    (h : ∀ policy, Within (onTree G)
      (ManagedStorageAllocator.allocate env.root (env.uuid4 s.minted) policy) s.disk) :
    Within (touching G) (App.dispatchNextSchedulerJob env now) s := by
  refine Within.bind ?_ fun row _ _ _ => (Within.orRaise _ _).bind fun row _ _ _ =>
    ((within_recordEvent _).bind fun _ _ _ _ => within_recordEvent _).bind fun _ _ _ _ => Within.pure _
  refine Within.get.bind fun s₀ s₁ h₁ _ => ?_
  obtain ⟨rfl, rfl⟩ := get_eq_ok.mp h₁
  cases SchedulerService.nextJob s.store now with
  | none => exact Within.pure _
  | some job =>
    refine Within.bind ?_ fun _ _ _ _ => Within.pure _
    refine (within_setRow _).bind fun _ s₂ h₂ _ => ?_
    obtain rfl := setRow_eq_ok.mp h₂
    refine (within_attempt (within_rollingBack ?_)).bind fun _ _ _ _ => (within_setRow _).bind fun _ _ _ _ =>
      Within.pure _
    unfold SchedulerService.action
    split
    · refine (Within.orRaise _ _).bind fun profileName s₃ h₃ _ => ?_
      obtain ⟨-, rfl⟩ := orRaise_eq_ok.mp h₃
      refine Within.bind (Within.bind ?_ fun _ _ _ _ => Within.pure _) fun _ _ _ _ => Within.pure _
      exact within_createLabRecord h
    · refine (Within.orRaise _ _).bind fun _ _ _ _ => (Within.orRaise _ _).bind fun _ _ _ _ => ?_
      refine Within.bind ?_ fun _ _ _ _ => Within.pure _
      exact within_createRunRecord.bind fun _ _ _ _ => Within.pure _

omit [Content β] in
theorem within_decideRequest {decision : App.Decision} {approvalId actor : String} {comment : Option String} :
    Within (touching G) (App.decideRequest now decision approvalId actor comment) s := by
  refine (within_getOr _ _).bind fun _ _ _ _ => Within.bind ?_ fun _ _ _ _ =>
    (within_recordEvent _).bind fun _ _ _ _ => Within.pure _
  refine Within.bind ?_ fun _ _ _ _ => (Within.raiseIf _ _).bind fun _ _ _ _ =>
    (within_setRow _).bind fun _ _ _ _ =>
    Within.bind ?_ fun _ _ _ _ => Within.pure _
  · exact (Within.raiseIf _ _).bind fun _ _ _ _ => Within.whenever fun _ =>
      (within_setRow _).bind fun _ _ _ _ => Within.throw _
  · unfold App.decideResource
    split
    · exact (within_getOr _ _).bind fun _ _ _ _ => within_setRow _
    · split
      · exact (within_getOr _ _).bind fun _ _ _ _ => within_setRow _
      · exact Within.pure _

omit [Content β] in
theorem within_checkRun {runId : Option String} {lab : LabRow} {mismatch : Exc} :
    Within (touching G) (App.checkRun runId lab mismatch) s := by
  cases runId with
  | none => exact Within.pure _
  | some runId => exact (within_getOr _ _).bind fun _ _ _ _ => Within.raiseIf _ _

omit [Content β] in
/-- A request that passes the check names no run, or one of the lab. -/
theorem runOf_of_checkRun {runId : Option String} {lab : LabRow} {mismatch : Exc} {u : Unit} {s' : Session β}
    (h : App.checkRun runId lab mismatch s = .ok u s') : runOf s.store runId lab.id = true := by
  unfold App.checkRun at h
  cases runId with
  | none => rfl
  | some runId =>
    simp only [bind_eq_ok, getOr_eq_ok, raiseIf_eq_ok] at h
    obtain ⟨run, _, ⟨hrun, rfl⟩, hof, -⟩ := h
    simp [runOf, show s.store.runs.get? runId = some run from hrun, not_not.mp hof]

theorem within_createSnapshot {labId : String} {runId : Option String} {requester : RequesterType}
    (h : ∀ lab storage, s.store.labs.get? labId = some lab → s.store.labStorage.get? labId = some storage →
      runOf s.store runId labId = true →
      Within (onTree G) (SnapshotManager.createSnapshot env now
        (env.uuid4 s.minted) lab storage runId) s.disk) :
    Within (touching G) (App.createSnapshot env now labId runId requester) s := by
  refine (within_getOr _ _).bind fun lab s₁ h₁ _ => (within_getOr _ _).bind fun storage s₂ h₂ _ =>
    within_checkRun.bind fun _ s₃ h₃ _ => (within_newId _).bind fun snapshotId s₄ h₄ _ => ?_
  obtain ⟨hlab, rfl⟩ := getOr_eq_ok.mp h₁
  obtain ⟨hstorage, rfl⟩ := getOr_eq_ok.mp h₂
  have hid : lab.id = labId := Table.key_of_get? hlab
  have hrun := hid ▸ runOf_of_checkRun h₃
  obtain rfl := checkRun_eq_ok h₃
  obtain ⟨rfl, rfl⟩ := newId_eq_ok.mp h₄
  refine Within.bind (Within.adaptExcept ?_) fun _ _ _ _ => (within_addRow _).bind fun _ _ _ _ =>
    (within_recordEvent _).bind fun _ _ _ _ => Within.pure _
  exact within_onDisk (h lab storage hlab hstorage hrun)

theorem within_restoreSnapshot {snapshotId labId : String} {requester : RequesterType}
    (h : ∀ snapshot lab storage, s.store.snapshots.get? snapshotId = some snapshot →
      s.store.labs.get? labId = some lab → s.store.labStorage.get? lab.id = some storage →
      Within (onTree G) (SnapshotManager.restoreSnapshot env now snapshot lab storage) s.disk) :
    Within (touching G) (App.restoreSnapshot env now snapshotId labId requester) s := by
  refine (within_getOr _ _).bind fun snapshot s₁ h₁ _ => (within_getOr _ _).bind fun lab s₂ h₂ _ =>
    (within_getOr _ _).bind fun storage s₃ h₃ _ => ?_
  obtain ⟨hsnapshot, rfl⟩ := getOr_eq_ok.mp h₁
  obtain ⟨hlab, rfl⟩ := getOr_eq_ok.mp h₂
  obtain ⟨hstorage, rfl⟩ := getOr_eq_ok.mp h₃
  refine Within.bind (Within.adaptExcept ?_) fun _ _ _ _ =>
    (within_recordEvent _).bind fun _ _ _ _ => Within.pure _
  exact within_onDisk (h snapshot lab storage hsnapshot hlab hstorage)

theorem within_createExport {labId sourcePath : String} {runId : Option String} {requester : RequesterType}
    (h : ∀ lab storage, s.store.labs.get? labId = some lab → s.store.labStorage.get? labId = some storage →
      runOf s.store runId labId = true →
      Within (onTree G) (ExportGate.stageExport env
        (env.uuid4 s.minted) lab storage sourcePath runId) s.disk) :
    Within (touching G) (App.createExport env now labId sourcePath runId requester) s := by
  refine (within_getOr _ _).bind fun lab s₁ h₁ _ => (within_getOr _ _).bind fun storage s₂ h₂ _ =>
    within_checkRun.bind fun _ s₃ h₃ _ => (within_newId _).bind fun exportId s₄ h₄ _ =>
    (within_recordEvent _).bind fun _ s₅ h₅ _ => ?_
  obtain ⟨hlab, rfl⟩ := getOr_eq_ok.mp h₁
  obtain ⟨hstorage, rfl⟩ := getOr_eq_ok.mp h₂
  have hid : lab.id = labId := Table.key_of_get? hlab
  have hrun := hid ▸ runOf_of_checkRun h₃
  obtain rfl := checkRun_eq_ok h₃
  obtain ⟨rfl, rfl⟩ := newId_eq_ok.mp h₄
  obtain rfl := recordEvent_eq_ok.mp h₅
  refine Within.bind (Within.adaptExcept ?_) fun _ _ _ _ => (within_addRow _).bind fun _ _ _ _ =>
    (within_recordEvent _).bind fun _ _ _ _ => Within.bind ?_ fun _ _ _ _ => Within.pure _
  · exact within_onDisk (h lab storage hlab hstorage hrun)
  · exact Within.whenever fun _ => within_recordApprovalRequest.bind fun _ _ _ _ => within_recordEvent _

theorem within_releaseExport {exportId : String}
    (h : ∀ row storage, s.store.exports.get? exportId = some row →
      s.store.labStorage.get? row.labId = some storage →
      Within (onTree G) (ExportGate.releaseExport row storage) s.disk) :
    Within (touching G) (App.releaseExport exportId) s := by
  refine (within_getOr _ _).bind fun row s₁ h₁ _ => (within_getOr _ _).bind fun storage s₂ h₂ _ => ?_
  obtain ⟨hrow, rfl⟩ := getOr_eq_ok.mp h₁
  obtain ⟨hstorage, rfl⟩ := getOr_eq_ok.mp h₂
  refine (within_attempt (within_onDisk (h row storage hrow hstorage))).bind fun outcome _ _ _ => ?_
  unfold App.finishRelease
  split
  · exact (within_setRow _).bind fun _ _ _ _ => (within_recordEvent _).bind fun _ _ _ _ => Within.pure _
  · exact (within_recordEvent _).bind fun _ _ _ _ => Within.pure _
  · exact Within.throw _
  · exact Within.throw _
  · exact Within.throw _

omit [Content β] in
theorem within_denyExport {exportId reason : String} :
    Within (touching G) (App.denyExport exportId reason) s :=
  (within_getOr _ _).bind fun _ _ _ _ => (Within.fromExcept _).bind fun _ _ _ _ =>
    (within_setRow _).bind fun _ _ _ _ =>
    (within_recordEvent _).bind fun _ _ _ _ => Within.pure _

/-! ### Reconciliation -/

variable {now' : DateTime} {report : ReconciliationReport}

omit [Content β] in
theorem within_expireStaleApprovals : Within (touching G) (expireStaleApprovals now' report) s := by
  refine Within.get.bind fun _ _ _ _ => Within.foldlM fun a _ report s => ?_
  unfold expireApproval
  split
  · refine (within_setRow _).bind fun _ _ _ _ => Within.bind ?_ fun _ _ _ _ =>
      (within_recordEvent _).bind fun _ _ _ _ => Within.pure _
    unfold expireResource
    split
    · refine (within_getRow _).bind fun lab _ _ _ => ?_
      cases lab with
      | none => exact Within.pure _
      | some lab => exact Within.whenever fun _ => within_setRow _
    · split
      · refine (within_getRow _).bind fun row _ _ _ => ?_
        cases row with
        | none => exact Within.pure _
        | some row => exact within_setRow _
      · exact Within.pure _
  · exact Within.pure _

omit [Content β] in
theorem within_revokeExpiredSecretLeases : Within (touching G) (revokeExpiredSecretLeases now' report) s := by
  refine Within.get.bind fun _ _ _ _ => Within.foldlM fun a _ report s => ?_
  unfold revokeExpired
  split
  · exact (within_setRow _).bind fun _ _ _ _ => (within_recordEvent _).bind fun _ _ _ _ => Within.pure _
  · exact Within.pure _

omit [Content β] in
theorem within_timeoutOverdueRuns : Within (touching G) (timeoutOverdueRuns now' report) s := by
  refine Within.get.bind fun _ _ _ _ => Within.foldlM fun a _ report s => ?_
  unfold timeoutRun
  split
  · exact (within_setRow _).bind fun _ _ _ _ => (within_recordEvent _).bind fun _ _ _ _ => Within.pure _
  · exact Within.pure _

omit [Content β] in
/-- Where no lab is being destroyed, none is retried. -/
theorem within_retryDestroyingLabs {service : Reconciler β} {storageOf : String → Option LabStorageRow}
    (h : Quiet s.store) : Within (touching G) (retryDestroyingLabs service storageOf report) s := by
  unfold retryDestroyingLabs
  cases service.storageDestroyer with
  | none => exact Within.pure _
  | some destroyer =>
    refine Within.get.bind fun _ _ h₁ _ => Within.foldlM fun lab hlab report s => ?_
    obtain ⟨rfl, rfl⟩ := get_eq_ok.mp h₁
    obtain ⟨hmem, hstate⟩ := Table.mem_select.mp hlab
    exact absurd (of_decide_eq_true hstate) (h lab.id lab (Table.get?_of_mem hmem))

omit [Content β] in
theorem within_checkStorage {storageOf : String → Option LabStorageRow} {labId : String} :
    Within (touching G) (checkStorage storageOf report labId) s := by
  refine (within_getRow _).bind fun lab _ _ _ => ?_
  cases lab with
  | none => exact Within.pure _
  | some lab =>
    dsimp only
    split
    · exact Within.pure _
    · refine (within_onDisk ?_).bind fun reason _ _ _ => ?_
      · unfold failureReason
        cases storageOf lab.id with
        | none => exact Within.pure _
        | some storage => exact (within_files (within_look _ _)).bind fun _ _ _ _ => Within.pure _
      · cases reason with
        | none => exact Within.pure _
        | some reason =>
          exact (within_setRow _).bind fun _ _ _ _ => (within_recordEvent _).bind fun _ _ _ _ => Within.pure _

omit [Content β] in
theorem within_inspect {inspection : LabInspection} : Within (touching G) (inspect report inspection) s := by
  refine (within_getRow _).bind fun lab _ _ _ => ?_
  cases lab with
  | none => exact (within_recordEvent _).bind fun _ _ _ _ => Within.pure _
  | some lab =>
    dsimp only
    split
    · exact (within_recordEvent _).bind fun _ _ _ _ => Within.pure _
    · exact Within.pure _

/-- Sweeps put no lab in the state of being destroyed. -/
theorem quiet_of_sweeps {st st' : Store} (h : Sweeps now' st st') (hst : Quiet st) : Quiet st' := by
  intro id lab' hlab' hstate
  obtain ⟨lab, hlab⟩ := (addsNone_of_sweeps h).labs hlab'
  obtain ⟨lab₁, hlab₁, hswept⟩ := sweptLab_of_sweeps h hlab
  obtain rfl := Option.some.inj (hlab₁.symm.trans hlab')
  rcases hswept.state with hs | ⟨-, hs⟩ | ⟨-, hs⟩
  · exact hst id lab hlab (hs.symm.trans hstate)
  · exact absurd (hs.symm.trans hstate) (by decide)
  · exact absurd (hs.symm.trans hstate) (by decide)

omit [Content β] in
theorem within_reconcile {service : Reconciler β} (h : Quiet s.store) :
    Within (touching G) (ReconciliationService.reconcile service now') s := by
  refine Within.get.bind fun _ s₁ h₁ _ => within_expireStaleApprovals.bind fun _ s₂ h₂ _ =>
    within_revokeExpiredSecretLeases.bind fun _ s₃ h₃ _ => within_timeoutOverdueRuns.bind fun _ s₄ h₄ _ => ?_
  obtain ⟨-, rfl⟩ := get_eq_ok.mp h₁
  have hquiet : Quiet s₄.store := quiet_of_sweeps (timeoutOverdueRuns_sweeps h₄) <|
    quiet_of_sweeps (revokeExpiredSecretLeases_sweeps h₃) <| quiet_of_sweeps
      (expireStaleApprovals_sweeps h₂) h
  refine (within_retryDestroyingLabs hquiet).bind fun _ _ _ _ => Within.bind ?_ fun _ _ _ _ =>
    Within.bind ?_ fun _ _ _ _ => Within.pure _
  · exact Within.foldlM fun _ _ _ _ => within_checkStorage
  · exact Within.foldlM fun _ _ _ _ => within_inspect

/-! ### Requests -/

omit [Content β] in
theorem within_block {α : Type} {f : α → Response} {body : SessionM β α} (h : Within (touching G) body s) :
    Within (touching G) (f <$> withSession body) s :=
  (within_withSession h).map

/-- **All a request does to the disk is its work there.** -/
theorem within_respond {r : Request β} (h : DiskWork env now G s r) :
    Within (touching G) (respond env now r) s := by
  cases r with
  | createLab => exact within_block (within_createLabRecord h)
  | destroyLab => exact within_block (within_destroyLab h)
  | createSecretLease =>
    exact (Within.raiseIf _ _).bind fun _ _ _ _ => within_block within_createSecretLease
  | revokeSecretLease => exact within_block within_revokeSecretLease
  | createRun => exact within_block within_createRunRecord
  | enqueueSchedulerJob =>
    exact (Within.raiseIf _ _).bind fun _ _ _ _ => within_block within_enqueueSchedulerJob
  | dispatchNextSchedulerJob => exact within_block (within_dispatchNextSchedulerJob h)
  | approveRequest => exact within_block within_decideRequest
  | denyRequest => exact within_block within_decideRequest
  | createSnapshot => exact within_block (within_createSnapshot h)
  | restoreSnapshot => exact within_block (within_restoreSnapshot h)
  | createExport => exact within_block (within_createExport h)
  | releaseExport =>
    exact (within_withSession (within_releaseExport h)).bind fun _ _ _ _ => (Within.fromExcept _).map
  | denyExport => exact within_block within_denyExport
  | reconcile => exact within_block (within_reconcile h)

end Handlers

end LabOS
