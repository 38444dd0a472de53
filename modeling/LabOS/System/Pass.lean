import LabOS.System.Sweeps

/-!
# A reconciliation pass, computed

The loops of a pass read and write one session while they go. Here the pass is a function
of the state it starts from: what each loop selects, what becomes of each row, which
events it appends, and which ids it reports.

## What is proved

* `reconcile_eq` — **a pass never raises**, and its report, its rows, its events and the
  disk it leaves are those of `pass`.
* `get?_approvals_pass` and its companions — what becomes of each row.
-/

namespace LabOS

open Exceptional FileOps FileTree

variable {β : Type}

namespace ReconciliationService

/-! ### Expiry -/

/-- The approvals a pass expires. -/
def staleApprovals (now : DateTime) (st : Store) : List ApprovalRow :=
  (st.approvals.select (fun row => row.state = .requested && row.expiresAt.isSome)
    (before ApprovalRow.createdAt ApprovalRow.id)).filter (isStale now)

/-- The labs once an approval has expired. -/
def failPending (labs : Table LabRow.id) (a : ApprovalRow) : Table LabRow.id :=
  labs.modify a.resourceId fun lab =>
    if a.resourceType = "lab" ∧ lab.state = .pendingApproval then some { lab with state := .failed } else none

/-- The exports once an approval has expired. -/
def rejectExpired (exports : Table ExportRow.id) (a : ApprovalRow) : Table ExportRow.id :=
  exports.modify a.resourceId fun row => if a.resourceType = "export" then some (expiredExport row) else none

/-- The event of an approval that has expired. -/
def expiryEvent (a : ApprovalRow) : EventRow :=
  event "approval.expired" "approval" a.id a.labId none
    [("approval_id", .str a.id), ("resource_type", .str a.resourceType), ("resource_id", .str a.resourceId),
     ("action", .str a.action)]

/-- The store once the approvals `stale` have expired. -/
def withExpired (now : DateTime) (st : Store) (stale : List ApprovalRow) : Store :=
  { st with
    approvals := stale.foldl (fun t a => t.put (expiredApproval now a)) st.approvals
    labs := stale.foldl failPending st.labs
    exports := stale.foldl rejectExpired st.exports
    events := st.events ++ stale.map expiryEvent }

theorem expireResource_eq (a : ApprovalRow) (s : Session β) :
    expireResource a s = .ok () { s with store := { s.store with
      labs := failPending s.store.labs a, exports := rejectExpired s.store.exports a } } := by
  unfold expireResource failPending rejectExpired Table.modify
  by_cases hlab : a.resourceType = "lab"
  · have hexport : a.resourceType ≠ "export" := by simp [hlab]
    rw [if_pos hlab]
    refine bind_of_ok (getRow_eq_ok.mpr ⟨rfl, rfl⟩) ?_
    cases s.store.labs.get? a.resourceId with
    | none => simp [hexport]
    | some lab => by_cases hp : lab.state = .pendingApproval <;> simp [whenever_eq_ok, hlab, hp]
  · rw [if_neg hlab]
    by_cases hexport : a.resourceType = "export"
    · rw [if_pos hexport]
      refine bind_of_ok (getRow_eq_ok.mpr ⟨rfl, rfl⟩) ?_
      cases s.store.exports.get? a.resourceId <;> simp [hexport, expiredExport]
    · rw [if_neg hexport]
      simp [hlab, hexport]

theorem expireApprovals_eq (now : DateTime) (rows : List ApprovalRow) (report : ReconciliationReport)
    (s : Session β) :
    rows.foldlM (expireApproval now) report s =
      .ok { report with
          expiredApprovalIds := report.expiredApprovalIds ++ (rows.filter (isStale now)).map ApprovalRow.id }
        { s with store := withExpired now s.store (rows.filter (isStale now)) } := by
  refine foldlM_filter_eq
    (fun report rows => { report with expiredApprovalIds := report.expiredApprovalIds ++ rows.map ApprovalRow.id })
    (fun s rows => { s with store := withExpired now s.store rows })
    (fun _ => by simp) (fun _ _ _ => by simp) (fun _ => by simp [withExpired])
      (fun _ _ _ => by simp [withExpired])
    (fun report a s hstale => ?_) (fun report a s hfresh => ?_) rows report s
  · unfold expireApproval
    rw [if_pos hstale]
    exact bind_eq_ok.mpr ⟨(), _, rfl,
      bind_eq_ok.mpr ⟨(), _, expireResource_eq a _, bind_eq_ok.mpr ⟨(), _, rfl, rfl⟩⟩⟩
  · unfold expireApproval
    rw [if_neg (by simp [hfresh])]
    rfl

/-! ### Leases and runs -/

/-- Has the time of a lease come? -/
def isExpired (now : DateTime) (lease : SecretLeaseRow) : Bool :=
  lease.expiresAt.normalize.instant ≤ now.instant

/-- The leases a pass revokes. -/
def expiredLeases (now : DateTime) (st : Store) : List SecretLeaseRow :=
  (st.secretLeases.select (fun row => row.revokedAt.isNone)
    (before SecretLeaseRow.createdAt SecretLeaseRow.id)).filter (isExpired now)

/-- A lease once it is revoked. -/
def revokedLease (now : DateTime) (lease : SecretLeaseRow) : SecretLeaseRow :=
  { lease with revokedAt := some now.column }

/-- The event of a lease that has expired. -/
def leaseEvent (lease : SecretLeaseRow) : EventRow :=
  event "secret_lease.expired" "secret_lease" lease.id (some lease.labId) none
    [("secret_name", .str lease.secretName), ("lease_id", .str lease.id)]

/-- The store once the leases `expired` are revoked. -/
def withRevoked (now : DateTime) (st : Store) (expired : List SecretLeaseRow) : Store :=
  { st with
    secretLeases := expired.foldl (fun t lease => t.put (revokedLease now lease)) st.secretLeases
    events := st.events ++ expired.map leaseEvent }

theorem revokeLeases_eq (now : DateTime) (rows : List SecretLeaseRow) (report : ReconciliationReport)
    (s : Session β) :
    rows.foldlM (revokeExpired now) report s =
      .ok { report with
          revokedSecretLeaseIds :=
            report.revokedSecretLeaseIds ++ (rows.filter (isExpired now)).map SecretLeaseRow.id }
        { s with store := withRevoked now s.store (rows.filter (isExpired now)) } := by
  refine foldlM_filter_eq (fun report rows => { report with
      revokedSecretLeaseIds := report.revokedSecretLeaseIds ++ rows.map SecretLeaseRow.id })
    (fun s rows => { s with store := withRevoked now s.store rows })
    (fun _ => by simp) (fun _ _ _ => by simp) (fun _ => by simp [withRevoked])
      (fun _ _ _ => by simp [withRevoked])
    (fun report lease s hstale => ?_) (fun report lease s hfresh => ?_) rows report s
  · unfold revokeExpired
    rw [if_pos (of_decide_eq_true hstale)]
    exact bind_eq_ok.mpr ⟨(), _, rfl, bind_eq_ok.mpr ⟨(), _, rfl, rfl⟩⟩
  · unfold revokeExpired
    rw [if_neg (of_decide_eq_false hfresh)]
    rfl

/-- Is the run one that may be timed out? -/
def isActive (run : RunRow) : Bool :=
  (run.state = .queued || run.state = .starting || run.state = .running) && run.timeoutAt.isSome

/-- The runs a pass times out. -/
def overdueRuns (now : DateTime) (st : Store) : List RunRow :=
  (st.runs.select isActive (before RunRow.createdAt RunRow.id)).filter (isOverdue now)

/-- A run once it is timed out. -/
def timedOutRun (now : DateTime) (run : RunRow) : RunRow :=
  { run with state := .timedOut, finishedAt := some now.column }

/-- The event of a run that is timed out. -/
def timeoutEvent (run : RunRow) : EventRow :=
  event "run.timed_out" "run" run.id (some run.labId) (some run.id)
    [("state", .str RunState.timedOut.value), ("timeout_at", .int (run.timeoutAt.elim 0 DateTime.wall))]

/-- The store once the runs `overdue` are timed out. -/
def withTimedOut (now : DateTime) (st : Store) (overdue : List RunRow) : Store :=
  { st with
    runs := overdue.foldl (fun t run => t.put (timedOutRun now run)) st.runs
    events := st.events ++ overdue.map timeoutEvent }

theorem timeoutRuns_eq (now : DateTime) (rows : List RunRow) (report : ReconciliationReport) (s : Session β) :
    rows.foldlM (timeoutRun now) report s =
      .ok { report with timedOutRunIds := report.timedOutRunIds ++ (rows.filter (isOverdue now)).map RunRow.id }
        { s with store := withTimedOut now s.store (rows.filter (isOverdue now)) } := by
  refine foldlM_filter_eq
    (fun report rows => { report with timedOutRunIds := report.timedOutRunIds ++ rows.map RunRow.id })
    (fun s rows => { s with store := withTimedOut now s.store rows })
    (fun _ => by simp) (fun _ _ _ => by simp) (fun _ => by simp [withTimedOut])
      (fun _ _ _ => by simp [withTimedOut])
    (fun report run s hover => ?_) (fun report run s hearly => ?_) rows report s
  · unfold timeoutRun
    rw [if_pos hover]
    exact bind_eq_ok.mpr ⟨(), _, rfl, bind_eq_ok.mpr ⟨(), _, rfl, rfl⟩⟩
  · unfold timeoutRun
    rw [if_neg (by simp [hearly])]
    rfl

/-! ### Destroys -/

/-- How the attempt to destroy a lab went. -/
inductive DestroyOutcome where
  | noStorage
  | raised (e : Exc)
  | succeeded

/-- Try to destroy a lab on a disk: how that goes, and the disk it leaves. -/
def tryDestroy (destroyer : StorageAllocation → DiskM β Unit) (storageRow : Option LabStorageRow)
    (labId : String) (d : Disk β) : DestroyOutcome × Disk β :=
  match storageRow with
  | none => (.noStorage, d)
  | some storageRow =>
    match destroyStorage destroyer storageRow labId d with
    | .ok _ d' => (.succeeded, d')
    | .error e d' => (.raised e, d')

/-- Try to destroy one lab after another. -/
def tryAll (destroyer : StorageAllocation → DiskM β Unit) (storageOf : String → Option LabStorageRow) :
    List LabRow → Disk β → List (LabRow × DestroyOutcome) × Disk β
  | [], d => ([], d)
  | lab :: labs, d =>
    let first := tryDestroy destroyer (storageOf lab.id) lab.id d
    let rest := tryAll destroyer storageOf labs first.2
    ((lab, first.1) :: rest.1, rest.2)

/-- Is the destroy of a lab given up? -/
def isGivenUp (maxDestroyAttempts : ℕ) (attempt : LabRow × DestroyOutcome) : Bool :=
  match attempt.2 with
  | .noStorage => true
  | .raised _ => maxDestroyAttempts ≤ attempt.1.destroyAttempts + 1
  | .succeeded => false

/-- Was the lab destroyed? -/
def isDestroyed (attempt : LabRow × DestroyOutcome) : Bool :=
  match attempt.2 with
  | .succeeded => true
  | _ => false

/-- A lab after the attempt to destroy it. -/
def settledLab (maxDestroyAttempts : ℕ) (attempt : LabRow × DestroyOutcome) : LabRow :=
  match attempt.2 with
  | .noStorage => { attempt.1 with state := .failed, lastDestroyError := some "missing_storage_record" }
  | .raised e =>
    if maxDestroyAttempts ≤ attempt.1.destroyAttempts + 1
      then { retriedLab e attempt.1 with state := .failed }
    else retriedLab e attempt.1
  | .succeeded =>
    { attempt.1 with
      state := .destroyed, destroyAttempts := attempt.1.destroyAttempts + 1, lastDestroyError := none }

@[simp] theorem settledLab_id (maxDestroyAttempts : ℕ) (attempt : LabRow × DestroyOutcome) :
    (settledLab maxDestroyAttempts attempt).id = attempt.1.id := by
  obtain ⟨lab, outcome⟩ := attempt
  cases outcome with
  | raised e => by_cases h : maxDestroyAttempts ≤ lab.destroyAttempts + 1 <;> simp [settledLab, retriedLab, h]
  | _ => rfl

/-- The event of an attempt, about the lab as it then is. -/
def attemptEvent (service : Reconciler β) (eventType : String) (lab : LabRow) : EventRow :=
  event eventType "lab" lab.id (some lab.id) none (attemptPayload service lab)

/-- The events of an attempt to destroy a lab. -/
def destroyEvents (service : Reconciler β) (attempt : LabRow × DestroyOutcome) : List EventRow :=
  let lab := settledLab service.maxDestroyAttempts attempt
  match attempt.2 with
  | .noStorage => [attemptEvent service "lab.destroy_failed" lab]
  | .raised _ =>
    attemptEvent service "lab.destroy_retry_failed" lab ::
      if isGivenUp service.maxDestroyAttempts attempt
        then [attemptEvent service "lab.destroy_failed" lab] else []
  | .succeeded =>
    [event "lab.destroyed" "lab" lab.id (some lab.id) none
      [("attempt", .int lab.destroyAttempts), ("state", .str lab.state.value)]]

/-- The report after `attempts`. -/
def reportDestroys (service : Reconciler β) (report : ReconciliationReport)
    (attempts : List (LabRow × DestroyOutcome)) : ReconciliationReport :=
  { report with
    destroyedLabIds := report.destroyedLabIds ++ (attempts.filter isDestroyed).map fun attempt => attempt.1.id
    failedDestroyLabIds := report.failedDestroyLabIds ++
      (attempts.filter (isGivenUp service.maxDestroyAttempts)).map fun attempt => attempt.1.id }

/-- The store after `attempts`. -/
def withDestroys (service : Reconciler β) (st : Store) (attempts : List (LabRow × DestroyOutcome)) : Store :=
  { st with
    labs := attempts.foldl (fun t attempt => t.put (settledLab service.maxDestroyAttempts attempt)) st.labs
    events := st.events ++ attempts.flatMap (destroyEvents service) }

theorem retryDestroy_eq (service : Reconciler β) (destroyer : StorageAllocation → DiskM β Unit)
    (storageOf : String → Option LabStorageRow) (report : ReconciliationReport) (lab : LabRow)
    (s : Session β) :
    retryDestroy service destroyer storageOf report lab s =
      .ok (reportDestroys service report [(lab, (tryDestroy destroyer (storageOf lab.id) lab.id s.disk).1)])
        { s with
          store := withDestroys service s.store
            [(lab, (tryDestroy destroyer (storageOf lab.id) lab.id s.disk).1)]
          disk := (tryDestroy destroyer (storageOf lab.id) lab.id s.disk).2 } := by
  unfold retryDestroy
  cases hstorage : storageOf lab.id with
  | none =>
    simp only [failDestroy, bind_eq_ok, setRow_eq_ok, recordEvent_eq_ok, pure_eq_ok]
    refine ⟨(), _, rfl, (), _, rfl, ?_, rfl⟩
    simp [reportDestroys, tryDestroy, List.filter_cons, isDestroyed, isGivenUp]
  | some storageRow =>
    cases hrun : destroyStorage destroyer storageRow lab.id s.disk with
    | ok u d =>
      refine bind_eq_ok.mpr ⟨.ok u, { s with disk := d }, ?_, ?_⟩
      · exact attempt_eq_ok.mpr (.inl ⟨u, rfl, onDisk_eq_ok.mpr ⟨d, hrun, rfl⟩⟩)
      · simp only [bind_eq_ok, setRow_eq_ok, recordEvent_eq_ok, pure_eq_ok]
        refine ⟨(), _, rfl, (), _, rfl, ?_, ?_⟩
        · simp [reportDestroys, tryDestroy, hrun, List.filter_cons, isDestroyed, isGivenUp]
        · simp [withDestroys, tryDestroy, hrun, settledLab, destroyEvents]
    | error e d =>
      have hraise : attempt (onDisk (destroyStorage destroyer storageRow lab.id)) s =
          .ok (.error e) { s with disk := d } :=
        attempt_eq_ok.mpr (.inr ⟨e, rfl, by simp [onDisk, onPart, hrun]⟩)
      refine bind_eq_ok.mpr ⟨.error e, { s with disk := d }, hraise, ?_⟩
      by_cases hlast : service.maxDestroyAttempts ≤ lab.destroyAttempts + 1
      · -- the attempt is written first, and the lab failed on top of it
        simp only [hlast, if_true, failDestroy, bind_eq_ok, setRow_eq_ok, recordEvent_eq_ok, pure_eq_ok]
        refine ⟨(), _, rfl, (), _, rfl, (), _, rfl, (), _, rfl, ?_, ?_⟩
        · simp [reportDestroys, tryDestroy, hrun, isDestroyed, isGivenUp, hlast]
        · simp [withDestroys, tryDestroy, hrun, settledLab, destroyEvents, isGivenUp, hlast,
            retriedLab, attemptEvent,
            attemptPayload, Table.put_put]
      · simp only [hlast, if_false, bind_eq_ok, setRow_eq_ok, recordEvent_eq_ok, pure_eq_ok]
        refine ⟨(), _, rfl, (), _, rfl, ?_, ?_⟩
        · simp [reportDestroys, tryDestroy, hrun, isDestroyed, isGivenUp, hlast]
        · simp [withDestroys, tryDestroy, hrun, settledLab, destroyEvents, isGivenUp, hlast,
            retriedLab, attemptEvent,
            attemptPayload]

theorem reportDestroys_append (service : Reconciler β) (report : ReconciliationReport)
    (first rest : List (LabRow × DestroyOutcome)) :
    reportDestroys service (reportDestroys service report first) rest = reportDestroys service report
      (first ++ rest) := by
  simp [reportDestroys]

theorem withDestroys_append (service : Reconciler β) (st : Store)
    (first rest : List (LabRow × DestroyOutcome)) :
    withDestroys service (withDestroys service st first) rest = withDestroys service st (first ++ rest) := by
  simp [withDestroys]

theorem retryDestroys_eq (service : Reconciler β) (destroyer : StorageAllocation → DiskM β Unit)
    (storageOf : String → Option LabStorageRow) (labs : List LabRow) (report : ReconciliationReport)
    (s : Session β) :
    labs.foldlM (retryDestroy service destroyer storageOf) report s =
      .ok (reportDestroys service report (tryAll destroyer storageOf labs s.disk).1)
        { s with
          store := withDestroys service s.store (tryAll destroyer storageOf labs s.disk).1
          disk := (tryAll destroyer storageOf labs s.disk).2 } := by
  induction labs generalizing report s with
  | nil => simp [tryAll, reportDestroys, withDestroys]
  | cons lab labs ih =>
    refine bind_eq_ok.mpr ⟨_, _, retryDestroy_eq service destroyer storageOf report lab s, ?_⟩
    rw [ih, reportDestroys_append, withDestroys_append]
    rfl

/-! ### Lost storage -/

/-- Why a lab is failed, if it is. -/
def lossOf (storageOf : String → Option LabStorageRow) (tree : FileTree β) (lab : LabRow) : Option String :=
  if lab.state = .destroyed then none
  else match storageOf lab.id with
    | none => some "missing_storage_record"
    | some storageRow => if (tree.stat storageRow.rootPath).isSome then none else some "missing_storage_root"

/-- The labs of `ids` that have lost their storage, and why each is failed. -/
def lostLabs (storageOf : String → Option LabStorageRow) (tree : FileTree β) (labs : Table LabRow.id)
    (ids : List String) : List (LabRow × String) :=
  ids.filterMap fun id => (labs.get? id).bind fun lab =>
    (lossOf storageOf tree lab).map fun reason => (lab, reason)

/-- A lab that is failed. -/
def failedLab (lab : LabRow) : LabRow := { lab with state := .failed }

@[simp] theorem failedLab_id (lab : LabRow) : (failedLab lab).id = lab.id := rfl

/-- The event of a lab that has lost its storage. -/
def lossEvent (lost : LabRow × String) : EventRow :=
  event "lab.reconciliation_failed" "lab" lost.1.id (some lost.1.id) none
    [("reason", .str lost.2), ("state", .str LabState.failed.value)]

/-- The store once the labs `lost` are failed. -/
def withLost (st : Store) (lost : List (LabRow × String)) : Store :=
  { st with
    labs := lost.foldl (fun t x => t.put (failedLab x.1)) st.labs
    events := st.events ++ lost.map lossEvent }

theorem failureReason_eq (storageOf : String → Option LabStorageRow) {lab : LabRow}
    (halive : lab.state ≠ .destroyed) (d : Disk β) :
    failureReason (storageOf lab.id) d = .ok (lossOf storageOf d.tree lab) d := by
  unfold failureReason lossOf
  rw [if_neg halive]
  cases storageOf lab.id with
  | none => rfl
  | some storageRow => exact bind_eq_ok.mpr ⟨_, d, rfl, rfl⟩

/-- Failing a lab changes nothing for the labs still to be checked. -/
theorem lostLabs_put {storageOf : String → Option LabStorageRow} {tree : FileTree β} {labs : Table LabRow.id}
    {ids : List String} {lab : LabRow} (h : lab.id ∉ ids) :
    lostLabs storageOf tree (labs.put lab) ids = lostLabs storageOf tree labs ids := by
  apply List.filterMap_congr
  intro id hid
  rw [Table.get?_put_ne]
  rintro rfl
  exact h hid

theorem checkStorages_eq (storageOf : String → Option LabStorageRow) {ids : List String} (hids : ids.Nodup)
    (report : ReconciliationReport) (s : Session β) :
    ids.foldlM (checkStorage storageOf) report s =
      .ok { report with failedLabIds := report.failedLabIds ++
              (lostLabs storageOf s.disk.tree s.store.labs ids).map fun x => x.1.id }
        { s with store := withLost s.store (lostLabs storageOf s.disk.tree s.store.labs ids) } := by
  induction ids generalizing report s with
  | nil => simp [lostLabs, withLost]
  | cons id ids ih =>
    obtain ⟨hid, hids⟩ := List.nodup_cons.mp hids
    -- the round of `id` either leaves the session as it is or fails the lab
    have hskip : (s.store.labs.get? id).bind (lossOf storageOf s.disk.tree) = none →
        checkStorage storageOf report id s = .ok report s := by
      intro hnone
      refine bind_eq_ok.mpr ⟨_, s, getRow_eq_ok.mpr ⟨rfl, rfl⟩, ?_⟩
      cases hlab : s.store.labs.get? id with
      | none => rfl
      | some lab =>
        dsimp only
        split
        · rfl
        · next halive =>
          rw [hlab, Option.bind_some] at hnone
          refine bind_eq_ok.mpr ⟨none, s, onDisk_eq_ok.mpr ⟨s.disk, ?_, rfl⟩, rfl⟩
          rw [failureReason_eq storageOf halive, hnone]
    have hfail : ∀ lab reason, s.store.labs.get? id = some lab →
        lossOf storageOf s.disk.tree lab = some reason →
        checkStorage storageOf report id s =
          .ok { report with failedLabIds := report.failedLabIds ++ [lab.id] }
          { s with store := withLost s.store [(lab, reason)] } := by
      intro lab reason hlab hloss
      have halive : lab.state ≠ .destroyed := by
        intro hdestroyed
        simp [lossOf, hdestroyed] at hloss
      refine bind_eq_ok.mpr ⟨_, s, getRow_eq_ok.mpr ⟨rfl, rfl⟩, ?_⟩
      rw [hlab]
      dsimp only
      rw [if_neg halive]
      refine bind_eq_ok.mpr ⟨some reason, s, onDisk_eq_ok.mpr ⟨s.disk, ?_, rfl⟩, ?_⟩
      · rw [failureReason_eq storageOf halive, hloss]
      · exact bind_eq_ok.mpr ⟨(), _, rfl, bind_eq_ok.mpr ⟨(), _, rfl, rfl⟩⟩
    apply bind_eq_ok.mpr
    cases hlab : s.store.labs.get? id with
    | none =>
      refine ⟨report, s, hskip (by rw [hlab]; rfl), ?_⟩
      rw [ih hids]
      simp [lostLabs, hlab]
    | some lab =>
      have hkey : lab.id = id := Table.key_of_get? hlab
      cases hloss : lossOf storageOf s.disk.tree lab with
      | none =>
        refine ⟨report, s, hskip (by rw [hlab]; exact hloss), ?_⟩
        rw [ih hids]
        simp [lostLabs, hlab, hloss]
      | some reason =>
        refine ⟨_, _, hfail lab reason hlab hloss, ?_⟩
        rw [ih hids]
        have hrest : lostLabs storageOf s.disk.tree (withLost s.store [(lab, reason)]).labs ids =
            lostLabs storageOf s.disk.tree s.store.labs ids := lostLabs_put (by simpa [hkey] using hid)
        have hcons : lostLabs storageOf s.disk.tree s.store.labs (id :: ids) =
            (lab, reason) :: lostLabs storageOf s.disk.tree s.store.labs ids := by
          simp [lostLabs, hlab, hloss]
        rw [hrest, hcons]
        simp [withLost]

/-! ### The runtime -/

/-- The events of an inspection, over the labs of a store. -/
def findings (labs : Table LabRow.id) (inspection : LabInspection) : List EventRow :=
  match labs.get? inspection.labId with
  | none =>
    [event "runtime_lab.orphan_detected" "runtime_lab" inspection.labId none none
      (inspectionPayload inspection)]
  | some lab =>
    if isZombieLab lab.state inspection.status then
      [event "runtime_lab.zombie_detected" "runtime_lab" inspection.labId (some lab.id) none
        (inspectionPayload inspection ++ [("lab_state", .str lab.state.value)])]
    else []

/-- Is there no lab for the container? -/
def isOrphan (labs : Table LabRow.id) (inspection : LabInspection) : Bool :=
    (labs.get? inspection.labId).isNone

/-- Does the container run for a lab that admits no runtime? -/
def isZombie (labs : Table LabRow.id) (inspection : LabInspection) : Bool :=
  (labs.get? inspection.labId).any fun lab => isZombieLab lab.state inspection.status

theorem inspect_eq (report : ReconciliationReport) (inspection : LabInspection) (s : Session β) :
    inspect report inspection s =
      .ok { report with
          orphanedRuntimeLabIds := report.orphanedRuntimeLabIds ++
            if isOrphan s.store.labs inspection then [inspection.labId] else []
          zombieLabIds := report.zombieLabIds ++
            if isZombie s.store.labs inspection then [inspection.labId] else [] }
        { s with store := { s.store with events := s.store.events ++ findings s.store.labs inspection } } := by
  refine bind_eq_ok.mpr ⟨_, s, getRow_eq_ok.mpr ⟨rfl, rfl⟩, ?_⟩
  unfold isOrphan isZombie findings
  cases hlab : s.store.labs.get? inspection.labId with
  | none =>
    refine bind_eq_ok.mpr ⟨(), _, rfl, ?_⟩
    simp
  | some lab =>
    by_cases hzombie : isZombieLab lab.state inspection.status = true
    · simp only [hzombie, if_true]
      refine bind_eq_ok.mpr ⟨(), _, rfl, ?_⟩
      simp [hzombie]
    · simp [hzombie]

theorem inspects_eq (inventory : List LabInspection) (report : ReconciliationReport) (s : Session β) :
    inventory.foldlM inspect report s =
      .ok { report with
          orphanedRuntimeLabIds := report.orphanedRuntimeLabIds ++
            (inventory.filter (isOrphan s.store.labs)).map LabInspection.labId
          zombieLabIds := report.zombieLabIds ++ (inventory.filter (isZombie s.store.labs)).map
            LabInspection.labId }
        { s with store := { s.store with events := s.store.events ++ inventory.flatMap (findings s.store.labs) } } := by
  induction inventory generalizing report s with
  | nil => simp
  | cons inspection inventory ih =>
    refine bind_eq_ok.mpr ⟨_, _, inspect_eq report inspection s, ?_⟩
    rw [ih]
    cases horphan : isOrphan s.store.labs inspection <;> cases hzombie : isZombie s.store.labs inspection <;>
      simp [horphan, hzombie]

/-! ### The pass -/

/-- The store after the sweeps over approvals, leases and runs. -/
def swept (now : DateTime) (st : Store) : Store :=
  withTimedOut now (withRevoked now (withExpired now st (staleApprovals now st)) (expiredLeases now st))
    (overdueRuns now st)

/-- The labs whose destroy a pass tries again. -/
def destroyingLabs (now : DateTime) (st : Store) : List LabRow :=
  (swept now st).labs.select (fun row => row.state = .destroying) (before LabRow.createdAt LabRow.id)

/-- The attempts of a pass to destroy labs, and the disk they leave. -/
def attempts (service : Reconciler β) (now : DateTime) (s : Session β) :
    List (LabRow × DestroyOutcome) × Disk β :=
  match service.storageDestroyer with
  | none => ([], s.disk)
  | some destroyer => tryAll destroyer s.store.labStorage.get? (destroyingLabs now s.store) s.disk

/-- The store after these attempts. -/
def retried (service : Reconciler β) (now : DateTime) (s : Session β) : Store :=
  withDestroys service (swept now s.store) (attempts service now s).1

/-- The ids of all labs, in the order of a pass. -/
def labIds (st : Store) : List String :=
  (st.labs.select (fun _ => true) (before LabRow.createdAt LabRow.id)).map LabRow.id

/-- The labs a pass finds without their storage. -/
def lost (service : Reconciler β) (now : DateTime) (s : Session β) : List (LabRow × String) :=
  lostLabs s.store.labStorage.get? (attempts service now s).2.tree (retried service now s).labs
    (labIds s.store)

/-- The store once these are failed. -/
def checked (service : Reconciler β) (now : DateTime) (s : Session β) : Store :=
  withLost (retried service now s) (lost service now s)

/-- The containers a pass inspects. -/
def inspected (service : Reconciler β) : List LabInspection := service.runtimeInventory.getD []

/-- The report of a pass. -/
def passReport (service : Reconciler β) (now : DateTime) (s : Session β) : ReconciliationReport :=
  sortReport {
    failedLabIds := (lost service now s).map fun x => x.1.id
    destroyedLabIds := ((attempts service now s).1.filter isDestroyed).map fun attempt => attempt.1.id
    failedDestroyLabIds :=
      ((attempts service now s).1.filter (isGivenUp service.maxDestroyAttempts)).map
        fun attempt => attempt.1.id
    orphanedRuntimeLabIds :=
      ((inspected service).filter (isOrphan (checked service now s).labs)).map LabInspection.labId
    zombieLabIds := ((inspected service).filter (isZombie (checked service now s).labs)).map
      LabInspection.labId
    expiredApprovalIds := (staleApprovals now s.store).map ApprovalRow.id
    revokedSecretLeaseIds := (expiredLeases now s.store).map SecretLeaseRow.id
    timedOutRunIds := (overdueRuns now s.store).map RunRow.id }

/-- The session after a pass. -/
def pass (service : Reconciler β) (now : DateTime) (s : Session β) : Session β :=
  { s with
    store := { checked service now s with
      events := (checked service now s).events ++ (inspected service).flatMap
        (findings (checked service now s).labs) }
    disk := (attempts service now s).2 }

theorem retryDestroyingLabs_eq (service : Reconciler β) (now : DateTime) (s : Session β)
    (report : ReconciliationReport) :
    retryDestroyingLabs service s.store.labStorage.get? report { s with store := swept now s.store } =
      .ok (reportDestroys service report (attempts service now s).1)
        { s with store := retried service now s, disk := (attempts service now s).2 } := by
  unfold retryDestroyingLabs retried attempts
  cases service.storageDestroyer with
  | none => simp [reportDestroys, withDestroys]
  | some destroyer =>
    refine bind_eq_ok.mpr ⟨_, _, get_eq_ok.mpr ⟨rfl, rfl⟩, ?_⟩
    exact retryDestroys_eq service destroyer _ _ report _

/-- **A pass, computed**: it never raises, and does what `pass` says. -/
theorem reconcile_eq (service : Reconciler β) (now : DateTime) (s : Session β) :
    reconcile service now s = .ok (passReport service now.normalize s) (pass service now.normalize s) := by
  have hids : (labIds s.store).Nodup := Table.nodup_select _ _ _
  have hexpire : expireStaleApprovals now.normalize {} s = _ := bind_of_ok rfl (expireApprovals_eq _ _ _ s)
  refine bind_of_ok rfl (bind_of_ok hexpire ?_)
  refine bind_of_ok (bind_of_ok rfl (revokeLeases_eq _ _ _ _)) ?_
  refine bind_of_ok (bind_of_ok rfl (timeoutRuns_eq _ _ _ _)) ?_
  refine bind_of_ok (retryDestroyingLabs_eq service now.normalize s _) ?_
  refine bind_of_ok (checkStorages_eq _ hids _ _) ?_
  exact bind_of_ok (inspects_eq _ _ _) rfl

end ReconciliationService

end LabOS
