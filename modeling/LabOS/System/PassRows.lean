import LabOS.System.Pass

/-!
# What a reconciliation pass makes of each row

For any store, any disk and any storage destroyer: which rows a pass changes, and into
what. Approvals, leases, runs and exports are changed by one sweep each. A lab may be
touched by three loops: the expiry of its approval, the retry of its destroy, and the
check of its storage.

## What is proved

* `pass_sweeps` — **one pass does exactly its sweep**.
* `pass_twice` — **a second pass at the same time** changes no row, and appends and
  reports again exactly the labs that are without their storage;
  `lost_lab_reported_again` is a pass that is not idempotent.
-/

namespace LabOS

open Exceptional FileOps FileTree

variable {β : Type}

namespace ReconciliationService

/-! ### Sweeps -/

/-- Does a pass expire the approval? -/
def expires (now : DateTime) (a : ApprovalRow) : Bool := a.state = .requested && isStale now a

theorem mem_staleApprovals {now : DateTime} {st : Store} {a : ApprovalRow} :
    a ∈ staleApprovals now st ↔ a ∈ st.approvals.rows ∧ expires now a = true := by
  unfold staleApprovals expires isStale
  rw [List.mem_filter, Table.mem_select]
  cases a.expiresAt <;> simp [and_assoc]

theorem get?_approvals (service : Reconciler β) (now : DateTime) (s : Session β) (id : String) :
    (pass service now s).store.approvals.get? id =
      (s.store.approvals.get? id).map fun a => if expires now a then expiredApproval now a else a := by
  refine (Table.get?_foldl_put_select s.store.approvals (expiredApproval now) (fun _ => rfl) _
    (isStale now) _ id).trans ?_
  apply Option.map_congr
  intro a _
  unfold expires isStale
  cases a.expiresAt <;> simp

theorem get?_secretLeases (service : Reconciler β) (now : DateTime) (s : Session β) (id : String) :
    (pass service now s).store.secretLeases.get? id = (s.store.secretLeases.get? id).map fun lease =>
      if lease.revokedAt.isNone && isExpired now lease then revokedLease now lease else lease :=
  Table.get?_foldl_put_select s.store.secretLeases (revokedLease now) (fun _ => rfl) _ (isExpired now) _ id

theorem get?_runs (service : Reconciler β) (now : DateTime) (s : Session β) (id : String) :
    (pass service now s).store.runs.get? id = (s.store.runs.get? id).map fun run =>
      if isActive run && isOverdue now run then timedOutRun now run else run :=
  Table.get?_foldl_put_select s.store.runs (timedOutRun now) (fun _ => rfl) isActive (isOverdue now) _ id

/-- Is one of the approvals for this resource? -/
def concerns (stale : List ApprovalRow) (resourceType id : String) : Bool :=
  stale.any fun a => a.resourceType = resourceType && a.resourceId = id

theorem concerns_cons (a : ApprovalRow) (stale : List ApprovalRow) (resourceType id : String) :
    concerns (a :: stale) resourceType id =
      (decide (a.resourceType = resourceType ∧ a.resourceId = id) || concerns stale resourceType id) := by
  simp [concerns]

theorem get?_rejectExpired (exports : Table ExportRow.id) (a : ApprovalRow) (id : String) :
    (rejectExpired exports a).get? id = (exports.get? id).map fun row =>
      if a.resourceType = "export" ∧ a.resourceId = id then expiredExport row else row := by
  unfold rejectExpired
  rw [Table.get?_modify]
  · apply Option.map_congr
    intro row _
    by_cases htype : a.resourceType = "export" <;> by_cases hid :
      id = a.resourceId <;> simp [htype, hid, eq_comm]
  · intro row row' h
    by_cases htype : a.resourceType = "export"
    · simp only [htype, if_true, Option.some.injEq] at h
      rw [← h]
      rfl
    · simp [htype] at h

theorem get?_foldl_rejectExpired (stale : List ApprovalRow) (exports : Table ExportRow.id) (id : String) :
    (stale.foldl rejectExpired exports).get? id = (exports.get? id).map fun row =>
      if concerns stale "export" id then expiredExport row else row := by
  induction stale generalizing exports with
  | nil => simp [concerns]
  | cons a stale ih =>
    rw [List.foldl_cons, ih, get?_rejectExpired, Option.map_map]
    apply Option.map_congr
    intro row _
    -- an export rejected twice is as rejected once
    rw [concerns_cons]
    by_cases ha : a.resourceType = "export" ∧ a.resourceId = id <;>
      by_cases hstale : concerns stale "export" id = true <;> simp [ha, hstale, expiredExport]

theorem get?_failPending (labs : Table LabRow.id) (a : ApprovalRow) (id : String) :
    (failPending labs a).get? id = (labs.get? id).map fun lab =>
      if lab.state = .pendingApproval ∧ a.resourceType = "lab" ∧ a.resourceId = id
        then { lab with state := .failed }
      else lab := by
  unfold failPending
  rw [Table.get?_modify]
  · apply Option.map_congr
    intro lab _
    by_cases htype : a.resourceType = "lab" <;> by_cases hid : id = a.resourceId <;>
      by_cases hp : lab.state = .pendingApproval <;> simp [htype, hid, hp, eq_comm]
  · intro lab lab' h
    split at h
    · rw [← Option.some.inj h]
    · cases h

/-- A lab after the expiry of approvals. -/
def expiredLab (stale : List ApprovalRow) (lab : LabRow) : LabRow :=
  if lab.state = .pendingApproval ∧ concerns stale "lab" lab.id then { lab with state := .failed } else lab

theorem get?_foldl_failPending (stale : List ApprovalRow) (labs : Table LabRow.id) (id : String) :
    (stale.foldl failPending labs).get? id = (labs.get? id).map (expiredLab stale) := by
  induction stale generalizing labs with
  | nil =>
    have hsame : expiredLab [] = fun lab => lab := by
      funext lab
      simp [expiredLab, concerns]
    simp [hsame]
  | cons a stale ih =>
    rw [List.foldl_cons, ih, get?_failPending, Option.map_map]
    apply Option.map_congr
    intro lab hlab
    obtain rfl := Table.key_of_get? hlab
    simp only [Function.comp_apply, expiredLab, concerns_cons]
    by_cases ha : a.resourceType = "lab" ∧ a.resourceId = lab.id <;>
      by_cases hstale : concerns stale "lab" lab.id = true <;>
        by_cases hp : lab.state = .pendingApproval <;> simp [ha, hstale, hp]

/-! ### Attempts -/

theorem map_fst_tryAll (destroyer : StorageAllocation → DiskM β Unit)
    (storageOf : String → Option LabStorageRow) (labs : List LabRow) (d : Disk β) :
    (tryAll destroyer storageOf labs d).1.map Prod.fst = labs := by
  induction labs generalizing d with
  | nil => rfl
  | cons lab labs ih => simp [tryAll, ih]

section Attempts

variable {service : Reconciler β} {now : DateTime} {s : Session β}

theorem map_fst_attempts : (attempts service now s).1.map Prod.fst =
    if service.storageDestroyer.isSome then destroyingLabs now s.store else [] := by
  unfold attempts
  cases service.storageDestroyer with
  | none => rfl
  | some destroyer => exact map_fst_tryAll _ _ _ _

theorem swept_labs (id : String) : (swept now s.store).labs.get? id =
    (s.store.labs.get? id).map (expiredLab (staleApprovals now s.store)) := get?_foldl_failPending _ _ id

/-- The labs whose destroy is tried again are those that are destroying. -/
theorem mem_destroyingLabs {st : Store} {lab : LabRow} :
    lab ∈ destroyingLabs now st ↔ st.labs.get? lab.id = some lab ∧ lab.state = .destroying := by
  unfold destroyingLabs
  rw [Table.mem_select, Table.mem_rows_iff]
  have hswept : (swept now st).labs.get? lab.id =
      (st.labs.get? lab.id).map (expiredLab (staleApprovals now st)) :=
    get?_foldl_failPending _ _ _
  rw [hswept, decide_eq_true_eq]
  apply and_congr_left
  intro hstate
  cases hlab : st.labs.get? lab.id with
  | none => simp
  | some lab₀ =>
    simp only [Option.map_some, Option.some.injEq]
    -- an expiry leaves a lab failed, and one that is destroying alone
    constructor
    · rintro rfl
      unfold expiredLab at hstate ⊢
      split at hstate
      · cases hstate
      · next h => rw [if_neg h]
    · rintro rfl
      unfold expiredLab
      rw [if_neg (by simp [hstate])]

theorem nodup_attempts : ((attempts service now s).1.map fun attempt => attempt.1.id).Nodup := by
  have hmap : ((attempts service now s).1.map fun attempt => attempt.1.id) =
      ((attempts service now s).1.map Prod.fst).map LabRow.id := by simp
  rw [hmap, map_fst_attempts]
  split
  · exact Table.nodup_select _ _ _
  · exact List.nodup_nil

/-- What is tried again was destroying. -/
theorem destroying_of_mem_attempts {attempt : LabRow × DestroyOutcome}
    (h : attempt ∈ (attempts service now s).1) :
    s.store.labs.get? attempt.1.id = some attempt.1 ∧ attempt.1.state = .destroying := by
  have hmem : attempt.1 ∈ (attempts service now s).1.map Prod.fst := List.mem_map_of_mem h
  rw [map_fst_attempts] at hmem
  split at hmem
  · exact mem_destroyingLabs.mp hmem
  · cases hmem

/-- A lab that is tried again is as the attempt leaves it. -/
theorem get?_retried_of_mem {attempt : LabRow × DestroyOutcome} (h : attempt ∈ (attempts service now s).1) :
    (retried service now s).labs.get? attempt.1.id = some
    (settledLab service.maxDestroyAttempts attempt) := by
  have hput := Table.get?_foldl_put_of_mem (t := (swept now s.store).labs)
    (f := settledLab service.maxDestroyAttempts) (by simpa using nodup_attempts) h
  rwa [settledLab_id] at hput

theorem get?_retried_of_notMem {id : String}
    (h : id ∉ (attempts service now s).1.map fun attempt => attempt.1.id) :
    (retried service now s).labs.get? id =
      (s.store.labs.get? id).map (expiredLab (staleApprovals now s.store)) := by
  rw [← swept_labs]
  exact Table.get?_foldl_put_of_notMem (by simpa using h)

/-- The pass keeps every lab, and adds none. -/
theorem isSome_get?_retried (service : Reconciler β) (now : DateTime) (id : String) :
    ((retried service now s).labs.get? id).isSome = (s.store.labs.get? id).isSome := by
  by_cases h : id ∈ (attempts service now s).1.map fun attempt => attempt.1.id
  · obtain ⟨attempt, hattempt, rfl⟩ := List.mem_map.mp h
    rw [get?_retried_of_mem hattempt, (destroying_of_mem_attempts hattempt).1]
    rfl
  · rw [get?_retried_of_notMem h, Option.isSome_map]

/-! ### Losses -/

theorem mem_labIds {st : Store} {id : String} : id ∈ labIds st ↔ (st.labs.get? id).isSome = true := by
  unfold labIds
  constructor
  · intro h
    obtain ⟨lab, hlab, rfl⟩ := List.mem_map.mp h
    rw [Table.get?_of_mem (Table.mem_select.mp hlab).1]
    rfl
  · intro h
    obtain ⟨lab, hlab⟩ := Option.isSome_iff_exists.mp h
    exact List.mem_map.mpr ⟨lab, Table.mem_select.mpr ⟨Table.mem_of_get? hlab, rfl⟩, Table.key_of_get? hlab⟩

theorem mem_lostLabs {storageOf : String → Option LabStorageRow} {tree : FileTree β} {labs : Table LabRow.id}
    {ids : List String} {x : LabRow × String} : x ∈ lostLabs storageOf tree labs ids ↔
      x.1.id ∈ ids ∧ labs.get? x.1.id = some x.1 ∧ lossOf storageOf tree x.1 = some x.2 := by
  obtain ⟨lab, reason⟩ := x
  simp only [lostLabs, List.mem_filterMap, Option.bind_eq_some_iff, Option.map_eq_some_iff, Prod.mk.injEq]
  constructor
  · rintro ⟨id, hid, lab', hlab, reason', hloss, rfl, rfl⟩
    obtain rfl := Table.key_of_get? hlab
    exact ⟨hid, hlab, hloss⟩
  · rintro ⟨hid, hlab, hloss⟩
    exact ⟨lab.id, hid, lab, hlab, reason, hloss, rfl, rfl⟩

/-- No lab is found lost twice. -/
theorem nodup_lostLabs {storageOf : String → Option LabStorageRow} {tree : FileTree β}
    {labs : Table LabRow.id} {ids : List String} (hids : ids.Nodup) :
    ((lostLabs storageOf tree labs ids).map fun x => x.1.id).Nodup := by
  induction ids with
  | nil => simp [lostLabs]
  | cons id ids ih =>
    obtain ⟨hid, hids⟩ := List.nodup_cons.mp hids
    have hrest := ih hids
    unfold lostLabs at hrest ⊢
    rw [List.filterMap_cons]
    split
    · exact hrest
    · next x hx =>
      rw [List.map_cons, List.nodup_cons]
      refine ⟨fun hmem => ?_, hrest⟩
      obtain ⟨y, hy, hxy⟩ := List.mem_map.mp hmem
      obtain ⟨hyid, -, -⟩ := mem_lostLabs.mp hy
      obtain ⟨lab, hlab, reason, -, rfl⟩ : ∃ lab, labs.get? id = some lab ∧ ∃ reason,
          lossOf storageOf tree lab = some reason ∧ (lab, reason) = x := by
        simpa [Option.bind_eq_some_iff, Option.map_eq_some_iff] using hx
      exact hid (Table.key_of_get? hlab ▸ hxy ▸ hyid)

theorem nodup_labIds (st : Store) : (labIds st).Nodup := Table.nodup_select _ _ _

/-- **A lab after the last loop**: failed where its storage is lost. -/
theorem get?_labs (id : String) : (pass service now s).store.labs.get? id =
    ((retried service now s).labs.get? id).map fun lab =>
      if (lossOf s.store.labStorage.get? (attempts service now s).2.tree lab).isSome
        then failedLab lab else lab := by
  show ((lost service now s).foldl (fun (t : Table LabRow.id) x => t.put (failedLab x.1))
    (retried service now s).labs).get? id = _
  have hnodup : ((lost service now s).map fun x => (failedLab x.1).id).Nodup :=
    nodup_lostLabs (nodup_labIds s.store)
  by_cases hmem : id ∈ (lost service now s).map fun x => x.1.id
  · obtain ⟨x, hx, rfl⟩ := List.mem_map.mp hmem
    obtain ⟨-, hlab, hloss⟩ := mem_lostLabs.mp hx
    rw [hlab, Option.map_some, hloss]
    exact Table.get?_foldl_put_of_mem (f := fun x : LabRow × String => failedLab x.1) hnodup hx
  · rw [Table.get?_foldl_put_of_notMem (f := fun x : LabRow × String => failedLab x.1) hmem]
    cases hlab : (retried service now s).labs.get? id with
    | none => rfl
    | some lab =>
      rw [Option.map_some]
      cases hloss : lossOf s.store.labStorage.get? (attempts service now s).2.tree lab with
      | none => rfl
      | some reason =>
        obtain rfl := Table.key_of_get? hlab
        have hid : lab.id ∈ labIds s.store := by
          rw [mem_labIds, ← isSome_get?_retried service now lab.id, hlab]
          rfl
        exact absurd (List.mem_map.mpr ⟨(lab, reason), mem_lostLabs.mpr ⟨hid, hlab, hloss⟩, rfl⟩) hmem

end Attempts

/-! ### One pass -/

/-- What a pass may make of the state of a lab, and when. -/
inductive LabChange (service : Reconciler β) (now : DateTime) (s : Session β) (lab : LabRow) :
    LabState → Prop where
  /-- An approval that the pass expires found it waiting. -/
  | expired (pending : lab.state = .pendingApproval)
      (stale : ∃ a ∈ s.store.approvals.rows, expires now a = true ∧ a.resourceType = "lab" ∧
        a.resourceId = lab.id) :
      LabChange service now s lab .failed
  /-- Its destroy was tried and given up. -/
  | givenUp (outcome : DestroyOutcome) (destroying : lab.state = .destroying)
      (tried : (lab, outcome) ∈ (attempts service now s).1)
      (givenUp : isGivenUp service.maxDestroyAttempts (lab, outcome) = true) :
        LabChange service now s lab .failed
  /-- It has no storage row, or its root is not on the disk the destroys left. -/
  | lost (missing : ∀ storage, s.store.labStorage.get? lab.id = some storage →
      (attempts service now s).2.tree.stat storage.rootPath = none) : LabChange service now s lab .failed
  /-- Its destroy was tried and succeeded. -/
  | destroyed (destroying : lab.state = .destroying)
      (tried : (lab, .succeeded) ∈ (attempts service now s).1) :
      LabChange service now s lab .destroyed

theorem missing_of_lossOf {storageOf : String → Option LabStorageRow} {tree : FileTree β}
    {lab : LabRow} {id : String} (hid : lab.id = id) (h : (lossOf storageOf tree lab).isSome = true) :
    ∀ storage, storageOf id = some storage → tree.stat storage.rootPath = none := by
  intro storage hstorage
  subst hid
  unfold lossOf at h
  by_contra hthere
  rw [hstorage] at h
  split at h
  · cases h
  · simp [Option.isSome_iff_ne_none.mpr hthere] at h

/-- A lab that changes its state changes it as `LabChange` says. -/
theorem labChange_of_pass {service : Reconciler β} {now : DateTime} {s : Session β} {lab lab' : LabRow}
    (hlab : s.store.labs.get? lab.id = some lab)
    (hlab' : (pass service now s).store.labs.get? lab.id = some lab') (hchanged : lab'.state ≠ lab.state) :
    LabChange service now s lab lab'.state := by
  rw [get?_labs] at hlab'
  by_cases htried : lab.id ∈ (attempts service now s).1.map fun attempt => attempt.1.id
  · obtain ⟨⟨lab₀, outcome⟩, hattempt, hid⟩ := List.mem_map.mp htried
    obtain ⟨hlab₀, hdestroying⟩ := destroying_of_mem_attempts hattempt
    obtain rfl : lab₀ = lab := by
      dsimp only at hid hlab₀
      rw [hid, hlab] at hlab₀
      exact (Option.some.inj hlab₀).symm
    rw [get?_retried_of_mem hattempt] at hlab'
    obtain rfl := Option.some.inj hlab'
    dsimp only at hdestroying hchanged ⊢
    split at hchanged
    · next hloss =>
      rw [if_pos hloss]
      exact .lost (missing_of_lossOf (settledLab_id _ _) hloss)
    · next hloss =>
      rw [if_neg hloss]
      cases outcome with
      | noStorage => exact .givenUp .noStorage hdestroying hattempt rfl
      | succeeded => exact .destroyed hdestroying hattempt
      | raised e =>
        by_cases hlast : service.maxDestroyAttempts ≤ lab₀.destroyAttempts + 1
        · have hstate : (settledLab service.maxDestroyAttempts (lab₀, .raised e)).state = .failed := by
            simp [settledLab, hlast]
          rw [hstate]
          exact .givenUp (.raised e) hdestroying hattempt (by simp [isGivenUp, hlast])
        · exact absurd (by simp [settledLab, hlast, retriedLab]) hchanged
  · rw [get?_retried_of_notMem htried, hlab] at hlab'
    obtain rfl := Option.some.inj hlab'
    dsimp only at hchanged ⊢
    split at hchanged
    · next hloss =>
      rw [if_pos hloss]
      refine .lost (missing_of_lossOf ?_ hloss)
      unfold expiredLab
      split <;> rfl
    · next hloss =>
      rw [if_neg hloss]
      unfold expiredLab at hchanged ⊢
      split at hchanged
      · next hexpired =>
        rw [if_pos hexpired]
        obtain ⟨a, ha, htype, hid⟩ : ∃ a ∈ staleApprovals now s.store, a.resourceType = "lab" ∧
            a.resourceId = lab.id := by
          simpa [concerns] using hexpired.2
        obtain ⟨hrow, hexpires⟩ := mem_staleApprovals.mp ha
        exact .expired hexpired.1 ⟨a, hrow, hexpires, htype, hid⟩
      · exact absurd rfl hchanged

theorem concerns_staleApprovals {now : DateTime} {st : Store} {resourceType id : String} :
    concerns (staleApprovals now st) resourceType id = true ↔
      ∃ a ∈ st.approvals.rows, expires now a = true ∧ a.resourceType = resourceType ∧ a.resourceId = id := by
  simp [concerns, mem_staleApprovals, and_assoc]

/-- **One pass does exactly its sweep**, on any store, any disk and with any storage destroyer. It never
raises. The approvals that were requested and whose time has come are expired, and no other approval
changes; likewise leases are revoked, runs timed out and exports rejected. Every lab ends destroyed, or
failed, or with a storage row whose root exists; its state changes only as `LabChange` says. No row is added
or removed, and no other table changes. -/
theorem pass_sweeps (service : Reconciler β) (now : DateTime) (s : Session β) :
    ∃ report s', reconcile service now s = .ok report s' ∧
      (∀ id, s'.store.approvals.get? id = (s.store.approvals.get? id).map fun a =>
        if expires now a then
          { a with
            state := .expired, approved := false, decidedBy := some "reconciler", decidedAt :=
              some now.column }
        else a) ∧
      (∀ id, s'.store.secretLeases.get? id = (s.store.secretLeases.get? id).map fun lease =>
        if lease.revokedAt = none ∧ lease.expiresAt.instant ≤ now.instant then
          { lease with revokedAt := some now.column }
        else lease) ∧
      (∀ id, s'.store.runs.get? id = (s.store.runs.get? id).map fun run =>
        if (run.state = .queued ∨ run.state = .starting ∨ run.state = .running) ∧
            isOverdue now run = true then
          { run with state := .timedOut, finishedAt := some now.column }
        else run) ∧
      (∀ id, s'.store.exports.get? id = (s.store.exports.get? id).map fun row =>
        if ∃ a ∈ s.store.approvals.rows,
            expires now a = true ∧ a.resourceType = "export" ∧ a.resourceId = id then
          { row with
            state := .rejected, denialReason := some "approval request expired", approvalRequired := false }
        else row) ∧
      (∀ id, (s'.store.labs.get? id).isSome = (s.store.labs.get? id).isSome) ∧
      (∀ lab' ∈ s'.store.labs.rows, lab'.state = .destroyed ∨ lab'.state = .failed ∨
        ∃ storage, s'.store.labStorage.get? lab'.id = some storage ∧
          (s'.disk.tree.stat storage.rootPath).isSome = true) ∧
      (∀ lab ∈ s.store.labs.rows, ∀ lab', s'.store.labs.get? lab.id = some lab' → lab'.state ≠ lab.state →
        LabChange service now.normalize s lab lab'.state) ∧
      s'.store.labStorage = s.store.labStorage ∧ s'.store.snapshots = s.store.snapshots ∧
      s'.store.schedulerJobs = s.store.schedulerJobs := by
  refine ⟨_, _, reconcile_eq service now s, get?_approvals service now.normalize s,
    fun id => ?_, fun id => ?_,
    fun id => ?_, fun id => ?_, fun lab' hlab' => ?_, fun lab hlab lab' hlab' hchanged => ?_, rfl, rfl, rfl⟩
  · rw [get?_secretLeases]
    apply Option.map_congr
    intro lease _
    have hiff : (lease.revokedAt.isNone && isExpired now.normalize lease) = true ↔
        lease.revokedAt = none ∧ lease.expiresAt.instant ≤ now.instant := by
      simp only [Bool.and_eq_true, Option.isNone_iff_eq_none, isExpired, decide_eq_true_eq]
      rfl
    simp only [hiff]
    rfl
  · rw [get?_runs]
    apply Option.map_congr
    intro run _
    have hiff : (isActive run && isOverdue now.normalize run) = true ↔
        (run.state = .queued ∨ run.state = .starting ∨ run.state = .running) ∧ isOverdue now run = true := by
      unfold isActive isOverdue
      cases run.timeoutAt with
      | none => simp
      | some timeoutAt =>
        simp only [Option.isSome_some, Bool.and_true, Bool.and_eq_true, Bool.or_eq_true,
          decide_eq_true_eq, or_assoc]
        rfl
    simp only [hiff]
    rfl
  · refine (get?_foldl_rejectExpired (staleApprovals now.normalize s.store) s.store.exports id).trans ?_
    simp only [concerns_staleApprovals]
    rfl
  · rw [get?_labs, Option.isSome_map, isSome_get?_retried]
  · have hget := Table.get?_of_mem hlab'
    rw [get?_labs] at hget
    obtain ⟨lab, hlab, rfl⟩ := Option.map_eq_some_iff.mp hget
    split
    · exact .inr (.inl rfl)
    · next hloss =>
      unfold lossOf at hloss
      split at hloss
      · next hdestroyed => exact .inl hdestroyed
      · cases hstorage : s.store.labStorage.get? lab.id with
        | none => simp [hstorage] at hloss
        | some storage =>
          have hroot : ((attempts service now.normalize s).2.tree.stat storage.rootPath).isSome = true := by
            simpa [hstorage, Option.ne_none_iff_isSome] using hloss
          exact .inr (.inr ⟨storage, hstorage, hroot⟩)
  · exact labChange_of_pass (Table.get?_of_mem hlab) hlab' hchanged

/-! ### A second pass -/

section Twice

variable {service : Reconciler β} {now : DateTime} {s : Session β}

/-- After a pass no approval is left to expire. -/
theorem staleApprovals_pass : staleApprovals now (pass service now s).store = [] := by
  apply List.eq_nil_iff_forall_not_mem.mpr
  intro a ha
  obtain ⟨hrow, hexpires⟩ := mem_staleApprovals.mp ha
  have hget := Table.get?_of_mem hrow
  rw [get?_approvals] at hget
  obtain ⟨a₀, -, rfl⟩ := Option.map_eq_some_iff.mp hget
  by_cases h : expires now a₀ = true
  · rw [if_pos h] at hexpires
    simp [expires, expiredApproval] at hexpires
  · rw [if_neg h] at hexpires
    exact h hexpires

/-- Nor a lease to revoke. -/
theorem expiredLeases_pass : expiredLeases now (pass service now s).store = [] := by
  apply List.eq_nil_iff_forall_not_mem.mpr
  intro lease hlease
  obtain ⟨hselected, hexpired⟩ := List.mem_filter.mp hlease
  obtain ⟨hrow, hunrevoked⟩ := Table.mem_select.mp hselected
  have hget := Table.get?_of_mem hrow
  rw [get?_secretLeases] at hget
  obtain ⟨lease₀, -, rfl⟩ := Option.map_eq_some_iff.mp hget
  by_cases h : (lease₀.revokedAt.isNone && isExpired now lease₀) = true
  · rw [if_pos h] at hunrevoked
    simp [revokedLease] at hunrevoked
  · rw [if_neg h] at hunrevoked hexpired
    exact h (by rw [hunrevoked, hexpired]; rfl)

/-- Nor a run to time out. -/
theorem overdueRuns_pass : overdueRuns now (pass service now s).store = [] := by
  apply List.eq_nil_iff_forall_not_mem.mpr
  intro run hrun
  obtain ⟨hselected, hover⟩ := List.mem_filter.mp hrun
  obtain ⟨hrow, hactive⟩ := Table.mem_select.mp hselected
  have hget := Table.get?_of_mem hrow
  rw [get?_runs] at hget
  obtain ⟨run₀, -, rfl⟩ := Option.map_eq_some_iff.mp hget
  by_cases h : (isActive run₀ && isOverdue now run₀) = true
  · rw [if_pos h] at hactive
    simp [isActive, timedOutRun] at hactive
  · rw [if_neg h] at hactive hover
    exact h (by rw [hactive, hover]; rfl)

/-- A store with nothing to sweep stays as it is. -/
theorem swept_pass : swept now (pass service now s).store = (pass service now s).store := by
  unfold swept
  rw [staleApprovals_pass, expiredLeases_pass, overdueRuns_pass]
  simp [withExpired, withRevoked, withTimedOut]

/-- The labs without their storage after a pass are failed. -/
theorem failed_of_lost (hdestroyer : service.storageDestroyer = none) {lab : LabRow}
    (hlab : (pass service now s).store.labs.get? lab.id = some lab)
    (hloss : (lossOf s.store.labStorage.get? s.disk.tree lab).isSome = true) : failedLab lab = lab := by
  have hdisk : (attempts service now s).2 = s.disk := by
    unfold attempts
    rw [hdestroyer]
  rw [get?_labs, hdisk] at hlab
  obtain ⟨lab₀, -, h⟩ := Option.map_eq_some_iff.mp hlab
  by_cases hloss₀ : (lossOf s.store.labStorage.get? s.disk.tree lab₀).isSome = true
  · rw [if_pos hloss₀] at h
    rw [← h]
    rfl
  · rw [if_neg hloss₀] at h
    exact absurd (h ▸ hloss) hloss₀

/-- The labs of a store that are without their storage. -/
def bereft (st : Store) (tree : FileTree β) : List (LabRow × String) :=
  lostLabs st.labStorage.get? tree st.labs (labIds st)

theorem mem_bereft {st : Store} {tree : FileTree β} {lab : LabRow} {reason : String} :
    (lab, reason) ∈ bereft st tree ↔
      lab ∈ st.labs.rows ∧ lossOf st.labStorage.get? tree lab = some reason := by
  unfold bereft
  rw [mem_lostLabs, mem_labIds, Table.mem_rows_iff]
  constructor
  · exact fun h => ⟨h.2.1, h.2.2⟩
  · exact fun h => ⟨by rw [h.1]; rfl, h.1, h.2⟩

theorem bereft_eq_nil_iff {st : Store} {tree : FileTree β} :
    bereft st tree = [] ↔ ∀ lab ∈ st.labs.rows, lossOf st.labStorage.get? tree lab = none := by
  rw [List.eq_nil_iff_forall_not_mem]
  constructor
  · intro h lab hlab
    cases hloss : lossOf st.labStorage.get? tree lab with
    | none => rfl
    | some reason => exact absurd (mem_bereft.mpr ⟨hlab, hloss⟩) (h (lab, reason))
  · rintro h ⟨lab, reason⟩ hx
    obtain ⟨hrow, hloss⟩ := mem_bereft.mp hx
    rw [h lab hrow] at hloss
    cases hloss

theorem attempts_of_none (hdestroyer : service.storageDestroyer = none) (t : Session β) :
    attempts service now t = ([], t.disk) := by
  unfold attempts
  rw [hdestroyer]

/-- A second pass has nothing to retry. -/
theorem retried_pass (hdestroyer : service.storageDestroyer = none) :
    retried service now (pass service now s) = (pass service now s).store := by
  unfold retried
  rw [swept_pass, attempts_of_none hdestroyer]
  simp [withDestroys]

theorem lost_pass (hdestroyer : service.storageDestroyer = none) :
    lost service now (pass service now s) =
      bereft (pass service now s).store (pass service now s).disk.tree := by
  unfold lost
  rw [retried_pass hdestroyer, attempts_of_none hdestroyer]
  rfl

/-- The labs it fails are failed. -/
theorem checked_pass (hdestroyer : service.storageDestroyer = none) :
    checked service now (pass service now s) = { (pass service now s).store with
      events := (pass service now s).store.events ++
        (bereft (pass service now s).store (pass service now s).disk.tree).map lossEvent } := by
  have hlabs : (bereft (pass service now s).store (pass service now s).disk.tree).foldl
      (fun t x => t.put (failedLab x.1)) (pass service now s).store.labs =
        (pass service now s).store.labs := by
    refine Table.foldl_put_eq_self (f := fun x : LabRow × String => failedLab x.1) fun x hx => ?_
    obtain ⟨hrow, hloss⟩ := mem_bereft.mp hx
    have hget := Table.get?_of_mem hrow
    have hdisk : (pass service now s).disk = s.disk := congrArg Prod.snd (attempts_of_none hdestroyer s)
    rw [hdisk] at hloss
    have hsame : failedLab x.1 = x.1 :=
      failed_of_lost hdestroyer hget (Option.isSome_iff_exists.mpr ⟨x.2, hloss⟩)
    rw [hsame]
    exact hget
  unfold checked withLost
  rw [retried_pass hdestroyer, lost_pass hdestroyer, hlabs]

/-- Without a destroyer and an inventory a pass leaves the disk. -/
theorem pass_of_none (hdestroyer : service.storageDestroyer = none)
    (hinventory : service.runtimeInventory = none) (t : Session β) :
    pass service now t = { t with store := checked service now t } := by
  unfold pass
  rw [attempts_of_none hdestroyer]
  simp [inspected, hinventory]

theorem pass_pass (hdestroyer : service.storageDestroyer = none)
    (hinventory : service.runtimeInventory = none) :
    pass service now (pass service now s) = { pass service now s with
      store := { (pass service now s).store with
        events := (pass service now s).store.events ++
          (bereft (pass service now s).store (pass service now s).disk.tree).map lossEvent } } := by
  rw [pass_of_none hdestroyer hinventory (pass service now s), checked_pass hdestroyer]

theorem passReport_pass (hdestroyer : service.storageDestroyer = none)
    (hinventory : service.runtimeInventory = none) :
    passReport service now (pass service now s) =
      { failedLabIds := ((bereft (pass service now s).store (pass service now s).disk.tree).map
          fun x => x.1.id).insertionSort (· ≤ ·) } := by
  unfold passReport
  rw [lost_pass hdestroyer, staleApprovals_pass, expiredLeases_pass, overdueRuns_pass,
    attempts_of_none hdestroyer]
  simp [sortReport, inspected, hinventory]

end Twice

/-- **A second pass** directly after a first, at the same time, with neither a runtime nor a storage
destroyer. It changes no row, and appends and reports exactly the labs that the first left without their
storage, each once; so it does nothing at all exactly when there is none. -/
theorem pass_twice (maxDestroyAttempts : ℕ) (now : DateTime) (s : Session β) :
    ∃ (report₁ : ReconciliationReport) (s₁ : Session β) (report₂ : ReconciliationReport) (s₂ : Session β)
        (found : List (LabRow × String)),
      reconcile { maxDestroyAttempts := maxDestroyAttempts } now s = .ok report₁ s₁ ∧
      reconcile { maxDestroyAttempts := maxDestroyAttempts } now s₁ = .ok report₂ s₂ ∧
      s₂ = { s₁ with store := { s₁.store with events := s₁.store.events ++ found.map lossEvent } } ∧
      report₂ = { failedLabIds := (found.map fun x => x.1.id).insertionSort (· ≤ ·) } ∧
      (found.map fun x => x.1.id).Nodup ∧
      (∀ lab reason, (lab, reason) ∈ found ↔ lab ∈ s₁.store.labs.rows ∧
        lossOf s₁.store.labStorage.get? s₁.disk.tree lab = some reason) ∧
      (s₂ = s₁ ∧ report₂ = {} ↔ ∀ lab ∈ s₁.store.labs.rows,
        lossOf s₁.store.labStorage.get? s₁.disk.tree lab = none) := by
  set service : Reconciler β := { maxDestroyAttempts := maxDestroyAttempts }
  set s₁ := pass service now.normalize s
  set found := bereft s₁.store s₁.disk.tree
  have hstore : pass service now.normalize s₁ =
      { s₁ with store := { s₁.store with events := s₁.store.events ++ found.map lossEvent } } :=
    pass_pass rfl rfl
  have hreport : passReport service now.normalize s₁ =
      { failedLabIds := (found.map fun x => x.1.id).insertionSort (· ≤ ·) } :=
    passReport_pass rfl rfl
  refine ⟨_, s₁, _, _, found, reconcile_eq service now s, reconcile_eq service now s₁, hstore, hreport,
    nodup_lostLabs (nodup_labIds _), fun _ _ => mem_bereft, ?_⟩
  rw [hstore, hreport, ← bereft_eq_nil_iff]
  constructor
  · rintro ⟨-, h⟩
    have hids := congrArg ReconciliationReport.failedLabIds h
    have hperm := (found.map fun x => x.1.id).perm_insertionSort (· ≤ ·)
    dsimp only at hids
    rw [hids] at hperm
    exact List.eq_nil_of_length_eq_zero (by simpa using hperm.length_eq.symm)
  · intro h
    have hnil : found = [] := h
    simp [hnil]

/-- A store with a lab that has no storage row. -/
def strayLab : Session Unit :=
  ⟨{ Store.empty with labs := (∅ : Table LabRow.id).put {
      id := "a", profileName := "safe-dev", state := .approved, runtimeClass :=
        .container, createdAt := .utc 0 } },
    ⟨∅, []⟩, 0⟩

/-- **Not idempotent**: a second pass reports the lab that the first failed, and appends its event again. -/
theorem lost_lab_reported_again :
    ∃ report₁ s₁ report₂ s₂, reconcile {} (.utc 1) strayLab = .ok report₁ s₁ ∧
      reconcile {} (.utc 1) s₁ = .ok report₂ s₂ ∧ report₂.failedLabIds = ["a"] ∧
      s₂.store.events.length = s₁.store.events.length + 1 :=
  ⟨_, _, _, _, reconcile_eq {} (.utc 1) strayLab,
    reconcile_eq {} (.utc 1) _, by decide +kernel, by decide +kernel⟩

end ReconciliationService

end LabOS
