import LabOS.Api.Errors
import LabOS.Library.Raising
import LabOS.System.Jobs
import LabOS.System.Labs
import LabOS.System.Pass
import LabOS.System.References
import LabOS.System.Regions
import LabOS.System.Symbolic

/-!
# Refusals

What a request is refused with is a question about the rows: `refusal` looks up what the request names and
makes the checks in their order. In a reachable state the handlers raise that, and beyond it only what comes
from the disk or the database. So the checks that guard against a broken database never strike: no lab lacks
its storage row or a known profile, no persistence mode is unknown, no identifier is taken twice, and
no path leaves the managed root.

## What is proved

* `refused_exactly` — **a request is refused as the rows say**, with an error response, and otherwise raises
  only what comes from the disk or the database.
-/

namespace LabOS

open Exceptional FileOps FileTree

variable {β : Type} [Content β] {env : Environment β}

/-! ### What the handlers rely on -/

/-- Every profile is filed under its own name. -/
def Filed (profiles : Profiles) : Prop :=
  ∀ name profile, PolicyEngine.profile? profiles name = some profile → profile.name = name

/-- The rows are as the handlers need them, beside what `Sound` and `References` say. -/
structure Provided (env : Environment β) (m : ℕ) (st : Store) : Prop where
  approvals : ∀ id a, st.approvals.get? id = some a → Taken env m id
  jobs : ∀ id job, st.schedulerJobs.get? id = some job → Taken env m id
  profiles : ∀ id lab, st.labs.get? id = some lab →
    ∃ profile, PolicyEngine.profile? env.profiles lab.profileName = some profile
  modes : ∀ id storage, st.labStorage.get? id = some storage →
    ∃ allocation, storageAllocationFromRow storage = .ok allocation

theorem provided_empty (m : ℕ) : Provided env m Store.empty := by
  constructor <;> (intro id row h; cases h)

/-- What is new is as the handlers need it. -/
structure AddsProvided (env : Environment β) (m m' : ℕ) (st st' : Store) : Prop where
  approvals : ∀ id a, st'.approvals.get? id = some a → st.approvals.get? id = none → Taken env m' id
  modes : ∀ id storage, st'.labStorage.get? id = some storage → st.labStorage.get? id = some storage ∨
    ∃ allocation, storageAllocationFromRow storage = .ok allocation

omit [Content β] in
theorem storageAllocationFromRow_new (allocation : StorageAllocation) :
    ∃ allocation', storageAllocationFromRow (App.newLabStorage allocation) = .ok allocation' := by
  unfold storageAllocationFromRow App.newLabStorage
  cases allocation.persistenceMode <;> exact ⟨_, rfl⟩

section Handlers

variable {now : ℤ} {s s' : Session β}

/-- An approval that is asked for has an identifier that is taken for it. -/
theorem taken_of_recordApprovalRequest {demanded : Bool} {labId labId' runId : Option String}
    {resourceType resourceId action reason requestedBy : String} {u : Unit}
    (h : whenever demanded (do
      let approval ← App.recordApprovalRequest env now labId resourceType resourceId action reason requestedBy
      recordEvent (App.approvalRequested approval labId' runId)) s = .ok u s') :
    s'.store.labStorage = s.store.labStorage ∧ s.minted ≤ s'.minted ∧
      ∀ id a, s'.store.approvals.get? id = some a → s.store.approvals.get? id = none →
        Taken env s'.minted id := by
  unfold App.recordApprovalRequest at h
  rcases whenever_eq_ok.mp h with ⟨-, h⟩ | ⟨-, rfl⟩
  · simp [bind_eq_ok] at h
    obtain ⟨-, rfl⟩ := h
    refine ⟨rfl, Nat.le_succ _, fun id a ha hnone => ?_⟩
    rcases Table.eq_or_of_get?_put ha with ⟨rfl, rfl⟩ | ⟨-, ha⟩
    · exact ⟨s.minted, Nat.zero_le _, Nat.lt_succ_self _, rfl⟩
    · rw [hnone] at ha
      cases ha
  · refine ⟨rfl, le_rfl, fun id a ha hnone => ?_⟩
    rw [hnone] at ha
    cases ha

theorem addsProvided_of_createLabRecord {profileName : String} {requester : RequesterType} {lab : LabRow}
    (h : App.createLabRecord env now profileName requester s = .ok lab s') :
    AddsProvided env s.minted s'.minted s.store s'.store := by
  simp [App.createLabRecord, bind_eq_ok] at h
  obtain ⟨decision, -, allocation, d, -, -, -, _, s₁, hasks, rfl, rfl⟩ := h
  obtain ⟨hstorage, -, htaken⟩ := taken_of_recordApprovalRequest hasks
  refine ⟨htaken, fun id storage hnew => ?_⟩
  have hput : s₁.store.labStorage.get? id = some storage := hnew
  rw [hstorage] at hput
  rcases Table.eq_or_of_get?_put hput with ⟨-, rfl⟩ | ⟨-, hold⟩
  · exact .inr (storageAllocationFromRow_new _)
  · exact .inl hold

/-- Rows that are as they were. -/
theorem AddsProvided.same {m m' : ℕ} {st st' : Store} (happrovals : st'.approvals = st.approvals)
    (hstorage : st'.labStorage = st.labStorage) : AddsProvided env m m' st st' := by
  constructor
  · intro id a ha hnone
    rw [happrovals, hnone] at ha
    cases ha
  · intro id storage h
    exact .inl (hstorage ▸ h)

theorem addsProvided_of_dispatchNextSchedulerJob {row : SchedulerJobRow}
    (h : App.dispatchNextSchedulerJob env now s = .ok row s') :
    AddsProvided env s.minted s'.minted s.store s'.store := by
  rcases made_of_dispatchNextSchedulerJob h with
    ⟨_, _, _, _, profileName, lab, s₁, hcreate, hstore, hminted⟩ | ⟨happrovals, -, hstorage⟩
  · obtain ⟨happrovals, hmodes⟩ := addsProvided_of_createLabRecord hcreate
    rw [hstore, hminted]
    exact ⟨happrovals, hmodes⟩
  · exact .same happrovals hstorage

theorem addsProvided_of_createExport {labId sourcePath : String} {runId : Option String}
    {requester : RequesterType} {row : ExportRow}
    (h : App.createExport env now labId sourcePath runId requester s = .ok row s') :
    AddsProvided env s.minted s'.minted s.store s'.store := by
  simp [App.createExport, adaptExcept_eq_ok, bind_eq_ok] at h
  obtain ⟨lab, -, storage, -, _, _, hrun, staged, d, -, -, ⟨_, happroval⟩, rfl⟩ := h
  obtain rfl := checkRun_eq_ok hrun
  obtain ⟨hstorage, -, htaken⟩ := taken_of_recordApprovalRequest happroval
  refine ⟨htaken, fun id storage h => ?_⟩
  rw [hstorage] at h
  exact .inl h

/-- Only those add an approval or a storage row. -/
theorem addsProvided_of_effect {r : Request β} {m m' : ℕ} {st st' : Store} (h : Effect env now r m m' st st')
    (hr : mayAsk r = false) : AddsProvided env m m' st st' := by
  constructor
  · intro id a ha hnone
    suffices hold : ∃ b, st.approvals.get? id = some b by
      obtain ⟨b, hb⟩ := hold
      rw [hnone] at hb
      cases hb
    cases h with
    | labCreated | jobMadeLab | exportStaged => cases hr
    | labDecided decides | exportDecided decides | otherDecided decides =>
      have hid := Table.key_of_get? decides.row
      exact Table.exists_of_get?_put ha decides.row hid
    | reconciled sweeps => exact (addsNone_of_sweeps sweeps).approvals ha
    | _ => exact ⟨a, ha⟩
  · intro id storage hstorage
    suffices hsame : st'.labStorage = st.labStorage from .inl (hsame ▸ hstorage)
    cases h with
    | labCreated | jobMadeLab => cases hr
    | reconciled sweeps => exact (addsNone_of_sweeps sweeps).others.1
    | _ => rfl

/-- **What a request adds is as the handlers need it.** -/
theorem addsProvided_of_answer (env : Environment β) (s : State β) (r : Request β) (now : ℤ)
    (fates : List Fate) :
    AddsProvided env s.minted (endState (answer env s r now fates)).minted s.store
      (endState (answer env s r now fates)).store := by
  have hsame : AddsProvided env s.minted (endState (answer env s r now fates)).minted s.store s.store :=
    .same rfl rfl
  have heffect := effect_of_answer env s r now fates
  by_cases hr : mayAsk r = true
  · -- the request runs its handler, and adds what that adds where it returns
    have hhandler : ∀ result s₁, handler env now r (s.session fates) = .ok result s₁ →
        AddsProvided env s.minted s₁.minted s.store s₁.store := by
      intro result s₁ h
      cases r with
      | createLab =>
        obtain ⟨row, h, -⟩ := map_eq_ok.mp h
        exact addsProvided_of_createLabRecord h
      | dispatchNextSchedulerJob =>
        obtain ⟨row, h, -⟩ := map_eq_ok.mp h
        exact addsProvided_of_dispatchNextSchedulerJob h
      | createExport =>
        obtain ⟨row, h, -⟩ := map_eq_ok.mp h
        exact addsProvided_of_createExport h
      | _ => cases hr
    unfold answer at hsame ⊢
    rw [respond_eq] at hsame ⊢
    split
    · rw [endState_answered]
      rcases store_of_withSession (handler env now r) (s.session fates) with hstore |
        ⟨a, s₁, h, hstore, hminted⟩
      · rw [hstore]
        exact .same rfl rfl
      · rw [hstore, hminted]
        exact hhandler a s₁ h
    · exact .same rfl rfl
  · exact addsProvided_of_effect heffect (by simpa using hr)

/-- **Answering a request keeps what the handlers rely on.** -/
theorem provided_of_effect {r : Request β} {m m' : ℕ} {st st' : Store} (hfiled : Filed env.profiles)
    (h : Effect env now r m m' st st') (hnew : AddsProvided env m m' st st') (hle : m ≤ m')
    (hst : Provided env m st) : Provided env m' st' where
  approvals id a ha := by
    cases hold : st.approvals.get? id with
    | none => exact hnew.approvals id a ha hold
    | some b => exact (hst.approvals id b hold).mono hle
  jobs id job hjob := by
    cases h with
    | jobQueued new =>
      rcases Table.eq_or_of_get?_put hjob with ⟨rfl, -⟩ | ⟨-, hold⟩
      · exact new.minted.taken
      · exact (hst.jobs id _ hold).mono hle
    | jobFailed next | jobMadeLab next | jobMadeRun next =>
      rcases Table.eq_or_of_get?_put hjob with ⟨rfl, -⟩ | ⟨-, hold⟩
      · rw [SchedulerService.settled_id]
        exact (hst.jobs _ _ (nextJob_eq_some next).1).mono hle
      · exact (hst.jobs id _ hold).mono hle
    | reconciled sweeps =>
      rw [(addsNone_of_sweeps sweeps).others.2.2] at hjob
      exact (hst.jobs id job hjob).mono hle
    | _ => exact (hst.jobs id job hjob).mono hle
  profiles id lab' hlab' := by
    rcases lab_of_effect h hlab' with ⟨lab, hlab⟩ | ⟨profileName, requester, storage, -, new⟩
    · obtain ⟨lab₁, hlab₁, hmove⟩ := labMove_of_effect h hlab
      obtain rfl := Option.some.inj (hlab₁.symm.trans hlab')
      have hname : lab₁.profileName = lab.profileName := by
        cases hmove with
        | swept _ swept => exact swept.profile
        | _ => rfl
      rw [hname]
      exact hst.profiles id lab hlab
    · obtain ⟨profile, hprofile, hname, -⟩ := new.profile
      refine ⟨profile, ?_⟩
      rw [hname, hfiled profileName profile hprofile]
      exact hprofile
  modes id storage hstorage := by
    rcases hnew.modes id storage hstorage with hold | hmode
    · exact hst.modes id storage hold
    · exact hmode

end Handlers

/-- What the handlers rely on in a reachable state. -/
structure Working (env : Environment β) (s : State β) : Prop where
  healthy : Healthy env anyContent s
  references : References s.store
  provided : Provided env s.minted s.store

theorem working_of_run (hfiled : Filed env.profiles) {s₀ : State β} (h₀ : Initial env s₀)
    (actions : List (Action β)) :
    Working env (runFrom env s₀ actions) := by
  refine ⟨healthy_of_actions h₀ actions, references_of_run h₀ actions, ?_⟩
  have hkept : ∀ (s : State β) (a : Action β), SoundState env s ∧ Provided env s.minted s.store →
      SoundState env (step env s a) ∧ Provided env (step env s a).minted (step env s a).store := by
    rintro s a ⟨hsound, hprovided⟩
    refine ⟨sound_of_step hsound a, ?_⟩
    cases a with
    | request r now fates =>
      exact provided_of_effect hfiled (effect_of_answer env s r now fates)
        (addsProvided_of_answer env s r now fates)
        (minted_le_answer hsound.quiet r now fates) hprovided
    | guest labId entries => exact hprovided
  refine (Runs.after_keeps (I := fun s => SoundState env s ∧ Provided env s.minted s.store) hkept ⟨?_, ?_⟩).2
  · exact sound_of_run h₀ []
  · rw [h₀.store]
    exact provided_empty _

/-! ### What the rows refuse -/

namespace App

/-- What is refused of the run a request names. -/
def refuseRun (st : Store) (runId : Option String) (lab : LabRow) (mismatch : Exc) (checks : Option Exc) :
    Option Exc :=
  match runId with
  | none => checks
  | some runId => looking (st.runs.get? runId) (.resourceNotFound "run") fun run =>
    if run.labId ≠ lab.id then some mismatch else checks

/-- What is refused of a decision. -/
def refuseDecision (now : ℤ) (st : Store) (decision : Decision) (approvalId : String)
    (comment : Option String) :
    Option Exc :=
  looking (st.approvals.get? approvalId) (.resourceNotFound "approval") fun row =>
    if row.state ≠ .requested then some (.conflict "approval_not_pending" "approval")
    else if isExpired now row = true then some (.conflict "approval_request_expired" "approval")
    else if decision = .rejected ∧ comment.all Strings.isBlank = true
      then some (.conflict "approval_comment_required" "approval")
    else none

/-- **What a request is refused with**, as the rows are. -/
def refusal (env : Environment β) (now : ℤ) (st : Store) : Request β → Option Exc
  | .createLab profileName _ =>
    looking (PolicyEngine.profile? env.profiles profileName) (.resourceNotFound "profile") fun _ => none
  | .destroyLab labId => looking (st.labs.get? labId) (.resourceNotFound "lab") fun lab =>
    if lab.state = .destroyed then some (.conflict "lab_already_destroyed" "lab") else none
  | .createSecretLease labId secretName _ ttlMinutes =>
    if ¬ (1 ≤ ttlMinutes ∧ ttlMinutes ≤ 24 * 60) then some .requestValidation
    else looking (st.labs.get? labId) (.resourceNotFound "lab") fun lab =>
      if (PolicyEngine.profile? env.profiles lab.profileName).all
          (fun profile => decide (secretName ∉ profile.allowedSecretNames)) = true
        then some (.http 400 "secret_name is not allowed by profile")
      else looking (env.secrets secretName)
        (.http 400 s!"secret value not found for {secretName}") fun _ => none
  | .revokeSecretLease leaseId _ _ =>
    looking (st.secretLeases.get? leaseId) (.resourceNotFound "secret_lease") fun lease =>
      if lease.revokedAt.isSome = true
        then some (.conflict "secret lease already revoked" "secret_lease") else none
  | .createRun labId _ _ => looking (st.labs.get? labId) (.resourceNotFound "lab") fun _ => none
  | .enqueueSchedulerJob request =>
    if request.accepted = false then some .requestValidation
    else if env.maxPendingJobsPerRequester ≤ SchedulerService.pendingCount st request.requesterId
      then some (.conflict "scheduler_pending_job_quota_exceeded" "scheduler_job")
    else none
  | .dispatchNextSchedulerJob =>
    looking (SchedulerService.nextJob st now) (.resourceNotFound "scheduler_job") fun _ => none
  | .approveRequest approvalId _ comment => refuseDecision now st .approved approvalId comment
  | .denyRequest approvalId _ comment => refuseDecision now st .rejected approvalId comment
  | .createSnapshot labId runId _ => looking (st.labs.get? labId) (.resourceNotFound "lab") fun lab =>
    refuseRun st runId lab (.conflict "snapshot_run_mismatch" "snapshot")
      (if lab.runtimeClass ≠ .container
        then some (.conflict "unsupported_snapshot_runtime" "snapshot") else none)
  | .restoreSnapshot snapshotId labId _ =>
    looking (st.snapshots.get? snapshotId) (.resourceNotFound "snapshot") fun _ =>
      looking (st.labs.get? labId) (.resourceNotFound "lab") fun lab =>
        if lab.runtimeClass ≠ .container
          then some (.conflict "unsupported_snapshot_runtime" "snapshot") else none
  | .createExport labId sourcePath runId _ =>
      looking (st.labs.get? labId) (.resourceNotFound "lab") fun lab =>
    refuseRun st runId lab (.conflict "export_run_mismatch" "export")
      (if managedExportPrefixes.any (fun pre => pre.toList.isPrefixOf sourcePath.toList) = false
          then some (.conflict "exports must originate from managed LabOS paths" "export")
        else looking ((PurePath.parse sourcePath).relativeTo ExportGate.guestExportRoot)
          (.conflict "exports must use a managed guest export path" "export") fun _ => none)
  | .releaseExport exportId => looking (st.exports.get? exportId) (.resourceNotFound "export") fun row =>
    if row.state = .rejected then some (.conflict "export_already_rejected" "export")
    else if row.state = .released then some (.conflict "export_already_released" "export")
    else if row.approvalRequired = true then some (.conflict "export_approval_required" "export")
    else none
  | .denyExport exportId reason => looking (st.exports.get? exportId) (.resourceNotFound "export") fun row =>
    if row.state = .released then some (.conflict "export_already_released" "export")
    else if row.state = .rejected then some (.conflict "export_already_rejected" "export")
    else if Strings.isBlank reason = true then some (.conflict "export_denial_reason_required" "export")
    else none
  | .reconcile _ _ _ _ => none

/-- What a restore finds out from the manifest. -/
def manifestConflicts : List String := ["snapshot manifest is not valid JSON", "snapshot manifest is missing"]

/-- What a restore finds out from the archive. -/
def archiveConflicts : List String :=
  ["snapshot archive is missing", "snapshot archive contains an unsafe path"]

/-- Is it found out before the rows have been checked? A restore reads the manifest of its snapshot before it
looks at the runtime of its target. -/
def foundFirst : Request β → Exc → Bool
  | .restoreSnapshot _ _ _, .file _ | .restoreSnapshot _ _ _, .manifest => true
  | .restoreSnapshot _ _ _, .conflict detail resource =>
    resource = some "snapshot" && manifestConflicts.contains detail
  | _, _ => false

/-- Does it come from the disk or the database? -/
def fromOutside : Request β → Exc → Bool
  | _, .database => true
  | .createLab _ _, .file _ | .destroyLab _, .file _ | .createSnapshot _ _ _, .file _
  | .restoreSnapshot _ _ _, .file _ | .createExport _ _ _ _, .file _ | .releaseExport _, .file _ => true
  | .restoreSnapshot _ _ _, .manifest => true
  | .restoreSnapshot _ _ _, .conflict detail resource =>
    resource = some "snapshot" && (manifestConflicts ++ archiveConflicts).contains detail
  | .createExport _ _ _ _, .conflict detail resource =>
    resource = some "export" && detail = "export path escapes managed exports root"
  | .createExport _ _ _ _, .resourceNotFound resource | .releaseExport _, .resourceNotFound resource =>
    resource = "export_source"
  | _, _ => false

/-- Whatever is refused has an error response, with a status of the application's own. -/
def Answered (o : Option Exc) : Prop :=
  ∀ e, o = some e → ∃ status body, errorResponse e = some (status, body) ∧ status ∈ [400, 404, 409, 422]

namespace Answered

theorem none : Answered none := fun _ h => by cases h

theorem resourceNotFound (resource : String) : Answered (some (.resourceNotFound resource)) := by
  rintro _ ⟨⟩
  exact ⟨404, _, rfl, by decide⟩

theorem conflict (detail : String) (resource : Option String) :
    Answered (some (.conflict detail resource)) := by
  rintro _ ⟨⟩
  exact ⟨409, _, rfl, by decide⟩

theorem badRequest (detail : String) : Answered (some (.http 400 detail)) := by
  rintro _ ⟨⟩
  exact ⟨400, _, rfl, by decide⟩

theorem requestValidation : Answered (some .requestValidation) := by
  rintro _ ⟨⟩
  exact ⟨422, _, rfl, by decide⟩

theorem ite {c : Prop} [Decidable c] {o o' : Option Exc} (h : Answered o) (h' : Answered o') :
    Answered (if c then o else o') := by
  split
  · exact h
  · exact h'

theorem looking {α : Type} {found : Option α} {missing : Exc} {checks : α → Option Exc}
    (h : Answered (some missing)) (h' : ∀ a, Answered (checks a)) :
    Answered (looking found missing checks) := by
  cases found with
  | none => exact h
  | some a => exact h' a

theorem refuseRun {st : Store} {runId : Option String} {lab : LabRow} {mismatch : Exc} {checks : Option Exc}
    (h : Answered (some mismatch)) (h' : Answered checks) :
    Answered (refuseRun st runId lab mismatch checks) := by
  cases runId with
  | none => exact h'
  | some runId => exact looking (resourceNotFound _) fun run => ite h h'

end Answered

theorem answered_refuseDecision {now : ℤ} {st : Store} {decision : Decision} {approvalId : String}
    {comment : Option String} : Answered (refuseDecision now st decision approvalId comment) :=
  .looking (.resourceNotFound _) fun _ =>
    .ite (.conflict _ _) (.ite (.conflict _ _) (.ite (.conflict _ _) .none))

theorem answered_refusal {now : ℤ} {st : Store} (r : Request β) : Answered (refusal env now st r) := by
  cases r with
  | createLab => exact .looking (.resourceNotFound _) fun _ => .none
  | destroyLab => exact .looking (.resourceNotFound _) fun _ => .ite (.conflict _ _) .none
  | createSecretLease =>
    refine .ite .requestValidation (.looking (.resourceNotFound _) fun _ => .ite (.badRequest _) ?_)
    exact .looking (.badRequest _) fun _ => .none
  | revokeSecretLease => exact .looking (.resourceNotFound _) fun _ => .ite (.conflict _ _) .none
  | createRun => exact .looking (.resourceNotFound _) fun _ => .none
  | enqueueSchedulerJob => exact .ite .requestValidation (.ite (.conflict _ _) .none)
  | dispatchNextSchedulerJob => exact .looking (.resourceNotFound _) fun _ => .none
  | approveRequest => exact answered_refuseDecision
  | denyRequest => exact answered_refuseDecision
  | createSnapshot =>
    exact .looking (.resourceNotFound _) fun _ => .refuseRun (.conflict _ _) (.ite (.conflict _ _) .none)
  | restoreSnapshot =>
    exact .looking (.resourceNotFound _) fun _ =>
      .looking (.resourceNotFound _) fun _ => .ite (.conflict _ _) .none
  | createExport =>
    refine .looking (.resourceNotFound _) fun _ => .refuseRun (.conflict _ _) (.ite (.conflict _ _) ?_)
    exact .looking (.conflict _ _) fun _ => .none
  | releaseExport =>
    exact .looking (.resourceNotFound _) fun _ =>
      .ite (.conflict _ _) (.ite (.conflict _ _) (.ite (.conflict _ _) .none))
  | denyExport =>
    exact .looking (.resourceNotFound _) fun _ =>
      .ite (.conflict _ _) (.ite (.conflict _ _) (.ite (.conflict _ _) .none))
  | reconcile => exact .none

end App

/-! ### The handlers -/

section Statements

variable {s : Session β} {E : Exc → Prop} {α ρ : Type} {key : ρ → String} {m : Mapped key}

omit [Content β]

/-- A handler that looks a row up first. -/
theorem refusing_getOr {k : String} {missing : Exc} {checks : ρ → Option Exc} {f : ρ → SessionM β α}
    (h : ∀ row, (m.table s.store).get? k = some row → Refusing (checks row) E (f row) s) :
    Refusing (looking ((m.table s.store).get? k) missing checks) E (getOr m k missing >>= f) s := by
  cases hrow : (m.table s.store).get? k with
  | none => exact ⟨s, bind_eq_error.mpr (.inl (getOr_eq_error.mpr ⟨hrow, rfl, rfl⟩))⟩
  | some row => exact Refusing.bind_of_ok (getOr_eq_ok.mpr ⟨hrow, rfl⟩) (h row hrow)

/-- A lookup of a row that is there. -/
theorem refusing_getOr_of_some {o : Option Exc} {k : String} {missing : Exc} {row : ρ} {f : ρ → SessionM β α}
    (hrow : (m.table s.store).get? k = some row) (h : Refusing o E (f row) s) :
    Refusing o E (getOr m k missing >>= f) s :=
  Refusing.bind_of_ok (getOr_eq_ok.mpr ⟨hrow, rfl⟩) h

theorem raising_setRow (row : ρ) : Raising E (setRow m row) s := .change _

theorem raising_recordEvent (event : EventRow) : Raising E (recordEvent event) s := .change _

theorem raising_newId (uuid4 : ℕ → String) : Raising E (newId uuid4) s :=
  Raising.get.bind fun _ _ _ => (Raising.change _).bind fun _ _ _ => .pure _

theorem raising_addRow {row : ρ} (h : (m.table s.store).get? (key row) = none) : Raising E (addRow m row) s :=
  .of_ok (a := ()) (addRow_eq_ok.mpr ⟨h, rfl⟩)

theorem raising_onDisk {x : DiskM β α} (h : Raising E x s.disk) : Raising E (onDisk x) s := .onPart h

theorem refusing_onDisk {o : Option Exc} {x : DiskM β α} (h : Refusing o E x s.disk) :
    Refusing o E (onDisk x) s := h.onPart

theorem raising_files {x : FileM β α} {d : Disk β} (h : ∀ e, E (.file e)) : Raising E (files x) d :=
  .adaptExcept fun e _ _ => h e

/-- A handler that ends with an event and a value. -/
theorem raising_recordEvent_pure (event : EventRow) (a : α) :
    Raising E (do recordEvent event; return a : SessionM β α) s :=
  (raising_recordEvent event).bind fun _ _ _ => .pure a

end Statements

section Handlers

variable {now : ℤ} {s : Session β} {E : Exc → Prop}

/-- An approval is asked for under an identifier that is not taken. -/
theorem raising_askForApproval {demanded : Bool} {labId labId' runId : Option String}
    {resourceType resourceId action reason requestedBy : String}
    (hfresh : s.store.approvals.get? (env.uuid4 s.minted) = none) :
    Raising E (whenever demanded (do
      let approval ← App.recordApprovalRequest env now labId resourceType resourceId action reason requestedBy
      recordEvent (App.approvalRequested approval labId' runId))) s := by
  refine Raising.whenever fun _ => Raising.bind ?_ fun _ _ _ => raising_recordEvent _
  refine (raising_newId _).bind fun id s₁ hid => ?_
  obtain ⟨rfl, rfl⟩ := newId_eq_ok.mp hid
  exact (raising_addRow hfresh).bind fun _ _ _ => .pure _

theorem fresh_storage {m : ℕ} {st : Store} (hs : Sound env m st) {n : ℕ} (hn : m ≤ n) :
    st.labStorage.get? (env.uuid4 n) = none := by
  cases h : st.labStorage.get? (env.uuid4 n) with
  | none => rfl
  | some storage =>
    obtain ⟨-, lab, hlab⟩ := hs.layout _ _ h
    rw [fresh_of_taken hs.labs hn] at hlab
    cases hlab

theorem refusing_createLabRecord (hs : Sound env s.minted s.store) (hprovided : Provided env s.minted s.store)
    {profileName : String} {requester : RequesterType} (hfile : ∀ e, E (.file e)) :
    Refusing (App.refusal env now s.store (.createLab profileName requester : Request β)) E
      (App.createLabRecord env now profileName requester) s := by
  unfold App.createLabRecord
  cases hprofile : PolicyEngine.profile? env.profiles profileName with
  | none =>
    have hforestalled : (PolicyEngine.validateRequest env.profiles profileName [] requester.value).mapError
        App.requestError = .error (.resourceNotFound "profile") := by
      unfold PolicyEngine.validateRequest PolicyEngine.getProfile
      rw [hprofile]
      rfl
    simp only [App.refusal, hprofile, looking, hforestalled]
    exact ⟨s, bind_eq_error.mpr (.inl rfl)⟩
  | some profile =>
    have hvalid : ∃ decision, PolicyEngine.validateRequest env.profiles profileName [] requester.value =
        .ok decision := PolicyEngine.validateRequest_of_profile hprofile
    obtain ⟨decision, hdecision⟩ := hvalid
    simp only [App.refusal, hprofile, looking]
    refine Refusing.bind_of_ok (fromExcept_eq_ok.mpr ⟨mapError_eq_ok.mpr hdecision, rfl⟩) ?_
    refine Raising.bind (raising_newId _) fun labId s₁ hid => ?_
    obtain ⟨rfl, rfl⟩ := newId_eq_ok.mp hid
    refine Raising.bind (raising_onDisk (Raising.bind (.forM fun _ _ _ => raising_files hfile)
      fun _ _ _ => .pure _)) fun allocation s₂ hrun => ?_
    obtain ⟨d, hallocate, rfl⟩ := onDisk_eq_ok.mp hrun
    obtain rfl := ManagedStorageAllocator.allocate_eq_ok hallocate
    have hlab : s.store.labs.get? (env.uuid4 s.minted) = none := fresh_of_taken hs.labs le_rfl
    refine (raising_addRow hlab).bind fun _ s₃ hadd => ?_
    obtain ⟨-, rfl⟩ := addRow_eq_ok.mp hadd
    refine (raising_addRow (fresh_storage hs le_rfl)).bind fun _ s₄ hadd => ?_
    obtain ⟨-, rfl⟩ := addRow_eq_ok.mp hadd
    refine Raising.bind (raising_askForApproval ?_) fun _ _ _ => raising_recordEvent_pure _ _
    exact fresh_of_taken hprovided.approvals (Nat.le_succ _)

theorem raising_destroy (hs : Working env s.state) {storage : LabStorageRow} {allocation : StorageAllocation}
    (hlab : ∃ lab, s.store.labs.get? storage.labId = some lab)
    (hstorage : s.store.labStorage.get? storage.labId = some storage)
    (hallocation : storageAllocationFromRow storage = .ok allocation) (hfile : ∀ e, E (.file e)) :
    Raising E (ManagedStorageAllocator.destroy env.root allocation) s.disk := by
  obtain ⟨lab, hlab⟩ := hlab
  have hroot : allocation.rootPath = inLab env.root storage.labId [] := by
    rw [storageAllocationFromRow_eq_ok hallocation, (hs.healthy.sound.layout _ _ hstorage).1.1]
    exact (List.append_nil _).symm
  have hfirm : Firm (Managed env anyContent) (inLab env.root storage.labId []) :=
    firm_of_ours ⟨(hs.healthy.sound.labs _ _ hlab).isIdentifier, by simp, .inl (by simp)⟩
  refine Raising.bind ?_ fun _ _ _ => (raising_files hfile).bind fun _ _ _ => .whenever fun _ =>
    raising_files hfile
  refine (raising_files hfile).bind fun resolved d hresolve => .raiseIf fun hbelow => ?_
  -- the root of the lab resolves to itself, so it is below the managed root
  obtain ⟨hresolved, rfl⟩ := resolve_eq_ok.mp (files_eq_ok.mp hresolve)
  have hself : s.disk.tree.realpath allocation.rootPath = (allocation.rootPath, true) := by
    rw [hroot]
    exact hfirm.realpath hs.healthy.tidy
  obtain rfl : allocation.rootPath = resolved := by rw [← hresolved.1, hself]
  exact absurd (hroot ▸ root_prefix_inLab _ _ _) hbelow

theorem refusing_destroyLab (hs : Working env s.state) {labId : String} (hfile : ∀ e, E (.file e)) :
    Refusing (App.refusal env now s.store (.destroyLab labId : Request β)) E
      (App.destroyLab env labId) s := by
  rw [App.refusal]
  unfold App.destroyLab
  refine refusing_getOr (m := .labs) fun lab hlab => ?_
  obtain rfl := Table.key_of_get? hlab
  obtain ⟨storage, hstorage⟩ := hs.references.storage _ _ hlab
  have hid : storage.labId = lab.id := Table.key_of_get? hstorage
  obtain ⟨allocation, hallocation⟩ := hs.provided.modes _ _ hstorage
  refine refusing_getOr_of_some hstorage (Refusing.raiseIf_bind fun halive => ?_)
  refine Refusing.bind_of_ok (fromExcept_eq_ok.mpr ⟨hallocation, rfl⟩) (Refusing.of_raising ?_)
  refine (raising_onDisk (raising_destroy hs ?_ ?_ hallocation hfile)).bind fun _ _ _ => ?_
  · rw [hid]
    exact ⟨lab, hlab⟩
  · rw [hid]
    exact hstorage
  · exact (raising_setRow _).bind fun _ _ _ => raising_recordEvent_pure _ _

/-! ### Runs and jobs -/

theorem refusing_createRunRecord (hs : Working env s.state) {labId command : String}
    {requester : RequesterType} :
    Refusing (App.refusal env now s.store (.createRun labId command requester : Request β)) E
      (App.createRunRecord env now labId command requester) s := by
  rw [App.refusal]
  unfold App.createRunRecord
  refine refusing_getOr (m := .labs) fun lab hlab => ?_
  refine Refusing.of_raising ((raising_newId _).bind fun id s₁ hid => ?_)
  obtain ⟨rfl, rfl⟩ := newId_eq_ok.mp hid
  refine (raising_addRow ?_).bind fun _ _ _ => raising_recordEvent_pure _ _
  exact fresh_of_taken hs.healthy.sound.runs le_rfl

theorem refusing_enqueueSchedulerJob (hs : Working env s.state) {request : SchedulerJobCreateRequest}
    (haccepted : request.accepted = true) :
    Refusing (App.refusal env now s.store (.enqueueSchedulerJob request : Request β)) E
      (App.enqueueSchedulerJob env now request) s := by
  have henqueue : Refusing (if env.maxPendingJobsPerRequester ≤
      SchedulerService.pendingCount s.store request.requesterId then some .schedulerQuotaExceeded else none)
      (fun e => E (if e = .schedulerQuotaExceeded
        then .conflict "scheduler_pending_job_quota_exceeded" "scheduler_job" else e))
      (SchedulerService.enqueue env now request) s := by
    refine Refusing.bind_of_ok (get_run s) (Refusing.raiseIf_bind fun _ => Refusing.of_raising ?_)
    refine (raising_newId _).bind fun id s₁ hid => ?_
    obtain ⟨rfl, rfl⟩ := newId_eq_ok.mp hid
    refine (raising_addRow ?_).bind fun _ _ _ => .pure _
    exact fresh_of_taken hs.provided.jobs le_rfl
  rw [App.refusal, if_neg (by simp [haccepted])]
  unfold App.enqueueSchedulerJob
  refine Refusing.bind ?_ fun row s₁ _ => raising_recordEvent_pure _ row
  have hforestalled := henqueue.adaptExcept
  rwa [apply_ite (Option.map _)] at hforestalled

/-- A dispatch is refused only where no job is due: whatever the job raises is written into its row. -/
theorem refusing_dispatchNextSchedulerJob :
    Refusing (App.refusal env now s.store (.dispatchNextSchedulerJob : Request β)) E
      (App.dispatchNextSchedulerJob env now) s := by
  rw [App.refusal]
  unfold App.dispatchNextSchedulerJob
  cases hnext : SchedulerService.nextJob s.store now with
  | none =>
    have hidle : SchedulerService.runNext now (App.createJobLab env now) (App.createJobRun env now) s =
        .ok none s := by
      refine bind_of_ok (get_run s) ?_
      rw [hnext]
      rfl
    exact ⟨s, bind_eq_error.mpr (.inr ⟨none, s, hidle, bind_eq_error.mpr (.inl rfl)⟩)⟩
  | some job =>
    obtain ⟨outcome, s₁, hattempt⟩ :=
      attempt_ok (rollingBack (SchedulerService.action (App.createJobLab env now)
      (App.createJobRun env now) (SchedulerService.claimed now job))) { s with store := { s.store with
        schedulerJobs := s.store.schedulerJobs.put (SchedulerService.claimed now job) } }
    refine Refusing.bind_of_ok (runNext_eq_ok.mpr ⟨job, outcome, s₁, hnext, hattempt, rfl, rfl⟩) ?_
    refine Refusing.bind_of_ok (orRaise_eq_ok.mpr ⟨rfl, rfl⟩) (Refusing.of_raising ?_)
    refine Raising.bind ?_ fun _ _ _ => .pure _
    exact (raising_recordEvent _).bind fun _ _ _ => raising_recordEvent _

/-! ### Leases -/

theorem refusing_createSecretLease (hs : Working env s.state) {labId secretName : String}
    {requester : RequesterType} {ttlMinutes : ℤ} (httl : 1 ≤ ttlMinutes ∧ ttlMinutes ≤ 24 * 60) :
    Refusing (App.refusal env now s.store
      (.createSecretLease labId secretName requester ttlMinutes : Request β)) E
      (App.createSecretLease env now labId secretName requester ttlMinutes) s := by
  have hissue : Refusing (looking (s.store.labs.get? labId) (.lookup "lab") fun lab =>
      if (PolicyEngine.profile? env.profiles lab.profileName).all
          (fun profile => decide (secretName ∉ profile.allowedSecretNames)) = true
        then some (.value "secret_name is not allowed by profile")
      else looking (env.secrets secretName) (.secretNotFound secretName) fun _ => none)
      (fun e => E (App.leaseError e))
        (SecretLeaseService.issueLease env now labId secretName ttlMinutes) s := by
    unfold SecretLeaseService.issueLease
    refine Refusing.bind_of_ok (raiseIf_eq_ok (u := ()).mpr ⟨by omega, rfl⟩) ?_
    refine refusing_getOr (m := .labs) fun lab hlab => ?_
    obtain ⟨profile, hprofile⟩ := hs.provided.profiles _ _ hlab
    refine Refusing.bind_of_ok (fromExcept_eq_ok.mpr
      ⟨mapError_eq_ok.mpr (PolicyEngine.getProfile_eq_ok.mpr hprofile), rfl⟩) ?_
    simp only [hprofile, Option.all_some, decide_eq_true_eq]
    refine Refusing.raiseIf_bind fun _ => Refusing.orRaise_bind fun value _ => Refusing.of_raising ?_
    refine (raising_newId _).bind fun id s₁ hid => ?_
    obtain ⟨rfl, rfl⟩ := newId_eq_ok.mp hid
    refine (raising_addRow ?_).bind fun _ _ _ => .pure _
    exact fresh_of_taken hs.healthy.sound.leases le_rfl
  rw [App.refusal, if_neg (not_not.mpr httl)]
  unfold App.createSecretLease
  refine Refusing.bind ?_ fun lease s₁ _ => raising_recordEvent_pure _ lease
  have hforestalled := hissue.adaptExcept
  simp only [map_looking, apply_ite (Option.map App.leaseError), Option.map_some, Option.map_none,
    App.leaseError] at hforestalled
  exact hforestalled

theorem refusing_revokeSecretLease {leaseId actor : String} {reason : Option String} :
    Refusing (App.refusal env now s.store (.revokeSecretLease leaseId actor reason : Request β)) E
      (App.revokeSecretLease now leaseId actor reason) s := by
  have hrevoke : Refusing (looking (s.store.secretLeases.get? leaseId) (.lookup "secret_lease") fun lease =>
      if lease.revokedAt.isSome = true then some (.secretLeaseState "secret lease already revoked") else none)
      (fun e => E (App.revokeError e)) (SecretLeaseService.revokeLease now leaseId) s := by
    refine refusing_getOr (m := .secretLeases) fun lease hlease => Refusing.raiseIf_bind fun _ => ?_
    exact Refusing.of_raising ((raising_setRow _).bind fun _ _ _ => .pure _)
  rw [App.refusal]
  unfold App.revokeSecretLease
  refine Refusing.bind ?_ fun lease s₁ _ => raising_recordEvent_pure _ lease
  have hforestalled := hrevoke.adaptExcept
  simp only [map_looking, apply_ite (Option.map App.revokeError), Option.map_some, Option.map_none,
    App.revokeError] at hforestalled
  exact hforestalled

/-! ### Decisions -/

theorem refusing_decideRequest (hs : Working env s.state) {decision : App.Decision}
    {approvalId actor : String} {comment : Option String} :
    Refusing (App.refuseDecision now s.store decision approvalId comment) E
      (App.decideRequest now decision approvalId actor comment) s := by
  unfold App.refuseDecision App.decideRequest
  refine refusing_getOr (m := .approvals) fun a ha => Refusing.bind ?_ fun _ _ _ =>
    raising_recordEvent_pure _ _
  unfold App.applyApprovalDecision App.ensureApprovalPending
  rw [bind_assoc]
  refine Refusing.raiseIf_bind fun hpending => ?_
  by_cases hexpired : App.isExpired now a = true
  · rw [if_pos hexpired]
    rw [hexpired]
    exact ⟨_, rfl⟩
  · rw [if_neg hexpired]
    refine Refusing.bind_of_ok (a := ()) (whenever_eq_ok.mpr (.inr ⟨by simpa using hexpired, rfl⟩)) ?_
    refine Refusing.raiseIf_bind fun _ => Refusing.of_raising ?_
    refine (raising_setRow _).bind fun _ s₁ hset => Raising.bind ?_ fun _ _ _ => .pure _
    obtain rfl := setRow_eq_ok.mp hset
    have hrefers : RefersWithin s.store (App.decidedApproval now decision actor comment a) :=
      hs.references.approvals approvalId a ha
    exact fun e s₂ h => absurd h (decideResource_found hrefers)

/-! ### Snapshots -/

omit [Content β] in
/-- A handler that checks the run a request names. -/
theorem refusing_checkRun {α : Type} {runId : Option String} {lab : LabRow} {mismatch : Exc}
    {checks : Option Exc} {f : Unit → SessionM β α} (h : Refusing checks E (f ()) s) :
    Refusing (App.refuseRun s.store runId lab mismatch checks) E
      (App.checkRun runId lab mismatch >>= f) s := by
  cases runId with
  | none => exact Refusing.bind_of_ok (a := ()) rfl h
  | some runId =>
    unfold App.refuseRun App.checkRun
    rw [bind_assoc]
    exact refusing_getOr (m := .runs) fun run _ => Refusing.raiseIf_bind fun _ => h

theorem refusing_createSnapshot (hs : Working env s.state) {labId : String} {runId : Option String}
    {requester : RequesterType} (hfile : ∀ e, E (.file e)) :
    Refusing (App.refusal env now s.store (.createSnapshot labId runId requester : Request β)) E
      (App.createSnapshot env now labId runId requester) s := by
  rw [App.refusal]
  unfold App.createSnapshot
  refine refusing_getOr (m := .labs) fun lab hlab => ?_
  obtain ⟨storage, hstorage⟩ := hs.references.storage _ _ hlab
  refine refusing_getOr_of_some hstorage (refusing_checkRun ?_)
  have hcreate : ∀ d, Refusing (if lab.runtimeClass.value ≠ RuntimeClass.container.value
        then some (.unsupportedSnapshotRuntime "only container snapshots are supported in Phase 1") else none)
      (fun e => E (App.snapshotError e))
      (SnapshotManager.createSnapshot env now (env.uuid4 s.minted) lab storage runId) d := by
    intro d
    have hfiles : ∀ {α : Type} {x : FileM β α} {d : Disk β},
        Raising (fun e => E (App.snapshotError e)) (files x) d := raising_files hfile
    unfold SnapshotManager.createSnapshot SnapshotManager.ensureRuntimeSupported
    refine Refusing.raiseIf_bind fun _ => Refusing.of_raising ?_
    refine hfiles.bind fun _ _ _ => hfiles.bind fun _ _ _ => hfiles.bind fun _ _ _ => ?_
    exact hfiles.bind fun _ _ _ => hfiles.bind fun _ _ _ => hfiles.bind fun _ _ _ => .pure _
  have hruntime : lab.runtimeClass.value ≠ RuntimeClass.container.value ↔ lab.runtimeClass ≠ .container := by
    cases lab.runtimeClass <;> decide
  refine Refusing.bind_of_ok (newId_eq_ok.mpr ⟨rfl, rfl⟩) (Refusing.bind ?_ fun metadata s₁ hrun => ?_)
  · have hforestalled := (refusing_onDisk (s := { s with minted := s.minted + 1 }) (hcreate _)).adaptExcept
    rw [apply_ite (Option.map App.snapshotError), if_congr hruntime rfl rfl] at hforestalled
    exact hforestalled
  · obtain ⟨d, -, rfl⟩ := onDisk_eq_ok.mp (adaptExcept_eq_ok.mp hrun)
    refine (raising_addRow ?_).bind fun _ _ _ => raising_recordEvent_pure _ _
    refine fresh_of_taken (fun id row hrow => (hs.healthy.sound.snapshots id row hrow).1) le_rfl

theorem parseManifest_eq_error {text : β} {e : Exc} (h : SnapshotManager.parseManifest env text = .error e) :
    e = .snapshotMetadata "snapshot manifest is not valid JSON" ∨ e = .manifest := by
  unfold SnapshotManager.parseManifest at h
  split at h
  · exact .inl (Except.error.inj h).symm
  · exact .inr (Except.error.inj h).symm
  · split at h
    · exact .inr (Except.error.inj h).symm
    · cases h

/-- Reading the manifest of a snapshot raises what is found out from it. -/
theorem raising_loadMetadata {row : SnapshotRow} {snapshotId labId : String} {requester : RequesterType}
    (d : Disk β) :
    Raising (fun e => App.foundFirst (.restoreSnapshot snapshotId labId requester : Request β)
      (App.snapshotError e) = true) (SnapshotManager.loadMetadata env row) d := by
  unfold SnapshotManager.loadMetadata
  refine (raising_files fun _ => rfl).bind fun there d₁ _ => ?_
  cases there with
  | false => exact .pure _
  | true =>
    refine (raising_files fun _ => rfl).bind fun text d₂ _ =>
      Raising.bind (.fromExcept fun e h => ?_) fun _ _ _ => .pure _
    rcases parseManifest_eq_error h with rfl | rfl <;> rfl

omit [Content β] in
/-- What is found out first is from outside. -/
theorem fromOutside_of_foundFirst {r : Request β} {e : Exc} (h : App.foundFirst r e = true) :
    App.fromOutside r e = true := by
  unfold App.foundFirst at h
  split at h
  · rfl
  · rfl
  · next detail resource =>
    obtain ⟨hresource, hdetail⟩ := (Bool.and_eq_true ..).mp h
    simp only [App.fromOutside, hresource, List.contains_eq_mem, List.mem_append, Bool.true_and,
      decide_eq_true_eq] at hdetail ⊢
    exact .inl hdetail
  · cases h

/-- **A restore into a lab that is no container** is refused for that, or for what the manifest shows. -/
theorem restoreSnapshot_of_microvm {row : SnapshotRow} {lab : LabRow} {storage : LabStorageRow}
    {snapshotId labId : String} {requester : RequesterType} (hruntime : lab.runtimeClass ≠ .container)
    (d : Disk β) :
    ∃ e d', SnapshotManager.restoreSnapshot env now row lab storage d = .error e d' ∧
      (App.snapshotError e = .conflict "unsupported_snapshot_runtime" "snapshot" ∨
        App.foundFirst (.restoreSnapshot snapshotId labId requester : Request β)
          (App.snapshotError e) = true) := by
  have hvalue : lab.runtimeClass.value ≠ RuntimeClass.container.value := by
    cases hr : lab.runtimeClass with
    | container => exact absurd hr hruntime
    | microvm => decide
  cases hload : SnapshotManager.loadMetadata env row d with
  | error e d₁ => exact ⟨e, d₁, bind_eq_error.mpr (.inl hload), .inr (raising_loadMetadata d e d₁ hload)⟩
  | ok loaded d₁ =>
    cases loaded with
    | none => exact ⟨_, d₁, bind_eq_error.mpr (.inr ⟨_, _, hload, bind_eq_error.mpr (.inl rfl)⟩), .inr rfl⟩
    | some metadata =>
      -- one of the two checks of the runtime class raises
      by_cases hmetadata : metadata.runtimeClass ≠ RuntimeClass.container.value
      · refine ⟨.unsupportedSnapshotRuntime "only container snapshots are supported in Phase 1", d₁,
          bind_eq_error.mpr (.inr ⟨_, _, hload, bind_eq_error.mpr (.inr ⟨metadata, d₁, rfl, ?_⟩)⟩), .inl rfl⟩
        exact bind_eq_error.mpr (.inl (raiseIf_eq_error.mpr ⟨hmetadata, rfl, rfl⟩))
      · refine ⟨.unsupportedSnapshotRuntime "only container snapshots are supported in Phase 1", d₁,
          bind_eq_error.mpr (.inr ⟨_, _, hload, bind_eq_error.mpr (.inr ⟨metadata, d₁, rfl, ?_⟩)⟩), .inl rfl⟩
        refine bind_eq_error.mpr (.inr ⟨(), d₁, raiseIf_eq_ok.mpr ⟨hmetadata, rfl⟩, ?_⟩)
        exact bind_eq_error.mpr (.inl (raiseIf_eq_error.mpr ⟨hvalue, rfl, rfl⟩))

/-- A restore into a container finds out from the disk whether there is an archive to restore, and whether it
may be. -/
theorem raising_restoreSnapshot {row : SnapshotRow} {lab : LabRow} {storage : LabStorageRow}
    {snapshotId labId : String} {requester : RequesterType} (hruntime : lab.runtimeClass = .container)
    {d : Disk β} (hmanifest : ∀ text metadata,
      d.tree.stat (SnapshotManager.manifestPathFor row) = some (.file text) →
      SnapshotManager.parseManifest env text = .ok metadata →
      metadata.runtimeClass = RuntimeClass.container.value) :
    Raising (fun e => App.fromOutside (.restoreSnapshot snapshotId labId requester : Request β)
      (App.snapshotError e) = true) (SnapshotManager.restoreSnapshot env now row lab storage) d := by
  have hfiles : ∀ {α : Type} {x : FileM β α} {d : Disk β},
      Raising (fun e => App.fromOutside (.restoreSnapshot snapshotId labId requester : Request β)
        (App.snapshotError e) = true) (files x) d := raising_files fun _ => rfl
  have hclear : ∀ {d : Disk β} {path : PosixPath},
      Raising (fun e => App.fromOutside (.restoreSnapshot snapshotId labId requester : Request β)
        (App.snapshotError e) = true) (SnapshotManager.clearDirectory path) d := by
    intro d path
    refine hfiles.bind fun _ _ _ => .forM fun child _ d => hfiles.bind fun directory _ _ => ?_
    cases directory <;> exact hfiles
  unfold SnapshotManager.restoreSnapshot
  refine Raising.bind ((raising_loadMetadata d).mono fun e he => fromOutside_of_foundFirst he)
    fun loaded d₁ hload => ?_
  refine Raising.bind (.orRaise fun _ => rfl) fun metadata d₂ hloaded => ?_
  obtain ⟨rfl, -⟩ := orRaise_eq_ok.mp hloaded
  obtain ⟨-, text, htext, hparse⟩ := SnapshotManager.loadMetadata_eq_ok hload
  refine Raising.bind (.raiseIf fun hnot => absurd (hmanifest text metadata htext hparse) hnot)
    fun _ d₃ _ => ?_
  refine Raising.bind (.raiseIf fun hnot => absurd (congrArg RuntimeClass.value hruntime) hnot)
    fun _ d₄ _ => ?_
  refine hfiles.bind fun there d₅ _ => Raising.bind (.raiseIf fun _ => rfl) fun _ d₆ _ => ?_
  refine hfiles.bind fun _ _ _ => hclear.bind fun _ _ _ => hfiles.bind fun _ _ _ =>
    hfiles.bind fun _ _ _ => ?_
  refine Raising.bind (.orRaise fun _ => rfl) fun members d₇ _ => Raising.bind ?_ fun _ _ _ => ?_
  · exact .forM fun member _ d => hfiles.bind fun _ _ _ => .raiseIf fun _ => rfl
  refine hfiles.bind fun shared d₈ _ => Raising.bind ?_ fun _ _ _ => hfiles.bind fun _ _ _ => .pure _
  unfold SnapshotManager.moveExtracted
  split
  · exact .pure _
  · refine hfiles.bind fun there _ _ => ?_
    cases there with
    | false => exact .pure _
    | true =>
      refine hclear.bind fun _ _ _ => hfiles.bind fun _ _ _ => hfiles.bind fun _ _ _ => ?_
      exact Raising.bind (.foldlM fun _ _ _ _ => hfiles) fun _ _ _ => hfiles.bind fun _ _ _ => .pure _

/-- In a reachable state every manifest that can be read is of a container. -/
theorem runtimeClass_of_manifest (hs : Working env s.state) {snapshotId : String} {row : SnapshotRow}
    (hrow : s.store.snapshots.get? snapshotId = some row) {text : β} {metadata : SnapshotMetadata}
    (htext : s.disk.tree.stat (SnapshotManager.manifestPathFor row) = some (.file text))
    (hparse : SnapshotManager.parseManifest env text = .ok metadata) :
    metadata.runtimeClass = RuntimeClass.container.value := by
  obtain rfl := Table.key_of_get? hrow
  obtain ⟨htaken, ⟨lab, hlab, -⟩, href⟩ := hs.healthy.sound.snapshots _ _ hrow
  have hfirm : Firm (Managed env anyContent)
      (SnapshotManager.manifestPath (inLab env.root row.labId ["snapshots"]) row.id) :=
    SnapshotManager.firm_manifestPath (hs.healthy.sound.labs _ _ hlab).isIdentifier htaken.isIdentifier
  rw [SnapshotManager.manifestPathFor_eq htaken.isIdentifier href] at htext
  have hstands := (hfirm.leads hs.healthy.tidy).lookup_of_stat htext
  exact ((hs.healthy.tidy.allowed _ _ hstands).2.2 row.labId row.id rfl metadata hparse).2.2

/-- What a handler raises where the rows refuse the request, or do not: a restore may raise first what it
finds out from the manifest. -/
def Forestalled {α : Type} (r : Request β) (o : Option Exc) (x : SessionM β α) (s : Session β) : Prop :=
  match o with
  | some e => ∃ e' s', x s = .error e' s' ∧
    (e' = e ∨ e = .conflict "unsupported_snapshot_runtime" "snapshot" ∧ App.foundFirst r e' = true)
  | none => Raising (fun e => App.fromOutside r e = true) x s

omit [Content β] in
theorem forestalled_of_refusing {α : Type} {r : Request β} {o : Option Exc} {x : SessionM β α}
    (h : Refusing o (fun e => App.fromOutside r e = true) x s) : Forestalled r o x s := by
  cases o with
  | none => exact h
  | some e =>
    obtain ⟨s', h⟩ := h
    exact ⟨e, s', h, .inl rfl⟩

omit [Content β] in
/-- A handler that looks a row up first. -/
theorem forestalled_getOr {α ρ : Type} {key : ρ → String} {m : Mapped key} {r : Request β} {k : String}
    {missing : Exc} {checks : ρ → Option Exc} {f : ρ → SessionM β α}
    (h : ∀ row, (m.table s.store).get? k = some row → Forestalled r (checks row) (f row) s) :
    Forestalled r (looking ((m.table s.store).get? k) missing checks) (getOr m k missing >>= f) s := by
  cases hrow : (m.table s.store).get? k with
  | none =>
    exact forestalled_of_refusing (o := some missing)
      ⟨s, bind_eq_error.mpr (.inl (getOr_eq_error.mpr ⟨hrow, rfl, rfl⟩))⟩
  | some row =>
    have hfound : getOr m k missing s = .ok row s := getOr_eq_ok.mpr ⟨hrow, rfl⟩
    have hrest := h row hrow
    show Forestalled r (checks row) (getOr m k missing >>= f) s
    unfold Forestalled Raising at hrest ⊢
    rwa [bind_run_of_ok hfound]

theorem forestalled_restoreSnapshot (hs : Working env s.state) {snapshotId labId : String}
    {requester : RequesterType} :
    Forestalled (.restoreSnapshot snapshotId labId requester : Request β)
      (App.refusal env now s.store (.restoreSnapshot snapshotId labId requester : Request β))
      (App.restoreSnapshot env now snapshotId labId requester) s := by
  rw [App.refusal]
  unfold App.restoreSnapshot
  refine forestalled_getOr (m := .snapshots) fun row hrow => forestalled_getOr (m := .labs) fun lab hlab => ?_
  obtain rfl := Table.key_of_get? hlab
  obtain ⟨storage, hstorage⟩ := hs.references.storage _ _ hlab
  by_cases hruntime : lab.runtimeClass = .container
  · rw [if_neg (not_not.mpr hruntime)]
    refine forestalled_of_refusing (refusing_getOr_of_some hstorage (Refusing.of_raising ?_))
    exact (raising_onDisk (raising_restoreSnapshot hruntime fun text metadata htext hparse =>
      runtimeClass_of_manifest hs hrow htext hparse)).adaptExcept.bind fun _ _ _ =>
        raising_recordEvent_pure _ _
  · rw [if_pos hruntime]
    obtain ⟨e, d, hraised, hfound⟩ : ∃ e d,
        SnapshotManager.restoreSnapshot env now row lab storage s.disk = .error e d ∧
        (App.snapshotError e = .conflict "unsupported_snapshot_runtime" "snapshot" ∨
          App.foundFirst (.restoreSnapshot snapshotId lab.id requester : Request β)
            (App.snapshotError e) = true) :=
      restoreSnapshot_of_microvm hruntime s.disk
    refine ⟨App.snapshotError e, { s with disk := d }, ?_, hfound.imp_right fun h => ⟨rfl, h⟩⟩
    refine bind_eq_error.mpr (.inr ⟨storage, s, getOr_eq_ok.mpr ⟨hstorage, rfl⟩, bind_eq_error.mpr (.inl ?_)⟩)
    exact adaptExcept_eq_error.mpr ⟨e, onDisk_eq_error.mpr ⟨d, hraised, rfl⟩, rfl⟩

/-! ### Exports -/

theorem refusing_stageExport {exportId sourcePath : String} {runId : Option String} {lab : LabRow}
    {storage : LabStorageRow} {profile : Profile} {d : Disk β}
    (hprofile : PolicyEngine.profile? env.profiles lab.profileName = some profile)
    (hfile : ∀ e, E (.file e)) (hescapes : E (.conflict "export path escapes managed exports root" "export"))
    (hmissing : E (.resourceNotFound "export_source")) :
    Refusing (if managedExportPrefixes.any (fun pre => pre.toList.isPrefixOf sourcePath.toList) = false
        then some (.exportPolicy "exports must originate from managed LabOS paths")
      else looking ((PurePath.parse sourcePath).relativeTo ExportGate.guestExportRoot)
        (.exportPolicy "exports must use a managed guest export path") fun _ => none)
      (fun e => E (App.stageError e))
        (ExportGate.stageExport env exportId lab storage sourcePath runId) d := by
  have hdecision : (PolicyEngine.validateExport env.profiles lab.profileName sourcePath).mapError Exc.policy =
      .ok (PolicyEngine.exportDecision profile sourcePath) := by
    refine mapError_eq_ok.mpr ?_
    unfold PolicyEngine.validateExport
    rw [PolicyEngine.getProfile_eq_ok.mpr hprofile]
    rfl
  unfold ExportGate.stageExport
  refine Refusing.bind_of_ok (fromExcept_eq_ok.mpr ⟨hdecision, rfl⟩) ?_
  unfold PolicyEngine.exportDecision
  by_cases hmanaged : managedExportPrefixes.any (fun pre => pre.toList.isPrefixOf sourcePath.toList) = true
  · rw [if_pos hmanaged, if_neg (by simp [hmanaged])]
    have hfiles : ∀ {α : Type} {x : FileM β α} {d : Disk β},
        Raising (fun e => E (App.stageError e)) (files x) d := raising_files hfile
    refine Refusing.bind_of_ok (raiseIf_eq_ok (u := ()).mpr ⟨Bool.noConfusion, rfl⟩) ?_
    unfold ExportGate.resolveManagedSource
    rw [bind_assoc]
    refine Refusing.orRaise_bind fun relative _ => Refusing.of_raising (Raising.bind ?_ fun source d₁ _ => ?_)
    · refine hfiles.bind fun _ _ _ => hfiles.bind fun _ _ _ => ?_
      exact Raising.bind (.raiseIf fun _ => hescapes) fun _ _ _ => .pure _
    refine hfiles.bind fun _ _ _ => hfiles.bind fun _ _ _ =>
      Raising.bind (.raiseIf fun _ => hmissing) fun _ _ _ => ?_
    exact hfiles.bind fun _ _ _ => hfiles.bind fun _ _ _ => hfiles.bind fun _ _ _ => .pure _
  · rw [if_neg hmanaged, if_pos (by simpa using hmanaged)]
    exact ⟨d, bind_eq_error.mpr (.inl (raiseIf_eq_error.mpr ⟨rfl, rfl, rfl⟩))⟩

theorem refusing_createExport (hs : Working env s.state) {labId sourcePath : String} {runId : Option String}
    {requester : RequesterType} :
    Refusing (App.refusal env now s.store (.createExport labId sourcePath runId requester : Request β))
      (fun e => App.fromOutside (.createExport labId sourcePath runId requester : Request β) e = true)
      (App.createExport env now labId sourcePath runId requester) s := by
  rw [App.refusal]
  unfold App.createExport
  refine refusing_getOr (m := .labs) fun lab hlab => ?_
  obtain ⟨storage, hstorage⟩ := hs.references.storage _ _ hlab
  obtain ⟨profile, hprofile⟩ := hs.provided.profiles _ _ hlab
  refine refusing_getOr_of_some hstorage (refusing_checkRun ?_)
  refine Refusing.bind_of_ok (newId_eq_ok.mpr ⟨rfl, rfl⟩) ?_
  refine Refusing.bind_of_ok (a := ()) (recordEvent_eq_ok.mpr rfl) ?_
  refine Refusing.bind ?_ fun staged s₁ hrun => ?_
  · have hstaged := fun s' : Session β => refusing_onDisk (s := s')
      (x := ExportGate.stageExport env (env.uuid4 s.minted) lab storage sourcePath runId)
        (refusing_stageExport
        (E := fun e => App.fromOutside (.createExport labId sourcePath runId requester : Request β) e = true)
        hprofile (fun _ => rfl) rfl rfl)
    have hforestalled := fun s' => (hstaged s').adaptExcept (f := App.stageError)
      (E := fun e => App.fromOutside (.createExport labId sourcePath runId requester : Request β) e = true)
    simp only [map_looking, apply_ite (Option.map App.stageError), Option.map_some, Option.map_none,
      App.stageError] at hforestalled
    exact hforestalled _
  · obtain ⟨d, -, rfl⟩ := onDisk_eq_ok.mp (adaptExcept_eq_ok.mp hrun)
    refine (raising_addRow ?_).bind fun _ s₂ hadd => ?_
    · exact fresh_of_taken (fun id row hrow => (hs.healthy.sound.exports id row hrow).1) le_rfl
    obtain ⟨-, rfl⟩ := addRow_eq_ok.mp hadd
    refine (raising_recordEvent _).bind fun _ s₃ hevent => ?_
    obtain rfl := recordEvent_eq_ok.mp hevent
    refine Raising.bind (raising_askForApproval ?_) fun _ _ _ => .pure _
    exact fresh_of_taken hs.provided.approvals (Nat.le_succ _)

theorem refusing_releaseGate {row : ExportRow} {storage : LabStorageRow} {d : Disk β} :
    Refusing (if row.state = .rejected then some (.exportState "export_already_rejected")
        else if row.state = .released then some (.exportState "export_already_released")
        else if row.approvalRequired = true then some (.exportPolicy "export_approval_required")
        else none)
      (fun e => e = .exportSourceNotFound row.sourcePath ∨ ∃ err, e = .file err)
      (ExportGate.releaseExport row storage) d := by
  have hfiles : ∀ {α : Type} {x : FileM β α} {d : Disk β},
      Raising (fun e => e = .exportSourceNotFound row.sourcePath ∨ ∃ err, e = .file err) (files x) d :=
    raising_files fun err => .inr ⟨err, rfl⟩
  unfold ExportGate.releaseExport
  refine Refusing.raiseIf_bind fun _ => Refusing.raiseIf_bind fun _ => Refusing.raiseIf_bind fun _ => ?_
  refine Refusing.of_raising (hfiles.bind fun _ _ _ => hfiles.bind fun _ _ _ => ?_)
  refine Raising.bind (.raiseIf fun _ => .inl rfl) fun _ _ _ => ?_
  exact hfiles.bind fun _ _ _ => hfiles.bind fun _ _ _ => .pure _

omit [Content β] in
/-- Where the gate has let a release pass, what is raised comes from the disk. -/
theorem raising_finishRelease {exportId : String} {row : ExportRow} {outcome : Except Exc ExportStageResult}
    (h : ∀ e, outcome = .error e → e = .exportSourceNotFound row.sourcePath ∨ ∃ err, e = .file err) :
    Raising (fun e => App.fromOutside (.releaseExport exportId : Request β) e = true)
      (App.finishRelease row outcome >>= fromExcept) s := by
  cases outcome with
  | ok released =>
    refine Raising.bind (Raising.bind (raising_setRow _) fun _ _ _ => raising_recordEvent_pure _ _) ?_
    rintro released' s₂ hfinish
    obtain ⟨rfl, -⟩ := EStateM.Result.ok.inj hfinish
    exact .pure _
  | error e =>
    rcases h e rfl with rfl | ⟨err, rfl⟩
    · exact Raising.bind (.throw rfl) fun released s₂ h => by cases h
    · exact Raising.bind (.throw rfl) fun released s₂ h => by cases h

/-- A release that an approval blocks is refused after its commit. -/
theorem refusing_releaseExport (hs : Working env s.state) {exportId : String} :
    Refusing (App.refusal env now s.store (.releaseExport exportId : Request β))
      (fun e => App.fromOutside (.releaseExport exportId : Request β) e = true)
      (App.releaseExport exportId >>= fromExcept) s := by
  rw [App.refusal]
  unfold App.releaseExport
  rw [bind_assoc]
  refine refusing_getOr (m := .exports) fun row hrow => ?_
  obtain ⟨lab, hlab⟩ := hs.references.exports _ _ hrow
  obtain ⟨storage, hstorage⟩ := hs.references.storage _ _ hlab
  rw [bind_assoc]
  refine refusing_getOr_of_some hstorage ?_
  have hgate : Refusing _ _ (onDisk (ExportGate.releaseExport row storage)) s :=
    refusing_onDisk refusing_releaseGate
  rw [bind_assoc]
  -- what the gate refuses is raised again under another name, before or after the commit
  have hforestalled : ∀ {e e' : Exc} {s' : Session β},
      onDisk (ExportGate.releaseExport row storage) s = .error e s' →
      (∃ s'', (App.finishRelease row (.error e) >>= fromExcept) s' = .error e' s'') →
      ∃ s'', (attempt (onDisk (ExportGate.releaseExport row storage)) >>= fun outcome =>
        App.finishRelease row outcome >>= fromExcept) s = .error e' s'' := by
    rintro e e' s' hraised ⟨s'', h⟩
    exact ⟨s'', bind_eq_error.mpr (.inr ⟨_, s', attempt_eq_ok.mpr (.inr ⟨e, rfl, hraised⟩), h⟩)⟩
  by_cases hrejected : row.state = .rejected
  · rw [if_pos hrejected] at hgate ⊢
    obtain ⟨s', h⟩ := hgate
    exact hforestalled h ⟨s', rfl⟩
  rw [if_neg hrejected] at hgate ⊢
  by_cases hreleased : row.state = .released
  · rw [if_pos hreleased] at hgate ⊢
    obtain ⟨s', h⟩ := hgate
    exact hforestalled h ⟨s', rfl⟩
  rw [if_neg hreleased] at hgate ⊢
  by_cases happroval : row.approvalRequired = true
  · rw [if_pos happroval] at hgate ⊢
    obtain ⟨s', h⟩ := hgate
    exact hforestalled h ⟨_, rfl⟩
  rw [if_neg happroval] at hgate ⊢
  refine Refusing.of_raising (Raising.bind (fun e s' h => ?_) fun outcome s₁ hattempt => ?_)
  · obtain ⟨outcome, s'', h'⟩ := attempt_ok (onDisk (ExportGate.releaseExport row storage)) s
    cases h.symm.trans h'
  · refine raising_finishRelease fun e houtcome => ?_
    rcases attempt_eq_ok.mp hattempt with ⟨released, rfl, -⟩ | ⟨e', rfl, hraised⟩
    · cases houtcome
    · obtain rfl := Except.error.inj houtcome
      exact hgate _ _ hraised

theorem refusing_denyExport {exportId reason : String} :
    Refusing (App.refusal env now s.store (.denyExport exportId reason : Request β)) E
      (App.denyExport exportId reason) s := by
  rw [App.refusal]
  unfold App.denyExport
  refine refusing_getOr (m := .exports) fun row hrow => ?_
  have hdenied : Refusing (if row.state = .released then some (.conflict "export_already_released" "export")
      else if row.state = .rejected then some (.conflict "export_already_rejected" "export")
      else if Strings.isBlank reason = true then some (.conflict "export_denial_reason_required" "export")
      else none) E (fromExcept ((ExportGate.denyExport row reason).mapError App.denyError)) s := by
    unfold ExportGate.denyExport
    split_ifs
    · exact ⟨s, rfl⟩
    · exact ⟨s, rfl⟩
    · exact ⟨s, rfl⟩
    · exact Raising.fromExcept fun e h => by cases h
  refine hdenied.bind fun denied s₁ _ => ?_
  exact (raising_setRow _).bind fun _ _ _ => raising_recordEvent_pure _ _

/-! ### Requests -/

omit [Content β] in
/-- A handler that returns what its response shows raises the same with that as its result. -/
theorem refusing_response {α : Type} {o : Option Exc} {x : SessionM β α} {f : α → Response}
    (h : Refusing o E x s) : Refusing o E ((Except.ok ∘ f) <$> x >>= fromExcept) s := by
  have hplain : ((Except.ok ∘ f) <$> x >>= fromExcept) = f <$> x := by
    rw [map_eq_pure_bind, map_eq_pure_bind, bind_assoc]
    rfl
  rw [hplain]
  exact h.map

omit [Content β] in
/-- The same where a restore may raise first what it finds out from the manifest. -/
theorem refused_response {α : Type} {r : Request β} {o : Option Exc} {x : SessionM β α} {f : α → Response}
    (h : Forestalled r o x s) : Forestalled r o ((Except.ok ∘ f) <$> x >>= fromExcept) s := by
  have hplain : ((Except.ok ∘ f) <$> x >>= fromExcept) = f <$> x := by
    rw [map_eq_pure_bind, map_eq_pure_bind, bind_assoc]
    rfl
  rw [hplain]
  cases o with
  | none => exact Raising.map h
  | some e =>
    obtain ⟨e', s', hraised, he⟩ := h
    exact ⟨e', s', map_eq_error.mpr hraised, he⟩

omit [Content β] in
theorem refusing_released {o : Option Exc} {x : SessionM β (Except Exc ExportRow)}
    (h : Refusing o E (x >>= fromExcept) s) :
    Refusing o E ((fun released => Response.export <$> released) <$> x >>= fromExcept) s := by
  have hplain : ((fun released => Response.export <$> released) <$> x >>= fromExcept) =
      Response.export <$> (x >>= fromExcept) := by
    rw [map_eq_pure_bind, map_eq_pure_bind, bind_assoc, bind_assoc]
    refine bind_congr fun released => ?_
    cases released <;> rfl
  rw [hplain]
  exact h.map

/-- **A handler raises what the rows refuse**, and otherwise only what comes from the disk. -/
theorem forestalled_handler (hs : Working env s.state) {r : Request β} (hwell : wellFormed r = true) :
    Forestalled r (App.refusal env now s.store r) (handler env now r >>= fromExcept) s := by
  cases r with
  | restoreSnapshot snapshotId labId requester => exact refused_response (forestalled_restoreSnapshot hs)
  | createLab profileName requester =>
    exact forestalled_of_refusing (refusing_response
      (refusing_createLabRecord hs.healthy.sound hs.provided fun _ => rfl))
  | destroyLab labId =>
    exact forestalled_of_refusing (refusing_response (refusing_destroyLab hs fun _ => rfl))
  | createSecretLease labId secretName requester ttl =>
    exact forestalled_of_refusing (refusing_response
      (refusing_createSecretLease hs (by simpa [wellFormed] using hwell)))
  | revokeSecretLease leaseId actor reason =>
    exact forestalled_of_refusing (refusing_response refusing_revokeSecretLease)
  | createRun labId command requester =>
    exact forestalled_of_refusing (refusing_response (refusing_createRunRecord hs))
  | enqueueSchedulerJob request =>
    exact forestalled_of_refusing (refusing_response (refusing_enqueueSchedulerJob hs hwell))
  | dispatchNextSchedulerJob =>
    exact forestalled_of_refusing (refusing_response refusing_dispatchNextSchedulerJob)
  | approveRequest approvalId actor comment =>
    exact forestalled_of_refusing (refusing_response (refusing_decideRequest hs))
  | denyRequest approvalId actor comment =>
    exact forestalled_of_refusing (refusing_response (refusing_decideRequest hs))
  | createSnapshot labId runId requester =>
    exact forestalled_of_refusing (refusing_response (refusing_createSnapshot hs fun _ => rfl))
  | createExport labId sourcePath runId requester =>
    exact forestalled_of_refusing (refusing_response (refusing_createExport hs))
  | releaseExport exportId => exact forestalled_of_refusing (refusing_released (refusing_releaseExport hs))
  | denyExport exportId reason => exact forestalled_of_refusing (refusing_response refusing_denyExport)
  | reconcile inventory destroys maxDestroyAttempts at' =>
    exact forestalled_of_refusing
      (refusing_response (Raising.of_ok (ReconciliationService.reconcile_eq _ _ _)))

end Handlers

section Answers

variable {s : State β} {r : Request β} {now : ℤ} {fates : List Fate} {e : Exc}

theorem refusal_of_malformed {st : Store} (h : wellFormed r = false) :
    App.refusal env now st r = some .requestValidation := by
  cases r with
  | createSecretLease labId secretName requester ttl =>
    have httl : ¬ (1 ≤ ttl ∧ ttl ≤ 24 * 60) := by simpa [wellFormed] using h
    rw [App.refusal, if_pos httl]
  | enqueueSchedulerJob request => rw [App.refusal, if_pos (show request.accepted = false from h)]
  | _ => cases h

/-- What the rows refuse is raised, inside the block or after its commit. -/
theorem answer_of_refusal (hs : Working env s) (h : App.refusal env now s.store r = some e) :
    ∃ e' s', answer env s r now fates = .error e' s' ∧
      (e' = e ∨ e' = .database ∧ e = releaseBlocked ∨
        e = .conflict "unsupported_snapshot_runtime" "snapshot" ∧ App.foundFirst r e' = true) := by
  unfold answer
  rw [respond_eq]
  by_cases hwell : wellFormed r = true
  · rw [if_pos hwell]
    have hforestalled : Forestalled r (App.refusal env now (s.session fates).store r)
        (handler env now r >>= fromExcept) (s.session fates) := forestalled_handler hs hwell
    rw [show (s.session fates).store = s.store from rfl, h] at hforestalled
    obtain ⟨e₁, s₁, hraised, he₁⟩ := hforestalled
    rcases bind_eq_error.mp hraised with hbody | ⟨result, s₂, hbody, hresult⟩
    · rw [withSession_of_error hbody]
      exact ⟨e₁, _, rfl, he₁.imp_right .inr⟩
    · obtain ⟨rfl, rfl⟩ := fromExcept_eq_error.mp hresult
      cases hblock : withSession (handler env now r) (s.session fates) with
      | ok result s₃ =>
        obtain ⟨s₄, hbody', -⟩ := withSession_eq_ok hblock
        obtain ⟨rfl, -⟩ := EStateM.Result.ok.inj (hbody.symm.trans hbody')
        exact ⟨e₁, s₃, rfl, he₁.imp_right .inr⟩
      | error e' s₃ =>
        have hblocked : e₁ = releaseBlocked := (handler_eq_ok_error hbody).1
        rcases he₁ with rfl | ⟨-, hfirst⟩
        · refine ⟨e', s₃, rfl, .inr (.inl ⟨?_, hblocked⟩)⟩
          rcases withSession_eq_error hblock with ⟨s₄, hbody'⟩ | he
          · cases hbody.symm.trans hbody'
          · exact he
        · -- only a restore finds something out first, and it raises inside the block
          rw [hblocked] at hfirst
          cases r <;> simp [App.foundFirst, releaseBlocked, App.manifestConflicts] at hfirst
  · rw [if_neg hwell]
    rw [refusal_of_malformed (Bool.eq_false_of_not_eq_true hwell)] at h
    obtain rfl := Option.some.inj h
    exact ⟨_, _, rfl, .inl rfl⟩

/-- What the rows do not refuse raises only what comes from the disk or the database. -/
theorem fromOutside_of_answer (hs : Working env s) (h : App.refusal env now s.store r = none) {s' : Session β}
    (hraised : answer env s r now fates = .error e s') : App.fromOutside r e = true := by
  have hwell : wellFormed r = true := by
    by_contra hwell
    rw [refusal_of_malformed (Bool.eq_false_of_not_eq_true hwell)] at h
    cases h
  have hforestalled : Forestalled r (App.refusal env now (s.session fates).store r)
      (handler env now r >>= fromExcept) (s.session fates) := forestalled_handler hs hwell
  rw [show (s.session fates).store = s.store from rfl, h] at hforestalled
  unfold answer at hraised
  rw [respond_eq, if_pos hwell] at hraised
  cases hblock : withSession (handler env now r) (s.session fates) with
  | ok result s₁ =>
    rw [hblock] at hraised
    obtain ⟨s₂, hbody, -⟩ := withSession_eq_ok hblock
    cases result with
    | ok response => cases hraised
    | error e' =>
      obtain ⟨rfl, -⟩ := EStateM.Result.error.inj hraised
      exact hforestalled e' s₂ (bind_eq_error.mpr (.inr ⟨_, s₂, hbody, rfl⟩))
  | error e' s₁ =>
    rw [hblock] at hraised
    obtain ⟨rfl, -⟩ := EStateM.Result.error.inj hraised
    rcases withSession_eq_error hblock with ⟨s₂, hbody⟩ | rfl
    · exact hforestalled e' s₂ (bind_eq_error.mpr (.inl hbody))
    · cases r <;> rfl

/-- **A request is refused as the rows say.** In every run, what `refusal` says of the rows is raised, and
has an error response. Only a release that an approval blocks commits first, so that a commit that fails is
raised in its place, and only a restore into a lab that is no container reads the manifest of its snapshot
first, and may raise what it finds there. Where `refusal` says nothing, what is raised comes from the disk or
the database. -/
theorem refused_exactly (env : Environment β) (hfiled : Filed env.profiles) (s₀ : State β)
    (h₀ : Initial env s₀) (actions : List (Action β)) (r : Request β) (now : ℤ) (fates : List Fate) :
    (∀ e, App.refusal env now (runFrom env s₀ actions).store r = some e →
      (∃ status body, App.errorResponse e = some (status, body) ∧ status ∈ [400, 404, 409, 422]) ∧
      ∃ e' s', answer env (runFrom env s₀ actions) r now fates = .error e' s' ∧
        (e' = e ∨ e' = .database ∧ e = releaseBlocked ∨
          e = .conflict "unsupported_snapshot_runtime" "snapshot" ∧ App.foundFirst r e' = true)) ∧
    (App.refusal env now (runFrom env s₀ actions).store r = none →
      ∀ e s', answer env (runFrom env s₀ actions) r now fates = .error e s' →
        App.fromOutside r e = true) := by
  have hs := working_of_run hfiled h₀ actions
  exact ⟨fun e h => ⟨App.answered_refusal r e h, answer_of_refusal hs h⟩,
    fun h e s' hraised => fromOutside_of_answer hs h hraised⟩

theorem filed_defaultProfiles : Filed defaultProfiles := by
  intro name profile h
  obtain ⟨entry, hentry, rfl⟩ := Option.map_eq_some_iff.mp h
  have hname : entry.1 = name := by simpa using List.find?_some hentry
  have hfiled : ∀ entry ∈ defaultProfiles, entry.2.name = entry.1 := by decide
  exact (hfiled entry (List.mem_of_find?_eq_some hentry)).trans hname

/-- A destroy of a lab that is destroyed is refused with status 409. -/
theorem refused_exactly_destroyPending :
    App.refusal (symbolic defaultProfiles) 2
      (runFrom (symbolic defaultProfiles) emptyState destroyPending).store
      (.destroyLab "a") = some (.conflict "lab_already_destroyed" "lab") ∧
    ∃ e' s', answer (symbolic defaultProfiles) (runFrom (symbolic defaultProfiles) emptyState destroyPending)
      (.destroyLab "a") 2 [] = .error e' s' ∧
      (e' = .conflict "lab_already_destroyed" "lab" ∨
        e' = .database ∧ Exc.conflict "lab_already_destroyed" "lab" = releaseBlocked ∨
        Exc.conflict "lab_already_destroyed" "lab" = .conflict "unsupported_snapshot_runtime" "snapshot" ∧
          App.foundFirst (.destroyLab "a" : Request Blob) e' = true) := by
  have hforestalled : App.refusal (symbolic defaultProfiles) 2
      (runFrom (symbolic defaultProfiles) emptyState destroyPending).store (.destroyLab "a") =
      some (.conflict "lab_already_destroyed" "lab") := by decide +kernel
  exact ⟨hforestalled, ((refused_exactly (symbolic defaultProfiles) filed_defaultProfiles emptyState
    (initial_emptyState _) destroyPending (.destroyLab "a") 2 []).1 _ hforestalled).2⟩

end Answers

end LabOS
