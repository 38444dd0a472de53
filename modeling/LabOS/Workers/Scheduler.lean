import LabOS.Config.Environment
import LabOS.Db.Session

/-!
# The scheduler

Jobs are queued under a quota for each requester. `runNext` takes the first job that is
due, marks it dispatched, runs its action in a savepoint, and stores how that went: a
job whose action raised is queued again until its attempts are used up.
-/

namespace LabOS

open Exceptional

variable {α β : Type}

/-- Try `x`, and go on with what it returned or raised. -/
def attempt (x : SessionM β α) : SessionM β (Except Exc α) := fun s =>
  match x s with
  | .ok a s' => .ok (.ok a) s'
  | .error e s' => .ok (.error e) s'

theorem attempt_eq_ok {x : SessionM β α} {r : Except Exc α} {s s' : Session β} :
    attempt x s = .ok r s' ↔ (∃ a, r = .ok a ∧ x s = .ok a s') ∨ ∃ e, r = .error e ∧ x s = .error e s' := by
  unfold attempt
  cases x s with
  | ok a s₁ => cases r <;> simp
  | error e s₁ => cases r <;> simp

/-- Trying never raises. -/
theorem attempt_ok (x : SessionM β α) (s : Session β) : ∃ outcome s', attempt x s = .ok outcome s' := by
  unfold attempt
  cases x s with
  | ok a s' => exact ⟨.ok a, s', rfl⟩
  | error e s' => exact ⟨.error e, s', rfl⟩

/-- A job as a request describes it. -/
structure SchedulerJobCreateRequest where
  action : SchedulerAction
  requesterId : String
  profileName : Option String := none
  labId : Option String := none
  command : Option String := none
  scheduledFor : Option DateTime := none
  maxAttempts : ℕ := 3

/-- What the request model accepts: the bounds of its fields and `validate_action_payload`. -/
def SchedulerJobCreateRequest.accepted (r : SchedulerJobCreateRequest) : Bool :=
  r.requesterId ≠ "" && 1 ≤ r.maxAttempts && r.maxAttempts ≤ 10 &&
    match r.action with
    | .createLab => r.profileName.isSome && r.labId.isNone && r.command.isNone
    | .startRun => r.labId.isSome && r.command.isSome && r.profileName.isNone

namespace SchedulerService

/-- The order of the queue: `scheduled_for`, `created_at`, `id`. -/
def before (a b : SchedulerJobRow) : Prop :=
  a.scheduledFor.wall < b.scheduledFor.wall ∨ a.scheduledFor.wall = b.scheduledFor.wall ∧
    (a.createdAt.wall < b.createdAt.wall ∨ a.createdAt.wall = b.createdAt.wall ∧ a.id ≤ b.id)

instance : DecidableRel before := fun a b => by unfold before; infer_instance

/-- The jobs a requester has waiting. -/
def pendingCount (store : Store) (requesterId : String) : ℕ :=
  (store.schedulerJobs.rows.filter fun job =>
    job.requesterId = requesterId && (job.state = .queued || job.state = .dispatched)).length

def enqueue [Content β] (env : Environment β) (now : ℤ) (request : SchedulerJobCreateRequest) :
    SessionM β SchedulerJobRow := do
  let s ← get
  raiseIf (env.maxPendingJobsPerRequester ≤ pendingCount s.store request.requesterId) .schedulerQuotaExceeded
  let id ← newId env.uuid4
  let row : SchedulerJobRow := {
    id := id
    action := request.action
    state := .queued
    requesterId := request.requesterId
    profileName := request.profileName
    labId := request.labId
    command := request.command
    scheduledFor := (request.scheduledFor.getD (.utc now)).column
    attemptCount := 0
    maxAttempts := request.maxAttempts
    createdAt := (DateTime.utc now).column
  }
  addRow .schedulerJobs row
  return row

/-- `list_jobs`. -/
def listJobs (store : Store) : List SchedulerJobRow := store.schedulerJobs.select (fun _ => true) before

/-- The first queued job that is due, as the select of `run_next` finds it. -/
def nextJob (store : Store) (now : ℤ) : Option SchedulerJobRow :=
  (store.schedulerJobs.select (fun job => job.state = .queued && job.scheduledFor.wall ≤ now) before).head?

/-- What the savepoint of `run_next` runs: the resource created, by its type and id. -/
def action (createLab : String → SessionM β String) (createRun : String → String → SessionM β String)
    (job : SchedulerJobRow) : SessionM β (String × String) :=
  match job.action with
  | .createLab => do
    let profileName ← orRaise job.profileName .assertion
    let id ← createLab profileName
    return ("lab", id)
  | .startRun => do
    let labId ← orRaise job.labId .assertion
    let command ← orRaise job.command .assertion
    let id ← createRun labId command
    return ("run", id)

/-- The action of a job that returns has created a lab of the job's profile, or a run in the job's lab. -/
theorem action_eq_ok {createLab : String → SessionM β String}
    {createRun : String → String → SessionM β String} {job : SchedulerJobRow} {result : String × String}
    {s s' : Session β} (h : action createLab createRun job s = .ok result s') :
    (∃ profileName id, job.action = .createLab ∧ job.profileName = some profileName ∧
      createLab profileName s = .ok id s' ∧ result = ("lab", id)) ∨
    ∃ labId command id, job.action = .startRun ∧ job.labId = some labId ∧ job.command = some command ∧
      createRun labId command s = .ok id s' ∧ result = ("run", id) := by
  unfold action at h
  cases hact : job.action with
  | createLab =>
    simp only [hact, bind_eq_ok, orRaise_eq_ok, pure_eq_ok] at h
    obtain ⟨profileName, _, ⟨hprofile, rfl⟩, id, _, hid, rfl, rfl⟩ := h
    exact .inl ⟨profileName, id, rfl, hprofile, hid, rfl⟩
  | startRun =>
    simp only [hact, bind_eq_ok, orRaise_eq_ok, pure_eq_ok] at h
    obtain ⟨labId, _, ⟨hlab, rfl⟩, command, _, ⟨hcommand, rfl⟩, id, _, hid, rfl, rfl⟩ := h
    exact .inr ⟨labId, command, id, rfl, hlab, hcommand, hid, rfl⟩

/-- The job when it is claimed. -/
def claimed (now : ℤ) (job : SchedulerJobRow) : SchedulerJobRow :=
  { job with
    state := .dispatched
    attemptCount := job.attemptCount + 1
    dispatchedAt := some (DateTime.utc now).column
    lastError := none }

/-- The claimed job after its action went as `outcome` says. -/
def settled (now : ℤ) (job : SchedulerJobRow) : Except Exc (String × String) → SchedulerJobRow
  | .error e =>
    if job.maxAttempts ≤ job.attemptCount then
      { job with lastError := some e.text, state := .failed, completedAt := some (DateTime.utc now).column }
    else { job with lastError := some e.text, state := .queued }
  | .ok (resourceType, resourceId) =>
    { job with
      state := .succeeded
      completedAt := some (DateTime.utc now).column
      resultResourceType := some resourceType
      resultResourceId := some resourceId
      lastError := none }

@[simp] theorem settled_id (now : ℤ) (job : SchedulerJobRow) (outcome : Except Exc (String × String)) :
    (settled now job outcome).id = job.id := by
  cases outcome with
  | error e => by_cases h : job.maxAttempts ≤ job.attemptCount <;> simp [settled, h]
  | ok result => rfl

/-- A job whose action failed keeps its result. -/
theorem settled_error_result (selectedAt now : ℤ) (job : SchedulerJobRow) (e : Exc) :
    (settled now (claimed selectedAt job) (.error e)).resultResourceType = job.resultResourceType ∧
      (settled now (claimed selectedAt job) (.error e)).resultResourceId = job.resultResourceId := by
  by_cases hlast : job.maxAttempts ≤ job.attemptCount + 1 <;> simp [settled, claimed, hlast]

/-- `run_next` from the job it selected on. -/
def runJob (now : ℤ) (createLab : String → SessionM β String)
    (createRun : String → String → SessionM β String) (job : SchedulerJobRow) :
    SessionM β SchedulerJobRow := do
  let job := claimed now job
  setRow .schedulerJobs job
  let outcome ← attempt (rollingBack (action createLab createRun job))
  let job := settled now job outcome
  setRow .schedulerJobs job
  return job

def runNext (now : ℤ) (createLab : String → SessionM β String)
    (createRun : String → String → SessionM β String) :
    SessionM β (Option SchedulerJobRow) := do
  let s ← get
  match nextJob s.store now with
  | none => pure none
  | some job => do
    let job ← runJob now createLab createRun job
    pure (some job)

end SchedulerService

end LabOS
