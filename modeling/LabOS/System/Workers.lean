import LabOS.Library.Columns
import LabOS.System.Jobs

/-!
# Scheduler requests that overlap

Two requests of the scheduler read before they write: an enqueue counts the pending jobs
of its requester, and a dispatch selects the job it will run. What they read is what is
committed at that moment, and nothing keeps it so until they commit. Here such a request
is two steps, between which others take theirs; the second is the rest of its handler,
whose flushes write only the columns that changed.

## What is proved

* `dispatch_serial`, `enqueue_serial` — the two steps of a request right after each other
  are its handler.
* `quota_of_workers` — **the quota holds** as long as the count is still below it when a job
  is added; `quota_exceeded` is a run in which it is not.
* `one_resource_of_workers` — **a job makes one resource at most** as long as no dispatch
  commits on a job that has succeeded; `job_dispatched_twice` is a job that makes two labs.
-/

namespace LabOS

open Exceptional SchedulerService

variable {β : Type} [Content β]

/-! ### Flushes -/

instance : Columnar SchedulerJobRow where
  merge base new cur := {
    id := pick base.id new.id cur.id
    action := pick base.action new.action cur.action
    state := pick base.state new.state cur.state
    requesterId := pick base.requesterId new.requesterId cur.requesterId
    profileName := pick base.profileName new.profileName cur.profileName
    labId := pick base.labId new.labId cur.labId
    command := pick base.command new.command cur.command
    scheduledFor := pick base.scheduledFor new.scheduledFor cur.scheduledFor
    attemptCount := pick base.attemptCount new.attemptCount cur.attemptCount
    maxAttempts := pick base.maxAttempts new.maxAttempts cur.maxAttempts
    lastError := pick base.lastError new.lastError cur.lastError
    resultResourceType := pick base.resultResourceType new.resultResourceType cur.resultResourceType
    resultResourceId := pick base.resultResourceId new.resultResourceId cur.resultResourceId
    dispatchedAt := pick base.dispatchedAt new.dispatchedAt cur.dispatchedAt
    completedAt := pick base.completedAt new.completedAt cur.completedAt
    createdAt := pick base.createdAt new.createdAt cur.createdAt }
  merge_self base cur := by simp
  merge_current base new := by simp

/-- Flush a job that was read as `base` and is now `new`. -/
def flushJob (base new : SchedulerJobRow) : SessionM β Unit := do
  let cur ← getOr .schedulerJobs base.id .database
  setRow .schedulerJobs (Columnar.merge base new cur)

/-- `enqueue_scheduler_job` after the count. -/
def insertJob (env : Environment β) (now : ℤ) (request : SchedulerJobCreateRequest) :
    SessionM β SchedulerJobRow := do
  let id ← newId env.uuid4
  let row : SchedulerJobRow := {
    id := id
    action := request.action
    state := .queued
    requesterId := request.requesterId
    profileName := request.profileName
    labId := request.labId
    command := request.command
    scheduledFor := (request.scheduledFor.getD (.utc now)).column
    attemptCount := 0
    maxAttempts := request.maxAttempts
    createdAt := (DateTime.utc now).column
  }
  addRow .schedulerJobs row
  recordEvent {
    eventType := "scheduler_job.enqueued"
    actorType := .scheduler
    actorId := some request.requesterId
    resourceType := some "scheduler_job"
    resourceId := some row.id
    payload := [
      ("action", .str row.action.value),
      ("scheduled_for", .int row.scheduledFor.wall),
      ("max_attempts", .int row.maxAttempts)] }
  return row

/-- `dispatch_next_scheduler_job` after the select, which found `job` at the time `selectedAt`. -/
def settleJob (env : Environment β) (selectedAt now : ℤ) (job : SchedulerJobRow) :
    SessionM β SchedulerJobRow := do
  flushJob job (claimed selectedAt job)
  let outcome ← attempt (rollingBack
    (action (App.createJobLab env now) (App.createJobRun env now) (claimed selectedAt job)))
  let row := settled now (claimed selectedAt job) outcome
  flushJob (claimed selectedAt job) row
  App.recordDispatch row
  return row

/-! ### Requests in two steps -/

/-- What is left of a request that has read. -/
inductive Waiting where
  | insert (request : SchedulerJobCreateRequest)
  | settle (job : SchedulerJobRow) (selectedAt : ℤ)

/-- The rest of a request, in its session. -/
def Waiting.run (env : Environment β) (now : ℤ) : Waiting → SessionM β SchedulerJobRow
  | .insert request => withSession (insertJob env now request)
  | .settle job selectedAt => withSession (settleJob env selectedAt now job)

/-- A resource made by a dispatch: its job, its type and its id. -/
abbrev Made := String × String × String

/-- The labs and runs of `st'` that are not in `st`, made by a job. -/
def created (st st' : Store) (jobId : String) : List Made :=
  (st'.labs.rows.filter fun lab => (st.labs.get? lab.id).isNone).map (fun lab => (jobId, "lab", lab.id)) ++
    (st'.runs.rows.filter fun run => (st.runs.get? run.id).isNone).map fun run => (jobId, "run", run.id)

/-- What a request makes of a store. -/
def Waiting.made (st st' : Store) : Waiting → List Made
  | .insert _ => []
  | .settle job _ => created st st' job.id

/-- The committed state, the requests that have read, and what dispatches have made. -/
structure Workers (β : Type) where
  state : State β
  waiting : List Waiting
  made : List Made

/-- The state before any request. -/
def Workers.start (s : State β) : Workers β := ⟨s, [], []⟩

/-- Does the action dispatch a job? -/
def Action.dispatches : Action β → Bool
  | .request .dispatchNextSchedulerJob _ _ => true
  | _ => false

inductive WorkerStep (β : Type) where
  /-- An enqueue counts. -/
  | count (request : SchedulerJobCreateRequest)
  /-- A dispatch selects. -/
  | select (now : ℤ)
  /-- The request at a place of the list writes and commits. -/
  | commit (i : ℕ) (now : ℤ) (fates : List Fate)
  /-- Any other request, or an enqueue, as a whole. -/
  | other (a : Action β) (h : a.dispatches = false)

def workerStep (env : Environment β) (s : Workers β) : WorkerStep β → Workers β
  | .count request =>
    if request.accepted ∧ pendingCount s.state.store request.requesterId < env.maxPendingJobsPerRequester then
      { s with waiting := s.waiting ++ [.insert request] }
    else s
  | .select now =>
    match nextJob s.state.store now with
    | none => s
    | some job => { s with waiting := s.waiting ++ [.settle job now] }
  | .commit i now fates =>
    match s.waiting[i]? with
    | none => s
    | some request =>
      let state := (endState (request.run env now (s.state.session fates))).state
      { state := state
        waiting := s.waiting.eraseIdx i
        made := s.made ++ request.made s.state.store state.store }
  | .other a _ => { s with state := step env s.state a }

/-! ### The two steps as one -/

theorem keepsKey_schedulerJobs : Columnar.KeepsKey SchedulerJobRow.id :=
  Columnar.keepsKey_of_pick fun _ _ _ => rfl

omit [Content β] in
theorem flushJob_eq_ok {base new : SchedulerJobRow} {u : Unit} {s s' : Session β} :
    flushJob base new s = .ok u s' ↔ ∃ cur, s.store.schedulerJobs.get? base.id = some cur ∧
      { s with store := { s.store with schedulerJobs := s.store.schedulerJobs.put (Columnar.merge base new cur) } } = s' := by
  unfold flushJob
  rw [bind_eq_ok]
  constructor
  · rintro ⟨cur, _, hget, hset⟩
    obtain ⟨hcur, rfl⟩ := getOr_eq_ok.mp hget
    exact ⟨cur, hcur, setRow_eq_ok.mp hset⟩
  · rintro ⟨cur, hcur, hset⟩
    exact ⟨cur, s, getOr_eq_ok.mpr ⟨hcur, rfl⟩, setRow_eq_ok.mpr hset⟩

theorem enqueue_serial {env : Environment β} {now : ℤ} {request : SchedulerJobCreateRequest} {s : Session β}
    (h : pendingCount s.store request.requesterId < env.maxPendingJobsPerRequester) :
    App.enqueueSchedulerJob env now request s = insertJob env now request s := by
  have hquota : ¬ env.maxPendingJobsPerRequester ≤ pendingCount s.store request.requesterId := by omega
  unfold App.enqueueSchedulerJob insertJob SchedulerService.enqueue
  by_cases hthere : (s.store.schedulerJobs.get? (env.uuid4 s.minted)).isSome
  · simp [bind, EStateM.bind, EStateM.adaptExcept, pure, EStateM.pure, get_run, modify_run,
      throw_run, raiseIf, newId,
      addRow, getRow, hquota, hthere]
  · simp [bind, EStateM.bind, EStateM.adaptExcept, pure, EStateM.pure, get_run, modify_run,
      raiseIf, newId, addRow,
      getRow, onStore, recordEvent, hquota, hthere]

/-- What the action of a job does to the rows: nothing when it raises, or it creates a lab or a run. -/
theorem attempt_action_eq_ok {env : Environment β} {now : ℤ} {job : SchedulerJobRow}
    {outcome : Except Exc (String × String)} {s s' : Session β}
    (h : attempt (rollingBack (action (App.createJobLab env now) (App.createJobRun env now) job)) s =
      .ok outcome s') :
    (∃ e, outcome = .error e ∧ s'.store = s.store) ∨
    (∃ profileName lab storage approvals, outcome = .ok ("lab", lab.id) ∧
      NewLab env profileName .scheduler s.minted s'.minted s.store lab storage approvals ∧
      s'.store = { s.store with
        labs := s.store.labs.put lab, labStorage := s.store.labStorage.put storage
        approvals := approvals, events := s'.store.events }) ∨
    ∃ labId run, outcome = .ok ("run", run.id) ∧ NewRun env s.minted s'.minted s.store labId run ∧
      s'.store = { s.store with runs := s.store.runs.put run, events := s'.store.events } := by
  rcases attempt_eq_ok.mp h with ⟨result, rfl, haction⟩ | ⟨e, rfl, haction⟩
  · rcases action_eq_ok (rollingBack_eq_ok.mp haction) with
      ⟨profileName, id, -, -, hcreate, rfl⟩ | ⟨labId, command, id, -, -, -, hcreate, rfl⟩
    · simp only [App.createJobLab, bind_eq_ok, pure_eq_ok] at hcreate
      obtain ⟨lab, _, hcreate, rfl, rfl⟩ := hcreate
      obtain ⟨storage, approvals, new, hstore⟩ := createLabRecord_eq_ok hcreate
      exact .inr (.inl ⟨profileName, lab, storage, approvals, rfl, new, hstore⟩)
    · simp only [App.createJobRun, bind_eq_ok, pure_eq_ok] at hcreate
      obtain ⟨run, _, hcreate, rfl, rfl⟩ := hcreate
      obtain ⟨new, hstore⟩ := createRunRecord_eq_ok hcreate
      exact .inr (.inr ⟨labId, run, rfl, new, hstore⟩)
  · exact .inl ⟨e, rfl, store_of_rollingBack_error haction⟩

theorem schedulerJobs_of_attempt {env : Environment β} {now : ℤ} {job : SchedulerJobRow}
    {outcome : Except Exc (String × String)} {s s' : Session β}
    (h : attempt (rollingBack (action (App.createJobLab env now) (App.createJobRun env now) job)) s =
      .ok outcome s') :
    s'.store.schedulerJobs = s.store.schedulerJobs := by
  rcases attempt_action_eq_ok h with ⟨e, -, hstore⟩ | ⟨_, _, _, _, -, -, hstore⟩ | ⟨_, _, -, -, hstore⟩
  all_goals rw [hstore]

theorem dispatch_serial {env : Environment β} {now : ℤ} {job : SchedulerJobRow} {s : Session β}
    (h : nextJob s.store now = some job) :
    App.dispatchNextSchedulerJob env now s = settleJob env now now job s := by
  obtain ⟨hjob, -⟩ := nextJob_eq_some h
  obtain ⟨outcome, s₁, hattempt⟩ := attempt_ok
    (rollingBack (action (App.createJobLab env now) (App.createJobRun env now) (claimed now job)))
    { s with store := { s.store with schedulerJobs := s.store.schedulerJobs.put (claimed now job) } }
  have hclaim : flushJob job (claimed now job) s = .ok ()
      { s with store := { s.store with schedulerJobs := s.store.schedulerJobs.put (claimed now job) } } :=
    flushJob_eq_ok.mpr ⟨job, hjob, by rw [Columnar.merge_current]⟩
  have hsettle : flushJob (claimed now job) (settled now (claimed now job) outcome) s₁ = .ok () { s₁ with
      store := { s₁.store with schedulerJobs := s₁.store.schedulerJobs.put (settled now (claimed now job) outcome) } } := by
    refine flushJob_eq_ok.mpr ⟨claimed now job, ?_, by rw [Columnar.merge_current]⟩
    rw [schedulerJobs_of_attempt hattempt]
    exact Table.get?_put_self _ _
  have hnext := runNext_eq_ok.mpr ⟨job, outcome, s₁, h, hattempt, rfl, rfl⟩
  unfold App.dispatchNextSchedulerJob settleJob
  rw [bind_run_of_ok hnext, bind_run_of_ok hclaim, bind_run_of_ok hattempt, bind_run_of_ok hsettle]
  rfl

/-! ### What the second step does -/

/-- The row of a job after a dispatch that read it as `job`, where it is `cur` by then. -/
def storedJob (selectedAt now : ℤ) (job cur : SchedulerJobRow) (outcome : Except Exc (String × String)) :
    SchedulerJobRow :=
  Columnar.merge (claimed selectedAt job) (settled now (claimed selectedAt job) outcome)
    (Columnar.merge job (claimed selectedAt job) cur)

/-- What the rest of a dispatch may make of the rows. -/
inductive Settles (selectedAt now : ℤ) (job : SchedulerJobRow) (st : Store) : Store → Prop where
  | aborted : Settles selectedAt now job st st
  | failed {cur e evs} (h : st.schedulerJobs.get? job.id = some cur) : Settles selectedAt now job st { st with
      schedulerJobs := st.schedulerJobs.put (storedJob selectedAt now job cur (.error e)), events := evs }
  | madeLab {cur lab storage approvals evs} (h : st.schedulerJobs.get? job.id = some cur)
      (fresh : st.labs.get? lab.id = none) : Settles selectedAt now job st { st with
        labs := st.labs.put lab, labStorage := st.labStorage.put storage, approvals := approvals
        schedulerJobs := st.schedulerJobs.put
          (storedJob selectedAt now job cur (.ok ("lab", lab.id))), events := evs }
  | madeRun {cur run evs} (h : st.schedulerJobs.get? job.id = some cur) (fresh : st.runs.get? run.id = none) :
      Settles selectedAt now job st { st with
        runs := st.runs.put run
        schedulerJobs := st.schedulerJobs.put
          (storedJob selectedAt now job cur (.ok ("run", run.id))), events := evs }

omit [Content β] in
theorem storedJob_id {selectedAt now : ℤ} {job cur : SchedulerJobRow}
    {outcome : Except Exc (String × String)} : (storedJob selectedAt now job cur outcome).id = cur.id := by
  simp [storedJob, Columnar.merge, claimed]

theorem settleJob_eq_ok {env : Environment β} {selectedAt now : ℤ} {job row : SchedulerJobRow}
    {s s' : Session β} (h : settleJob env selectedAt now job s = .ok row s') :
    Settles selectedAt now job s.store s'.store := by
  simp only [settleJob, bind_eq_ok, flushJob_eq_ok, pure_eq_ok] at h
  obtain ⟨_, _, ⟨cur, hcur, rfl⟩, outcome, s₁, hattempt, _, _, ⟨cur', hcur', rfl⟩, _, s₂,
      hrecord, rfl, rfl⟩ := h
  have hjobs := schedulerJobs_of_attempt hattempt
  have hid : (Columnar.merge job (claimed selectedAt job) cur).id = job.id :=
    (keepsKey_schedulerJobs _ _ _ rfl).trans (Table.key_of_get? hcur)
  have hcur' : cur' = Columnar.merge job (claimed selectedAt job) cur := by
    rw [hjobs, show (claimed selectedAt job).id =
      (Columnar.merge job (claimed selectedAt job) cur).id from hid.symm,
      Table.get?_put_self] at hcur'
    exact (Option.some.inj hcur').symm
  have hput : (s.store.schedulerJobs.put (Columnar.merge job (claimed selectedAt job) cur)).put
      (Columnar.merge (claimed selectedAt job) (settled now (claimed selectedAt job) outcome)
        (Columnar.merge job (claimed selectedAt job) cur)) =
        s.store.schedulerJobs.put (storedJob selectedAt now job cur outcome) :=
    Table.put_put (hid.trans (storedJob_id.trans (Table.key_of_get? hcur)).symm)
  rcases attempt_action_eq_ok hattempt with ⟨e, rfl, hstore⟩ |
    ⟨profileName, lab, storage, approvals, rfl, new, hstore⟩ |
    ⟨labId, run, rfl, new, hstore⟩
  · rw [recordDispatch_eq_ok hrecord, hjobs, hcur', hstore]
    simp only [hput]
    exact .failed hcur
  · rw [recordDispatch_eq_ok hrecord, hjobs, hcur', hstore]
    simp only [hput]
    exact .madeLab hcur new.fresh
  · rw [recordDispatch_eq_ok hrecord, hjobs, hcur', hstore]
    simp only [hput]
    exact .madeRun hcur new.fresh

theorem insertJob_eq_ok {env : Environment β} {now : ℤ} {request : SchedulerJobCreateRequest}
    {row : SchedulerJobRow} {s s' : Session β} (h : insertJob env now request s = .ok row s') :
    s.store.schedulerJobs.get? row.id = none ∧ row.state = .queued ∧ row.requesterId = request.requesterId ∧
      row.resultResourceType = none ∧ row.resultResourceId = none ∧
      s'.store = { s.store with schedulerJobs := s.store.schedulerJobs.put row, events := s'.store.events } := by
  simp [insertJob, bind_eq_ok] at h
  obtain ⟨hfresh, rfl, rfl⟩ := h
  exact ⟨hfresh, rfl, rfl, rfl, rfl, rfl⟩

/-- What the rest of an enqueue may make of the rows. -/
inductive Inserts (request : SchedulerJobCreateRequest) (st : Store) : Store → Prop where
  | aborted : Inserts request st st
  | queued {row evs} (fresh : st.schedulerJobs.get? row.id = none) (state : row.state = .queued)
      (requester : row.requesterId = request.requesterId)
      (result : row.resultResourceType = none ∧ row.resultResourceId = none) :
      Inserts request st { st with schedulerJobs := st.schedulerJobs.put row, events := evs }

theorem inserts_of_run (env : Environment β) (now : ℤ) (request : SchedulerJobCreateRequest) (s : Session β) :
    Inserts request s.store (endState ((Waiting.insert request).run env now s)).store := by
  show Inserts request s.store (endState (withSession (insertJob env now request) s)).store
  rcases store_of_withSession (insertJob env now request) s with hstore | ⟨row, s₁, hbody, hstore, -⟩
  · rw [hstore]
    exact .aborted
  · obtain ⟨hfresh, hstate, hrequester, htype, hid, hinserted⟩ := insertJob_eq_ok hbody
    rw [hstore, hinserted]
    exact .queued hfresh hstate hrequester ⟨htype, hid⟩

theorem settles_of_run (env : Environment β) (selectedAt now : ℤ) (job : SchedulerJobRow) (s : Session β) :
    Settles selectedAt now job s.store (endState ((Waiting.settle job selectedAt).run env now s)).store := by
  show Settles selectedAt now job s.store (endState (withSession (settleJob env selectedAt now job) s)).store
  rcases store_of_withSession (settleJob env selectedAt now job) s with hstore | ⟨row, s₁, hbody, hstore, -⟩
  · rw [hstore]
    exact .aborted
  · rw [hstore]
    exact settleJob_eq_ok hbody

/-! ### The quota -/

/-- Is the job of the requester, and pending? -/
def pends (requesterId : String) (job : SchedulerJobRow) : Bool :=
  job.requesterId = requesterId && (job.state = .queued || job.state = .dispatched)

theorem pendingCount_eq (st : Store) (requesterId : String) :
    pendingCount st requesterId = st.schedulerJobs.rows.countP (pends requesterId) :=
  List.countP_eq_length_filter.symm

/-- No requester has more jobs pending than the quota. -/
def Quota (env : Environment β) (st : Store) : Prop :=
  ∀ requesterId, pendingCount st requesterId ≤ env.maxPendingJobsPerRequester

section Quota

variable {env : Environment β} {st st' : Store}

/-- A job added where its requester is below the quota. -/
theorem quota_of_added {row : SchedulerJobRow} (hst : Quota env st)
    (hjobs : st'.schedulerJobs = st.schedulerJobs.put row) (hfresh : st.schedulerJobs.get? row.id = none)
    (hbelow : pendingCount st row.requesterId < env.maxPendingJobsPerRequester) : Quota env st' := by
  intro requesterId
  have hcount : pendingCount st' requesterId =
      pendingCount st requesterId + if pends requesterId row then 1 else 0 := by
    rw [pendingCount_eq, pendingCount_eq, hjobs]
    exact Table.countP_put_of_fresh hfresh _
  have hle := hst requesterId
  by_cases hrequester : row.requesterId = requesterId
  · subst hrequester
    split at hcount <;> omega
  · have hpends : pends requesterId row = false := by simp [pends, hrequester]
    rw [hpends] at hcount
    simp only [Bool.false_eq_true, if_false] at hcount
    omega

/-- A job stored where it was pending before, is not now, or its requester is below the quota. -/
theorem quota_of_stored {cur row : SchedulerJobRow} (hst : Quota env st)
    (hjobs : st'.schedulerJobs = st.schedulerJobs.put row) (hcur : st.schedulerJobs.get? row.id = some cur)
    (hrequester : row.requesterId = cur.requesterId)
    (hkept : row.state ≠ .queued ∧ row.state ≠ .dispatched ∨ cur.state = .queued ∨ cur.state = .dispatched ∨
      pendingCount st cur.requesterId < env.maxPendingJobsPerRequester) : Quota env st' := by
  intro requesterId
  have hcount : pendingCount st' requesterId + (if pends requesterId cur then 1 else 0) =
      pendingCount st requesterId + if pends requesterId row then 1 else 0 := by
    rw [pendingCount_eq, pendingCount_eq, hjobs]
    exact Table.countP_put hcur _
  have hle := hst requesterId
  by_cases hr : cur.requesterId = requesterId
  · rcases hkept with ⟨hqueued, hdispatched⟩ | hqueued | hdispatched | hbelow
    · have hpends : pends requesterId row = false := by simp [pends, hqueued, hdispatched]
      rw [hpends] at hcount
      simp only [Bool.false_eq_true, if_false] at hcount
      omega
    · have hpends : pends requesterId cur = true := by simp [pends, hr, hqueued]
      simp only [hpends, if_true] at hcount
      split at hcount <;> omega
    · have hpends : pends requesterId cur = true := by simp [pends, hr, hdispatched]
      simp only [hpends, if_true] at hcount
      split at hcount <;> omega
    · rw [hr] at hbelow
      split at hcount <;> split at hcount <;> omega
  · have hpends : pends requesterId row = false := by simp [pends, hrequester, hr]
    rw [hpends] at hcount
    simp only [Bool.false_eq_true, if_false] at hcount
    omega

theorem settled_requesterId (now : ℤ) (job : SchedulerJobRow) (outcome : Except Exc (String × String)) :
    (settled now job outcome).requesterId = job.requesterId := by
  cases outcome with
  | error e => by_cases h : job.maxAttempts ≤ job.attemptCount <;> simp [settled, h]
  | ok result => rfl

theorem storedJob_requesterId {selectedAt now : ℤ} {job cur : SchedulerJobRow}
    {outcome : Except Exc (String × String)} :
    (storedJob selectedAt now job cur outcome).requesterId = cur.requesterId := by
  simp only [storedJob, Columnar.merge, settled_requesterId, pick_self]
  exact pick_self _ _

/-- A job that was queued when it was read is stored in the state it was settled in. -/
theorem storedJob_state {selectedAt now : ℤ} {job cur : SchedulerJobRow}
    {outcome : Except Exc (String × String)} (h : job.state = .queued) :
    (storedJob selectedAt now job cur outcome).state =
    (settled now (claimed selectedAt job) outcome).state := by
  simp [storedJob, Columnar.merge, claimed, h, pick_of_ne]

theorem settled_state {selectedAt now : ℤ} {job : SchedulerJobRow} {outcome : Except Exc (String × String)} :
    (settled now (claimed selectedAt job) outcome).state ≠ .dispatched ∧
      (job.maxAttempts ≤ job.attemptCount + 1 →
        (settled now (claimed selectedAt job) outcome).state ≠ .queued) := by
  cases outcome with
  | error e => by_cases h : job.maxAttempts ≤ job.attemptCount + 1 <;> simp [settled, claimed, h]
  | ok result => simp [settled]

/-- What a dispatch stores where the job was pending still, or its requester is below the quota, or no
attempt is left. -/
theorem quota_of_settles {selectedAt now : ℤ} {job : SchedulerJobRow} (hst : Quota env st)
    (h : Settles selectedAt now job st st') (hqueued : job.state = .queued)
    (hkept : job.maxAttempts ≤ job.attemptCount + 1 ∨ ∀ cur, st.schedulerJobs.get? job.id = some cur →
      cur.state = .queued ∨ cur.state = .dispatched ∨
        pendingCount st cur.requesterId < env.maxPendingJobsPerRequester) : Quota env st' := by
  have hstored : ∀ cur outcome, st.schedulerJobs.get? job.id = some cur →
      st'.schedulerJobs = st.schedulerJobs.put (storedJob selectedAt now job cur outcome) →
        Quota env st' := by
    intro cur outcome hcur hjobs
    have hid : (storedJob selectedAt now job cur outcome).id = job.id :=
      storedJob_id.trans (Table.key_of_get? hcur)
    refine quota_of_stored hst hjobs (by rw [hid]; exact hcur) storedJob_requesterId ?_
    rw [storedJob_state hqueued]
    rcases hkept with hlast | hkept
    · exact .inl ⟨settled_state.2 hlast, settled_state.1⟩
    · exact .inr (hkept cur hcur)
  cases h with
  | aborted => exact hst
  | failed hcur => exact hstored _ _ hcur rfl
  | madeLab hcur fresh => exact hstored _ _ hcur rfl
  | madeRun hcur fresh => exact hstored _ _ hcur rfl

theorem quota_of_inserts {request : SchedulerJobCreateRequest} (hst : Quota env st)
    (h : Inserts request st st')
    (hbelow : pendingCount st request.requesterId < env.maxPendingJobsPerRequester) : Quota env st' := by
  cases h with
  | aborted => exact hst
  | queued fresh state requester result => exact quota_of_added hst rfl fresh (by rwa [requester])

/-- Any other request, as a whole. -/
theorem quota_of_effect {now : ℤ} {r : Request β} {fates : List Fate} {m m' : ℕ}
    (hr : (Action.request r now fates).dispatches = false) (h : Effect env now r m m' st st')
    (hst : Quota env st) :
    Quota env st' := by
  cases h with
  | jobQueued new => exact quota_of_added hst rfl new.fresh (by rw [new.requester]; exact new.quota)
  | jobFailed next => cases hr
  | jobMadeLab next action profile new => cases hr
  | jobMadeRun next action payload new => cases hr
  | reconciled sweeps =>
    intro requesterId
    rw [pendingCount_eq, schedulerJobs_of_sweeps sweeps, ← pendingCount_eq]
    exact hst requesterId
  | _ => exact hst

end Quota

/-- A commit keeps the quota: the requester of the job it adds is below it, and so is that of a job it may
queue again though the job has finished meanwhile. -/
def KeepsQuota (env : Environment β) (s : Workers β) : WorkerStep β → Prop
  | .commit i _ _ =>
    match s.waiting[i]? with
    | some (.insert request) =>
        pendingCount s.state.store request.requesterId < env.maxPendingJobsPerRequester
    | some (.settle job _) => job.maxAttempts ≤ job.attemptCount + 1 ∨
        ∀ cur ∈ s.state.store.schedulerJobs.get? job.id, cur.state = .queued ∨ cur.state = .dispatched ∨
          pendingCount s.state.store cur.requesterId < env.maxPendingJobsPerRequester
    | none => True
  | _ => True

instance (env : Environment β) (s : Workers β) (a : WorkerStep β) : Decidable (KeepsQuota env s a) :=
  match a with
  | .commit i _ _ =>
    match h : s.waiting[i]? with
    | some (.insert request) => decidable_of_iff
        (pendingCount s.state.store request.requesterId < env.maxPendingJobsPerRequester)
          (by simp [KeepsQuota, h])
    | some (.settle job _) => decidable_of_iff (job.maxAttempts ≤ job.attemptCount + 1 ∨
        ∀ cur ∈ s.state.store.schedulerJobs.get? job.id, cur.state = .queued ∨ cur.state = .dispatched ∨
          pendingCount s.state.store cur.requesterId < env.maxPendingJobsPerRequester)
            (by simp [KeepsQuota, h])
    | none => isTrue (by simp [KeepsQuota, h])
  | .count _ => isTrue trivial
  | .select _ => isTrue trivial
  | .other _ _ => isTrue trivial

/-- The invariant: the quota holds, and what a dispatch selected was queued. -/
structure QuotaInv (env : Environment β) (s : Workers β) : Prop where
  quota : Quota env s.state.store
  selected : ∀ job selectedAt, Waiting.settle job selectedAt ∈ s.waiting → job.state = .queued

theorem quotaInv_of_step {env : Environment β} {s : Workers β} (a : WorkerStep β) (hs : QuotaInv env s)
    (ha : KeepsQuota env s a) : QuotaInv env (workerStep env s a) := by
  cases a with
  | count request =>
    simp only [workerStep]
    split
    · refine ⟨hs.quota, fun job selectedAt hmem => hs.selected job selectedAt ?_⟩
      simpa using hmem
    · exact hs
  | select now =>
    simp only [workerStep]
    split
    · exact hs
    · next job hnext =>
      refine ⟨hs.quota, fun job' selectedAt hmem => ?_⟩
      rcases List.mem_append.mp hmem with hmem | hmem
      · exact hs.selected job' selectedAt hmem
      · simp only [List.mem_singleton, Waiting.settle.injEq] at hmem
        rw [hmem.1]
        exact (nextJob_eq_some hnext).2
  | commit i now fates =>
    simp only [workerStep]
    cases hi : s.waiting[i]? with
    | none => exact hs
    | some request =>
      have hselected : ∀ job selectedAt, Waiting.settle job selectedAt ∈ s.waiting.eraseIdx i →
          job.state = .queued :=
        fun job selectedAt hmem => hs.selected job selectedAt (List.mem_of_mem_eraseIdx hmem)
      refine ⟨?_, hselected⟩
      simp only [KeepsQuota, hi] at ha
      cases request with
      | insert request =>
        exact quota_of_inserts hs.quota (inserts_of_run env now request (s.state.session fates)) ha
      | settle job selectedAt =>
        exact quota_of_settles hs.quota (settles_of_run env selectedAt now job (s.state.session fates))
          (hs.selected job selectedAt (List.mem_of_getElem? hi)) ha
  | other a h =>
    cases a with
    | request r now fates =>
        exact ⟨quota_of_effect h (effect_of_answer env s.state r now fates) hs.quota, hs.selected⟩
    | guest labId entries => exact ⟨hs.quota, hs.selected⟩

/-- **The quota of pending jobs**, in every run of overlapping requests whose commits keep it. -/
theorem quota_of_workers (env : Environment β) (s₀ : State β) (h₀ : Initial env s₀)
    (steps : List (WorkerStep β))
    (hsteps : Runs.Allowed (workerStep env) (KeepsQuota env) (Workers.start s₀) steps)
    (requesterId : String) :
    pendingCount (Runs.after (workerStep env) (Workers.start s₀) steps).state.store requesterId ≤
      env.maxPendingJobsPerRequester := by
  have hstart : QuotaInv env (Workers.start s₀) := by
    refine ⟨fun requesterId => ?_, fun job selectedAt hmem => (by cases hmem)⟩
    show pendingCount s₀.store requesterId ≤ _
    rw [h₀.store]
    exact Nat.zero_le _
  exact (Runs.after_keeps_of (fun s a hs ha => quotaInv_of_step a hs ha) hstart hsteps).quota requesterId

/-- A request to queue the creation of a lab. -/
def cronJob : SchedulerJobCreateRequest :=
  { action := .createLab, requesterId := "cron", profileName := some "safe-dev" }

/-- Four jobs are queued, and two enqueues count before either inserts. -/
def quotaRun : List (WorkerStep Blob) :=
  List.replicate 4 (.other (.request (.enqueueSchedulerJob cronJob) 0 []) rfl) ++
    [.count cronJob, .count cronJob, .commit 0 1 [], .commit 0 2 []]

theorem quota_of_workers_quotaRun :
    pendingCount (Runs.after (workerStep (symbolic defaultProfiles)) (Workers.start emptyState)
      (quotaRun.take 7)).state.store "cron" ≤ 5 :=
  quota_of_workers (symbolic defaultProfiles) emptyState (initial_emptyState _) (quotaRun.take 7)
    (by decide +kernel) "cron"

/-- **The quota is not kept.** -/
theorem quota_exceeded : (symbolic defaultProfiles).maxPendingJobsPerRequester <
    pendingCount (Runs.after (workerStep (symbolic defaultProfiles))
      (Workers.start emptyState) quotaRun).state.store
      "cron" := by
  decide +kernel

/-! ### One resource for each job -/

/-- The resource is the result of its job, which has succeeded. -/
def Accounted (st : Store) (x : Made) : Prop :=
  ∃ job, st.schedulerJobs.get? x.1 = some job ∧ job.state = .succeeded ∧
    job.resultResourceType = some x.2.1 ∧ job.resultResourceId = some x.2.2

/-- No commit is of a dispatch whose job has succeeded by then. -/
def KeepsDone (s : Workers β) : WorkerStep β → Prop
  | .commit i _ _ =>
    match s.waiting[i]? with
    | some (.settle job _) => ∀ cur ∈ s.state.store.schedulerJobs.get? job.id, cur.state ≠ .succeeded
    | _ => True
  | _ => True

instance (s : Workers β) (a : WorkerStep β) : Decidable (KeepsDone s a) :=
  match a with
  | .commit i _ _ =>
    match h : s.waiting[i]? with
    | some (.settle job _) => decidable_of_iff
        (∀ cur ∈ s.state.store.schedulerJobs.get? job.id, cur.state ≠ .succeeded) (by simp [KeepsDone, h])
    | some (.insert _) => isTrue (by simp [KeepsDone, h])
    | none => isTrue (by simp [KeepsDone, h])
  | .count _ => isTrue trivial
  | .select _ => isTrue trivial
  | .other _ _ => isTrue trivial

/-- A job that has not succeeded has no result. -/
def Unfinished (st : Store) : Prop := ∀ id job, st.schedulerJobs.get? id = some job → job.state ≠ .succeeded →
  job.resultResourceType = none ∧ job.resultResourceId = none

/-- The invariant: what dispatches made is accounted for, once for each job. -/
structure MadeInv (s : Workers β) : Prop where
  made : ∀ x ∈ s.made, Accounted s.state.store x
  once : (s.made.map Prod.fst).Nodup
  unfinished : Unfinished s.state.store
  selected : ∀ job selectedAt, Waiting.settle job selectedAt ∈ s.waiting →
    job.state = .queued ∧ job.resultResourceType = none ∧ job.resultResourceId = none

section Made

variable {st st' : Store} {selectedAt now : ℤ} {job cur : SchedulerJobRow}

theorem storedJob_ok (now : ℤ) (cur : SchedulerJobRow) {resourceType id : String}
    (hqueued : job.state = .queued) (hresult : job.resultResourceType = none ∧ job.resultResourceId = none) :
    (storedJob selectedAt now job cur (.ok (resourceType, id))).state = .succeeded ∧
      (storedJob selectedAt now job cur (.ok (resourceType, id))).resultResourceType = some resourceType ∧
      (storedJob selectedAt now job cur (.ok (resourceType, id))).resultResourceId = some id := by
  refine ⟨by rw [storedJob_state hqueued]; rfl, ?_, ?_⟩
  · exact pick_of_ne (by simp [claimed, hresult.1, settled])
  · exact pick_of_ne (by simp [claimed, hresult.2, settled])

theorem storedJob_error {e : Exc} :
    (storedJob selectedAt now job cur (.error e)).resultResourceType = cur.resultResourceType ∧
    (storedJob selectedAt now job cur (.error e)).resultResourceId = cur.resultResourceId := by
  obtain ⟨htype, hid⟩ := settled_error_result selectedAt now job e
  simp only [storedJob, Columnar.merge, htype, hid]
  exact ⟨(pick_self _ _).trans (pick_self _ _), (pick_self _ _).trans (pick_self _ _)⟩

/-- Storing a job that had not succeeded leaves what is accounted for as it is. -/
theorem accounted_put {x : Made} {row : SchedulerJobRow} (hx : Accounted st x)
    (hjobs : st'.schedulerJobs = st.schedulerJobs.put row)
    (hcur : ∀ cur, st.schedulerJobs.get? row.id = some cur → cur.state ≠ .succeeded) : Accounted st' x := by
  obtain ⟨job, hjob, hstate, hresult⟩ := hx
  have hne : x.1 ≠ row.id := by
    rintro hid
    exact hcur job (hid ▸ hjob) hstate
  exact ⟨job, by rw [hjobs, Table.get?_put_ne hne, hjob], hstate, hresult⟩

theorem unfinished_put {row : SchedulerJobRow} (hst : Unfinished st)
    (hjobs : st'.schedulerJobs = st.schedulerJobs.put row)
    (hrow : row.state ≠ .succeeded → row.resultResourceType = none ∧ row.resultResourceId = none) :
    Unfinished st' := by
  intro id job hjob hstate
  rw [hjobs] at hjob
  rcases Table.eq_or_of_get?_put hjob with ⟨-, rfl⟩ | ⟨-, hjob⟩
  · exact hrow hstate
  · exact hst id job hjob hstate

/-- A dispatch makes nothing, or one resource. -/
theorem settles_cases (h : Settles selectedAt now job st st') :
    (st' = st ∧ created st st' job.id = []) ∨
    ∃ cur outcome, st.schedulerJobs.get? job.id = some cur ∧
      st'.schedulerJobs = st.schedulerJobs.put (storedJob selectedAt now job cur outcome) ∧
      ((∃ e, outcome = .error e ∧ created st st' job.id = []) ∨
        ∃ result, outcome = .ok result ∧ created st st' job.id = [(job.id, result)]) := by
  cases h with
  | aborted => exact .inl ⟨rfl, by simp [created, Table.filter_new_self]⟩
  | failed hcur =>
    exact .inr ⟨_, _, hcur, rfl, .inl ⟨_, rfl, by simp [created, Table.filter_new_self]⟩⟩
  | madeLab hcur fresh =>
    exact .inr ⟨_, _, hcur, rfl,
      .inr ⟨_, rfl, by simp [created, Table.filter_new_self, Table.filter_new_put fresh]⟩⟩
  | madeRun hcur fresh =>
    exact .inr ⟨_, _, hcur, rfl,
      .inr ⟨_, rfl, by simp [created, Table.filter_new_self, Table.filter_new_put fresh]⟩⟩

variable {s : Workers β}

omit [Content β] in
/-- What still waits when one request has committed. -/
theorem MadeInv.waiting (hs : MadeInv s) (i : ℕ) (job : SchedulerJobRow) (selectedAt : ℤ)
    (hmem : Waiting.settle job selectedAt ∈ s.waiting.eraseIdx i) :
    job.state = .queued ∧ job.resultResourceType = none ∧ job.resultResourceId = none :=
  hs.selected job selectedAt (List.mem_of_mem_eraseIdx hmem)

omit [Content β] in
/-- What a dispatch commits on a job that has not succeeded. -/
theorem madeInv_of_settles {i : ℕ} {state : State β} (hs : MadeInv s)
    (hi : s.waiting[i]? = some (.settle job selectedAt))
    (h : Settles selectedAt now job s.state.store state.store)
    (hcur : ∀ cur ∈ s.state.store.schedulerJobs.get? job.id, cur.state ≠ .succeeded) :
    MadeInv ⟨state, s.waiting.eraseIdx i, s.made ++ created s.state.store state.store job.id⟩ := by
  obtain ⟨hqueued, hresult⟩ := hs.selected job selectedAt (List.mem_of_getElem? hi)
  rcases settles_cases h with ⟨hstore, hmade⟩ | ⟨cur, outcome, hget, hjobs, houtcome⟩
  · refine ⟨?_, ?_, hstore ▸ hs.unfinished, hs.waiting i⟩
    · intro x hx
      rw [hmade, List.append_nil] at hx
      exact hstore ▸ hs.made x hx
    · rw [hmade, List.append_nil]
      exact hs.once
  · have hid : (storedJob selectedAt now job cur outcome).id = job.id :=
      storedJob_id.trans (Table.key_of_get? hget)
    have hkept : ∀ x ∈ s.made, Accounted state.store x := fun x hx =>
      accounted_put (hs.made x hx) hjobs fun cur hget => hcur cur (by rwa [hid] at hget)
    have hcurResult := hs.unfinished job.id cur hget (hcur cur hget)
    rcases houtcome with ⟨e, rfl, hmade⟩ | ⟨⟨resourceType, id⟩, rfl, hmade⟩
    · refine ⟨?_, ?_, ?_, hs.waiting i⟩
      · intro x hx
        rw [hmade, List.append_nil] at hx
        exact hkept x hx
      · rw [hmade, List.append_nil]
        exact hs.once
      · refine unfinished_put hs.unfinished hjobs fun _ => ?_
        rw [storedJob_error.1, storedJob_error.2]
        exact hcurResult
    · obtain ⟨hstate, htype, hresourceId⟩ := storedJob_ok now cur hqueued hresult
      have hnew : Accounted state.store (job.id, resourceType, id) := by
        refine ⟨_, ?_, hstate, htype, hresourceId⟩
        rw [hjobs, ← hid]
        exact Table.get?_put_self _ _
      have hfirst : job.id ∉ s.made.map Prod.fst := by
        intro hmem
        obtain ⟨x, hx, hxid⟩ := List.mem_map.mp hmem
        obtain ⟨other, hother, hdone, -⟩ := hs.made x hx
        exact hcur other (by rw [← hxid]; exact hother) hdone
      refine ⟨?_, ?_, unfinished_put hs.unfinished hjobs fun hne => absurd hstate hne, hs.waiting i⟩
      · intro x hx
        rw [hmade] at hx
        rcases List.mem_append.mp hx with hx | hx
        · exact hkept x hx
        · rw [List.mem_singleton.mp hx]
          exact hnew
      · rw [hmade, List.map_append]
        refine List.nodup_append.mpr ⟨hs.once, List.nodup_singleton _, ?_⟩
        rintro a ha _ hb rfl
        simp only [List.map_cons, List.map_nil, List.mem_singleton] at hb
        exact hfirst (hb ▸ ha)

omit [Content β] in
theorem madeInv_of_inserts {i : ℕ} {state : State β} {request : SchedulerJobCreateRequest} (hs : MadeInv s)
    (h : Inserts request s.state.store state.store) : MadeInv ⟨state, s.waiting.eraseIdx i, s.made⟩ := by
  generalize hstate : state.store = st' at h
  cases h with
  | aborted => exact ⟨fun x hx => hstate ▸ hs.made x hx, hs.once, hstate ▸ hs.unfinished, hs.waiting i⟩
  | @queued row evs fresh queued requester result =>
    have hjobs : state.store.schedulerJobs = s.state.store.schedulerJobs.put row := by rw [hstate]
    refine ⟨fun x hx => accounted_put (hs.made x hx) hjobs fun cur hcur => ?_, hs.once,
      unfinished_put hs.unfinished hjobs fun _ => result, hs.waiting i⟩
    exact absurd (fresh.symm.trans hcur) (by simp)

/-- Any other request, as a whole. -/
theorem madeInv_of_effect {r : Request β} {fates : List Fate} {env : Environment β} {m m' : ℕ}
    {state : State β} (hr : (Action.request r now fates).dispatches = false) (hs : MadeInv s)
    (h : Effect env now r m m' s.state.store state.store) : MadeInv { s with state := state } := by
  have hsame : state.store.schedulerJobs = s.state.store.schedulerJobs →
      MadeInv { s with state := state } := by
    intro hjobs
    refine ⟨fun x hx => ?_, hs.once, fun id job hjob => hs.unfinished id job (hjobs ▸ hjob), hs.selected⟩
    obtain ⟨job, hjob, hrest⟩ := hs.made x hx
    exact ⟨job, hjobs ▸ hjob, hrest⟩
  generalize hstate : state.store = st' at h
  cases h with
  | @jobQueued request _ _ _ row evs new =>
    have hjobs : state.store.schedulerJobs = s.state.store.schedulerJobs.put row := by rw [hstate]
    refine ⟨fun x hx => accounted_put (hs.made x hx) hjobs fun cur hcur => ?_, hs.once,
      unfinished_put hs.unfinished hjobs fun _ => ⟨new.unfinished.1, new.unfinished.2.1⟩, hs.selected⟩
    exact absurd (new.fresh.symm.trans hcur) (by simp)
  | jobFailed next => cases hr
  | jobMadeLab next action profile new => cases hr
  | jobMadeRun next action payload new => cases hr
  | reconciled sweeps => exact hsame (by rw [hstate, schedulerJobs_of_sweeps sweeps])
  | _ => exact hsame (by rw [hstate])

end Made

theorem madeInv_of_step {env : Environment β} {s : Workers β} (a : WorkerStep β) (hs : MadeInv s)
    (ha : KeepsDone s a) :
    MadeInv (workerStep env s a) := by
  cases a with
  | count request =>
    simp only [workerStep]
    split
    · refine ⟨hs.made, hs.once, hs.unfinished, fun job selectedAt hmem => hs.selected job selectedAt ?_⟩
      simpa using hmem
    · exact hs
  | select now =>
    simp only [workerStep]
    split
    · exact hs
    · next job hnext =>
      refine ⟨hs.made, hs.once, hs.unfinished, fun job' selectedAt hmem => ?_⟩
      rcases List.mem_append.mp hmem with hmem | hmem
      · exact hs.selected job' selectedAt hmem
      · simp only [List.mem_singleton, Waiting.settle.injEq] at hmem
        obtain ⟨hget, hqueued⟩ := nextJob_eq_some hnext
        rw [hmem.1]
        exact ⟨hqueued, hs.unfinished _ _ hget (by simp [hqueued])⟩
  | commit i now fates =>
    simp only [workerStep]
    cases hi : s.waiting[i]? with
    | none => exact hs
    | some request =>
      simp only [KeepsDone, hi] at ha
      cases request with
      | insert request =>
        simp only [Waiting.made, List.append_nil]
        exact madeInv_of_inserts hs (inserts_of_run env now request (s.state.session fates))
      | settle job selectedAt =>
        exact madeInv_of_settles hs hi (settles_of_run env selectedAt now job (s.state.session fates)) ha
  | other a h =>
    cases a with
    | request r now fates => exact madeInv_of_effect h hs (effect_of_answer env s.state r now fates)
    | guest labId entries => exact ⟨hs.made, hs.once, hs.unfinished, hs.selected⟩

/-- **A job makes one resource at most**, in every run of overlapping requests that commit no dispatch of a
job that has succeeded; and whatever dispatches made is the result of its job. -/
theorem one_resource_of_workers (env : Environment β) (s₀ : State β) (h₀ : Initial env s₀)
    (steps : List (WorkerStep β))
    (hsteps : Runs.Allowed (workerStep env) KeepsDone (Workers.start s₀) steps) :
    (∀ jobId, ((Runs.after (workerStep env) (Workers.start s₀) steps).made.map Prod.fst).count jobId ≤ 1) ∧
    ∀ x ∈ (Runs.after (workerStep env) (Workers.start s₀) steps).made,
      ∃ job, (Runs.after (workerStep env) (Workers.start s₀) steps).state.store.schedulerJobs.get?
        x.1 = some job ∧
        job.state = .succeeded ∧ job.resultResourceType = some x.2.1 ∧ job.resultResourceId = some x.2.2 := by
  have hstart : MadeInv (Workers.start s₀) := by
    refine ⟨fun x hx => (by cases hx), List.nodup_nil, fun id job hjob => ?_,
      fun job selectedAt hmem => (by cases hmem)⟩
    rw [show (Workers.start s₀).state.store = Store.empty from h₀.store] at hjob
    cases hjob
  have hinv := Runs.after_keeps_of (fun s a hs ha => madeInv_of_step a hs ha) hstart hsteps
  exact ⟨List.nodup_iff_count_le_one.mp hinv.once, hinv.made⟩

/-- A job is selected twice before either dispatch commits. -/
def dispatchRun : List (WorkerStep Blob) :=
  [.other (.request (.enqueueSchedulerJob cronJob) 0 []) rfl, .select 1, .select 1,
    .commit 0 2 [], .commit 0 3 []]

theorem one_resource_of_workers_dispatchRun :
    ((Runs.after (workerStep (symbolic defaultProfiles)) (Workers.start emptyState)
      (dispatchRun.take 4)).made.map Prod.fst).count (unaryId 0) ≤ 1 :=
  (one_resource_of_workers (symbolic defaultProfiles) emptyState (initial_emptyState _) (dispatchRun.take 4)
    (by decide +kernel)).1 (unaryId 0)

/-- **A job makes two labs**, and the first is the result of none. -/
theorem job_dispatched_twice :
    ((Runs.after (workerStep (symbolic defaultProfiles)) (Workers.start emptyState) dispatchRun).made.map
      Prod.fst).count (unaryId 0) = 2 ∧
    ∃ x ∈ (Runs.after (workerStep (symbolic defaultProfiles)) (Workers.start emptyState) dispatchRun).made,
      ∀ job ∈ (Runs.after (workerStep (symbolic defaultProfiles)) (Workers.start emptyState)
        dispatchRun).state.store.schedulerJobs.rows, job.resultResourceId ≠ some x.2.2 := by
  decide +kernel

end LabOS
