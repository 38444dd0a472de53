import LabOS.System.Lifecycles
import LabOS.System.Symbolic

/-!
# The ledger of the scheduler

A job is queued with its attempts to come, dispatched in one request, and left queued
again, failed or succeeded. The callbacks that create its lab or run may fail anywhere;
the savepoint takes back what they did to the rows.

## What is proved

* `job_ledger` — in every state a run of requests and dispatches reaches **the rows of the
  jobs tell what has become of them**, and a dispatch that does not succeed changes the
  row of its job and nothing else.
-/

namespace LabOS

open Exceptional SchedulerService

variable {β : Type} [Content β] {env : Environment β}

/-! ### The queue -/

omit [Content β] in
theorem nextJob_eq_some {st : Store} {now : ℤ} {job : SchedulerJobRow} (h : nextJob st now = some job) :
    st.schedulerJobs.get? job.id = some job ∧ job.state = .queued := by
  obtain ⟨hp, hget⟩ := get?_of_mem_select (List.mem_of_mem_head? (Option.mem_def.mpr h))
  simp only [Bool.and_eq_true, decide_eq_true_eq] at hp
  exact ⟨hget, hp.1⟩

/-! ### The ledger -/

/-- What the result of a job names. -/
def Names (st : Store) (job : SchedulerJobRow) : Prop :=
  ∃ id, job.resultResourceId = some id ∧
    (job.resultResourceType = some "lab" ∧ (st.labs.get? id).isSome = true ∨
      job.resultResourceType = some "run" ∧ (st.runs.get? id).isSome = true)

/-- A job of the ledger. -/
structure Ledger (st : Store) (job : SchedulerJobRow) : Prop where
  attempts : job.attemptCount ≤ job.maxAttempts
  undispatched : job.state ≠ .dispatched
  queued : job.state = .queued →
    job.attemptCount < job.maxAttempts ∧ job.resultResourceType = none ∧ job.resultResourceId = none
  failed : job.state = .failed → job.attemptCount = job.maxAttempts ∧ job.lastError.isSome = true ∧
    job.resultResourceType = none ∧ job.resultResourceId = none
  succeeded : job.state = .succeeded → 1 ≤ job.attemptCount ∧ Names st job
  completed : job.completedAt.isSome = true ↔ job.state = .succeeded ∨ job.state = .failed
  /-- What the asserts of `run_next` ask. -/
  payload : job.action = .createLab ∧ job.profileName.isSome = true ∨
    job.action = .startRun ∧ job.labId.isSome = true ∧ job.command.isSome = true

/-- The ledger: every job is in order, and no two have one result. -/
structure Ledgers (st : Store) : Prop where
  jobs : ∀ id job, st.schedulerJobs.get? id = some job → Ledger st job
  results : ∀ id id' job job', st.schedulerJobs.get? id = some job → st.schedulerJobs.get? id' = some job' →
    job.resultResourceId ≠ none → job.resultResourceType = job'.resultResourceType →
    job.resultResourceId = job'.resultResourceId → id = id'

theorem ledgers_empty : Ledgers Store.empty := ⟨fun _ _ h => (by cases h), fun _ _ _ _ h => (by cases h)⟩

/-- The labs and runs that are there stay there. -/
structure Grows (st st' : Store) : Prop where
  labs : ∀ id, (st.labs.get? id).isSome = true → (st'.labs.get? id).isSome = true
  runs : ∀ id, (st.runs.get? id).isSome = true → (st'.runs.get? id).isSome = true

theorem Ledger.mono {st st' : Store} {job : SchedulerJobRow} (h : Ledger st job) (hgrows : Grows st st') :
    Ledger st' job := by
  refine { h with succeeded := fun hs => ?_ }
  obtain ⟨hcount, id, hid, hnames⟩ := h.succeeded hs
  refine ⟨hcount, id, hid, ?_⟩
  rcases hnames with ⟨htype, hlab⟩ | ⟨htype, hrun⟩
  · exact .inl ⟨htype, hgrows.labs id hlab⟩
  · exact .inr ⟨htype, hgrows.runs id hrun⟩

/-- Only a job that has succeeded has a result, and it names what is there. -/
theorem Ledger.names {st : Store} {job : SchedulerJobRow} (h : Ledger st job)
    (hresult : job.resultResourceId ≠ none) :
    Names st job := by
  cases hs : job.state with
  | queued => exact absurd (h.queued hs).2.2 hresult
  | dispatched => exact absurd hs h.undispatched
  | succeeded => exact (h.succeeded hs).2
  | failed => exact absurd (h.failed hs).2.2.2 hresult

/-- Where a job is stored whose result is that of no other, the ledger stays in order. -/
theorem ledgers_put {st st' : Store} {job : SchedulerJobRow} (hst : Ledgers st) (hgrows : Grows st st')
    (hjobs : st'.schedulerJobs = st.schedulerJobs.put job) (hjob : Ledger st' job)
    (hresult : ∀ id other, st.schedulerJobs.get? id = some other → job.resultResourceId ≠ none →
      other.resultResourceType = job.resultResourceType → other.resultResourceId ≠ job.resultResourceId) :
    Ledgers st' := by
  constructor
  · intro id other hother
    rw [hjobs] at hother
    rcases Table.eq_or_of_get?_put hother with ⟨-, rfl⟩ | ⟨-, hother⟩
    · exact hjob
    · exact (hst.jobs id other hother).mono hgrows
  · intro id id' one two hone htwo hsome htype hid
    rw [hjobs] at hone htwo
    rcases Table.eq_or_of_get?_put hone with ⟨rfl, rfl⟩ | ⟨-, hone₀⟩
    · rcases Table.eq_or_of_get?_put htwo with ⟨rfl, -⟩ | ⟨-, htwo₀⟩
      · rfl
      · exact absurd hid.symm (hresult id' two htwo₀ hsome htype.symm)
    · rcases Table.eq_or_of_get?_put htwo with ⟨rfl, rfl⟩ | ⟨-, htwo₀⟩
      · exact absurd hid (hresult id one hone₀ (hid ▸ hsome) htype)
      · exact hst.results id id' one two hone₀ htwo₀ hsome htype hid

/-- A job whose action failed is queued again, or failed when it has no attempt left. -/
theorem ledger_of_error {st st' : Store} {job : SchedulerJobRow} {now : ℤ} {e : Exc} (h : Ledger st job)
    (hqueued : job.state = .queued) : Ledger st' (settled now (claimed now job) (.error e)) := by
  obtain ⟨hbelow, htype, hid⟩ := h.queued hqueued
  have hcompleted : job.completedAt.isSome = false := by
    have hiff := h.completed
    rw [hqueued] at hiff
    simpa using hiff
  by_cases hlast : job.maxAttempts ≤ job.attemptCount + 1
  · have hsettled : settled now (claimed now job) (.error e) =
        { claimed now job with
          lastError := some e.text, state := .failed, completedAt := some (DateTime.utc now).column } := by
      simp [settled, claimed, hlast]
    rw [hsettled]
    exact {
      attempts := hbelow
      undispatched := by simp
      queued := fun hs => by cases hs
      failed := fun _ => ⟨le_antisymm hbelow hlast, rfl, htype, hid⟩
      succeeded := fun hs => by cases hs
      completed := by simp
      payload := h.payload }
  · have hsettled : settled now (claimed now job) (.error e) =
        { claimed now job with lastError := some e.text, state := .queued } := by
      simp [settled, claimed, hlast]
    rw [hsettled]
    exact {
      attempts := hbelow
      undispatched := by simp
      queued := fun _ => ⟨Nat.lt_of_not_le hlast, htype, hid⟩
      failed := fun hs => by cases hs
      succeeded := fun hs => by cases hs
      completed := by simp [claimed, hcompleted]
      payload := h.payload }

/-- A job whose action returned has succeeded. -/
theorem ledger_of_ok {st st' : Store} {job : SchedulerJobRow} {now : ℤ} {resourceType id : String}
    (h : Ledger st job) (hqueued : job.state = .queued)
    (hnames : resourceType = "lab" ∧ (st'.labs.get? id).isSome = true ∨
      resourceType = "run" ∧ (st'.runs.get? id).isSome = true) :
    Ledger st' (settled now (claimed now job) (.ok (resourceType, id))) where
  attempts := (h.queued hqueued).1
  undispatched := by simp [settled]
  queued := fun hs => by cases hs
  failed := fun hs => by cases hs
  succeeded := fun _ => ⟨Nat.le_add_left 1 _, id, rfl, hnames.imp (And.imp_left (congrArg some))
    (And.imp_left (congrArg some))⟩
  completed := by simp [settled]
  payload := h.payload

/-! ### Steps -/

section Effects

variable {now : ℤ} {r : Request β} {m m' : ℕ} {st st' : Store}

theorem grows_of_effect (h : Effect env now r m m' st st') : Grows st st' where
  labs id hsome := by
    obtain ⟨lab, hlab⟩ := Option.isSome_iff_exists.mp hsome
    obtain ⟨lab', hlab', -⟩ := labMove_of_effect h hlab
    exact Option.isSome_iff_exists.mpr ⟨lab', hlab'⟩
  runs id hsome := by
    obtain ⟨run, hrun⟩ := Option.isSome_iff_exists.mp hsome
    obtain ⟨run', hrun', -⟩ := runMove_of_effect h hrun
    exact Option.isSome_iff_exists.mpr ⟨run', hrun'⟩

/-- A pass changes no job. -/
theorem schedulerJobs_of_sweeps {at' : DateTime} (h : Sweeps at' st st') :
    st'.schedulerJobs = st.schedulerJobs := by
  induction h with
  | refl => rfl
  | tail _ hsweep ih => cases hsweep <;> exact ih

theorem ledgers_of_same (hst : Ledgers st) (hgrows : Grows st st')
    (hjobs : st'.schedulerJobs = st.schedulerJobs) :
    Ledgers st' where
  jobs id job hjob := (hst.jobs id job (hjobs ▸ hjob)).mono hgrows
  results id id' job job' hjob hjob' := hst.results id id' job job' (hjobs ▸ hjob) (hjobs ▸ hjob')

omit [Content β] in
/-- What the request model accepts can be attempted, and has what its action needs. -/
theorem payload_of_accepted {request : SchedulerJobCreateRequest} (h : request.accepted = true) :
    1 ≤ request.maxAttempts ∧ (request.action = .createLab ∧ request.profileName.isSome = true ∨
      request.action = .startRun ∧ request.labId.isSome = true ∧ request.command.isSome = true) := by
  unfold SchedulerJobCreateRequest.accepted at h
  cases hact : request.action with
  | createLab =>
    simp only [hact, Bool.and_eq_true, decide_eq_true_eq] at h
    obtain ⟨⟨⟨-, hpositive⟩, -⟩, ⟨hprofile, -⟩, -⟩ := h
    exact ⟨hpositive, .inl ⟨rfl, hprofile⟩⟩
  | startRun =>
    simp only [hact, Bool.and_eq_true, decide_eq_true_eq] at h
    obtain ⟨⟨⟨-, hpositive⟩, -⟩, ⟨hlab, hcommand⟩, -⟩ := h
    exact ⟨hpositive, .inr ⟨rfl, hlab, hcommand⟩⟩

/-- A result that is new is that of no job before. -/
theorem fresh_result {resourceType id : String} (hst : Ledgers st)
    (hfresh : resourceType = "lab" ∧ st.labs.get? id = none ∨ resourceType = "run" ∧ st.runs.get? id = none)
    {otherId : String} {other : SchedulerJobRow} (hother : st.schedulerJobs.get? otherId = some other)
    (htype : other.resultResourceType = some resourceType) : other.resultResourceId ≠ some id := by
  intro hid
  obtain ⟨id', hid', hnames⟩ := (hst.jobs otherId other hother).names (by simp [hid])
  obtain rfl : id = id' := Option.some.inj (hid.symm.trans hid')
  rcases hfresh with ⟨rfl, hfresh⟩ | ⟨rfl, hfresh⟩
  · rcases hnames with ⟨-, hthere⟩ | ⟨htype', -⟩
    · simp [hfresh] at hthere
    · simp [htype] at htype'
  · rcases hnames with ⟨htype', -⟩ | ⟨-, hthere⟩
    · simp [htype] at htype'
    · simp [hfresh] at hthere

/-- **The ledger is kept** by what answering a request does. -/
theorem ledgers_of_effect (h : Effect env now r m m' st st') (hst : Ledgers st) : Ledgers st' := by
  have hgrows := grows_of_effect h
  cases h with
  | jobQueued new =>
    obtain ⟨hzero, hmax⟩ := new.attempts
    obtain ⟨htype, hid, -, hcompleted⟩ := new.unfinished
    obtain ⟨haction, hprofile, hlab, hcommand⟩ := new.payload
    obtain ⟨hpositive, hpayload⟩ := payload_of_accepted new.accepted
    refine ledgers_put hst hgrows rfl ?_ fun _ _ _ hsome => absurd hid hsome
    exact {
      attempts := by omega
      undispatched := by simp [new.state]
      queued := fun _ => ⟨by omega, htype, hid⟩
      failed := fun hs => by simp [new.state] at hs
      succeeded := fun hs => by simp [new.state] at hs
      completed := by simp [hcompleted, new.state]
      payload := by rw [haction, hprofile, hlab, hcommand]; exact hpayload }
  | jobFailed next =>
    obtain ⟨hget, hqueued⟩ := nextJob_eq_some next
    have hjob := hst.jobs _ _ hget
    refine ledgers_put hst hgrows rfl (ledger_of_error hjob hqueued) fun _ _ _ hsome => absurd ?_ hsome
    rw [(settled_error_result now now _ _).2]
    exact (hjob.queued hqueued).2.2
  | jobMadeLab next action profile new =>
    obtain ⟨hget, hqueued⟩ := nextJob_eq_some next
    have hthere : ∀ lab : LabRow, ((st.labs.put lab).get? lab.id).isSome = true := fun lab => by
      rw [Table.get?_put_self]
      rfl
    refine ledgers_put hst hgrows rfl (ledger_of_ok (hst.jobs _ _ hget) hqueued (.inl ⟨rfl, hthere _⟩)) ?_
    exact fun _ _ hother _ htype => fresh_result hst (.inl ⟨rfl, new.fresh⟩) hother htype
  | jobMadeRun next action payload new =>
    obtain ⟨hget, hqueued⟩ := nextJob_eq_some next
    have hthere : ∀ run : RunRow, ((st.runs.put run).get? run.id).isSome = true := fun run => by
      rw [Table.get?_put_self]
      rfl
    refine ledgers_put hst hgrows rfl (ledger_of_ok (hst.jobs _ _ hget) hqueued (.inr ⟨rfl, hthere _⟩)) ?_
    exact fun _ _ hother _ htype => fresh_result hst (.inr ⟨rfl, new.fresh⟩) hother htype
  | reconciled sweeps => exact ledgers_of_same hst hgrows (schedulerJobs_of_sweeps sweeps)
  | _ => exact ledgers_of_same hst hgrows rfl

end Effects

/-! ### Runs with any callbacks -/

/-- An action of the system, or a dispatch whose callbacks may fail anywhere. -/
inductive JobAction (env : Environment β) where
  | system (a : Action β)
  | dispatch (now : ℤ) (fates : List Fate) (callbacks : Callbacks env now)

/-- The state such an action leads to. -/
def jobStep (env : Environment β) (s : State β) : JobAction env → State β
  | .system a => step env s a
  | .dispatch _ fates callbacks => (endState (withSession (dispatchWith callbacks) (s.session fates))).state

theorem ledgers_of_step {s : State β} (a : JobAction env) (hs : Ledgers s.store) :
    Ledgers (jobStep env s a).store := by
  cases a with
  | system a =>
    cases a with
    | request r now fates => exact ledgers_of_effect (effect_of_answer env s r now fates) hs
    | guest labId entries => exact hs
  | dispatch now fates callbacks =>
    have heffect : Effect env now .dispatchNextSchedulerJob s.minted _ s.store _ :=
      effect_of_withSession (s := s.session fates) fun _ _ h => dispatchWith_eq_ok callbacks h
    exact ledgers_of_effect heffect hs

theorem ledgers_of_run {s₀ : State β} (h₀ : Initial env s₀) (actions : List (JobAction env)) :
    Ledgers (Runs.after (jobStep env) s₀ actions).store :=
  Runs.after_keeps (I := fun s : State β => Ledgers s.store) (fun _ a hs => ledgers_of_step a hs)
    (h₀.store ▸ ledgers_empty)

/-- The two events of a dispatch. -/
def dispatchEvents (row : SchedulerJobRow) : List EventRow :=
  [App.jobEvent "scheduler_job.dispatched" row
    [("action", .str row.action.value), ("attempt_count", .int row.attemptCount)],
   App.jobEvent
    (if row.state = .succeeded then "scheduler_job.succeeded"
      else if row.state = .failed then "scheduler_job.failed"
      else "scheduler_job.requeued") row
    [("state", .str row.state.value), ("attempt_count", .int row.attemptCount),
     ("last_error", .ofOption row.lastError), ("result_resource_type", .ofOption row.resultResourceType),
     ("result_resource_id", .ofOption row.resultResourceId)]]

omit [Content β] in
theorem recordDispatch_eq_ok {row : SchedulerJobRow} {u : Unit} {s s' : Session β}
    (h : App.recordDispatch row s = .ok u s') :
    s'.store = { s.store with events := s.store.events ++ dispatchEvents row } := by
  simp only [App.recordDispatch, bind_eq_ok, recordEvent_eq_ok] at h
  obtain ⟨_, _, rfl, rfl⟩ := h
  simp [dispatchEvents]

/-- A dispatch that returns has settled the job it selected. -/
theorem dispatchWith_settled {now : ℤ} {callbacks : Callbacks env now} {row : SchedulerJobRow}
    {s s' : Session β} (h : dispatchWith callbacks s = .ok row s') : row.state = .succeeded ∨
      ∃ job e, nextJob s.store now = some job ∧ row = settled now (claimed now job) (.error e) ∧
        s'.store = { s.store with
          schedulerJobs := s.store.schedulerJobs.put row, events :=
            s.store.events ++ dispatchEvents row } := by
  simp only [dispatchWith, bind_eq_ok, orRaise_eq_ok, pure_eq_ok] at h
  obtain ⟨_, s₁, hnext, _, _, ⟨rfl, rfl⟩, _, s₂, hrecord, rfl, rfl⟩ := h
  obtain ⟨job, outcome, s₃, hjob, hattempt, rfl, rfl⟩ := runNext_eq_ok.mp hnext
  rcases attempt_eq_ok.mp hattempt with ⟨result, rfl, -⟩ | ⟨e, rfl, haction⟩
  · exact .inl rfl
  · refine .inr ⟨job, e, hjob, rfl, ?_⟩
    rw [recordDispatch_eq_ok hrecord, store_of_rollingBack_error haction]
    dsimp only
    rw [Table.put_put (settled_id now _ _).symm]

/-- The rows after a dispatch: its job succeeded, or no row changed, or the row of its job did and two
events tell of it. -/
theorem dispatch_cases (s : State β) {now : ℤ} (fates : List Fate) (callbacks : Callbacks env now) :
    (∃ row s', withSession (dispatchWith callbacks) (s.session fates) = .ok row s' ∧ row.state = .succeeded) ∨
    (jobStep env s (.dispatch now fates callbacks)).store = s.store ∨
    ∃ job row, nextJob s.store now = some job ∧ row.id = job.id ∧
      (row.state = .queued ∨ row.state = .failed) ∧
      (jobStep env s (.dispatch now fates callbacks)).store = { s.store with
        schedulerJobs := s.store.schedulerJobs.put row, events := s.store.events ++ dispatchEvents row } := by
  cases hrun : withSession (dispatchWith callbacks) (s.session fates) with
  | error e s' =>
    refine .inr (.inl ?_)
    show (endState (withSession (dispatchWith callbacks) (s.session fates))).store = s.store
    rw [hrun]
    exact store_of_rollingBack_error hrun
  | ok row s' =>
    obtain ⟨s₁, hbody, hstore, -⟩ := withSession_eq_ok hrun
    rcases dispatchWith_settled hbody with hsucceeded | ⟨job, e, hjob, hrow, hsettled⟩
    · exact .inl ⟨row, s', rfl, hsucceeded⟩
    · refine .inr (.inr ⟨job, row, hjob, hrow ▸ settled_id .., ?_, ?_⟩)
      · rw [hrow]
        by_cases hlast : (claimed now job).maxAttempts ≤ (claimed now job).attemptCount <;>
          simp [settled, hlast]
      · show (endState (withSession (dispatchWith callbacks) (s.session fates))).store = _
        rw [hrun, endState_ok, hstore, hsettled]
        rfl

omit [Content β] in
/-- The asserts of `run_next` hold of a job in order: its action is its callback and nothing else. -/
theorem action_of_ledger {st : Store} {job : SchedulerJobRow} (h : Ledger st job) (now : ℤ)
    (createLab : String → SessionM β String) (createRun : String → String → SessionM β String) :
    (∃ profileName, action createLab createRun (claimed now job) =
      do let id ← createLab profileName; return ("lab", id)) ∨
    ∃ labId command, action createLab createRun (claimed now job) =
      do let id ← createRun labId command; return ("run", id) := by
  rcases h.payload with ⟨haction, hprofile⟩ | ⟨haction, hlab, hcommand⟩
  · obtain ⟨profileName, hprofile⟩ := Option.isSome_iff_exists.mp hprofile
    refine .inl ⟨profileName, ?_⟩
    simp only [action, claimed, haction, hprofile]
    rfl
  · obtain ⟨labId, hlab⟩ := Option.isSome_iff_exists.mp hlab
    obtain ⟨command, hcommand⟩ := Option.isSome_iff_exists.mp hcommand
    refine .inr ⟨labId, command, ?_⟩
    simp only [action, claimed, haction, hlab, hcommand]
    rfl

/-- **The ledger of the scheduler.** In every state that requests and dispatches, with callbacks that fail
anywhere, reach from an empty store: every job is in order, as `Ledger` says, and no two name one result;
the asserts hold of every job a dispatch selects; and a dispatch that does not succeed changes no row, or
the row of its job and the events by two. -/
theorem job_ledger (env : Environment β) (s₀ : State β) (h₀ : Initial env s₀)
    (actions : List (JobAction env)) :
    (∀ job ∈ (Runs.after (jobStep env) s₀ actions).store.schedulerJobs.rows,
      Ledger (Runs.after (jobStep env) s₀ actions).store job ∧
      ∀ other ∈ (Runs.after (jobStep env) s₀ actions).store.schedulerJobs.rows, job.resultResourceId ≠ none →
        job.resultResourceType = other.resultResourceType → job.resultResourceId = other.resultResourceId →
        job.id = other.id) ∧
    (∀ now job, nextJob (Runs.after (jobStep env) s₀ actions).store now = some job →
      ∀ (createLab : String → SessionM β String) (createRun : String → String → SessionM β String),
        (∃ profileName, action createLab createRun (claimed now job) =
          do let id ← createLab profileName; return ("lab", id)) ∨
        ∃ labId command, action createLab createRun (claimed now job) =
          do let id ← createRun labId command; return ("run", id)) ∧
    ∀ now fates (callbacks : Callbacks env now),
      (∃ row s', withSession (dispatchWith callbacks)
        ((Runs.after (jobStep env) s₀ actions).session fates) = .ok row s' ∧
        row.state = .succeeded) ∨
      (jobStep env (Runs.after (jobStep env) s₀ actions) (.dispatch now fates callbacks)).store =
        (Runs.after (jobStep env) s₀ actions).store ∨
      ∃ job row, nextJob (Runs.after (jobStep env) s₀ actions).store now = some job ∧ row.id = job.id ∧
        (row.state = .queued ∨ row.state = .failed) ∧
        (jobStep env (Runs.after (jobStep env) s₀ actions) (.dispatch now fates callbacks)).store =
          { (Runs.after (jobStep env) s₀ actions).store with
            schedulerJobs := (Runs.after (jobStep env) s₀ actions).store.schedulerJobs.put row
            events := (Runs.after (jobStep env) s₀ actions).store.events ++ dispatchEvents row } := by
  have hledgers := ledgers_of_run h₀ actions
  refine ⟨fun job hjob => ⟨hledgers.jobs job.id job (Table.get?_of_mem hjob), fun other hother => ?_⟩,
    fun now job hjob createLab createRun => ?_, fun now fates callbacks => dispatch_cases _ fates callbacks⟩
  · exact hledgers.results job.id other.id job other (Table.get?_of_mem hjob) (Table.get?_of_mem hother)
  · exact action_of_ledger (hledgers.jobs job.id job (nextJob_eq_some hjob).1) now createLab createRun

/-- A job whose profile does not exist is queued, and dispatched twice. -/
def jobRun : List (JobAction (symbolic defaultProfiles)) :=
  [.system (.request (.enqueueSchedulerJob
      { action := .createLab, requesterId := "cron", profileName := some "no-such", maxAttempts := 2 }) 0 []),
   .system (.request .dispatchNextSchedulerJob 1 []),
   .dispatch 2 [] (handlerCallbacks _ 2)]

theorem job_ledger_jobRun :
    ∃ job ∈ (Runs.after (jobStep (symbolic defaultProfiles)) emptyState jobRun).store.schedulerJobs.rows,
      job.state = .failed ∧ job.attemptCount = job.maxAttempts ∧ job.lastError.isSome = true := by
  have hjob : ∃ job ∈ (Runs.after (jobStep (symbolic defaultProfiles)) emptyState jobRun).store.schedulerJobs.rows,
      job.state = .failed := by
    decide +kernel
  obtain ⟨job, hmem, hstate⟩ := hjob
  have hledger := ((job_ledger (symbolic defaultProfiles) emptyState
    (initial_emptyState _) jobRun).1 job hmem).1
  exact ⟨job, hmem, hstate, (hledger.failed hstate).1, (hledger.failed hstate).2.1⟩

end LabOS
