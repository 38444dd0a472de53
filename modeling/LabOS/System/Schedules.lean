import LabOS.System.Queue

/-!
# The times jobs are scheduled for

A request may give the time of its job with any offset from UTC. The column keeps what the clock of that time
shows, and the scheduler compares and orders the jobs by it, with the clock of UTC for the present. So a job
that is scheduled for ten o'clock five hours behind UTC is due at ten o'clock UTC, five hours before its time.

## What is proved

* `jobs_on_time_iff` — in every state a run reaches, **no job is dispatched before its time and the jobs are
  in the order of their times exactly when** the first job in the queue has no negative offset, and of two
  jobs in their stored order the offset of the second exceeds that of the first by no more than its clock.
* `on_time_of_offset` — so it is where all requests have one offset that is not negative.

## Where the code parts from its column

`job_dispatched_early`: a job for five o'clock UTC is selected at midnight.
-/

namespace LabOS

open Exceptional SchedulerService

variable {β : Type} [Content β] {env : Environment β}

/-! ### What was asked for -/

/-- A state, and for which time each of its jobs was requested. -/
structure Timed (β : Type) where
  state : State β
  requested : String → DateTime

/-- The time a request asks for: as it is given, with its offset, or the present. -/
def SchedulerJobCreateRequest.time (request : SchedulerJobCreateRequest) (now : ℤ) : DateTime :=
  request.scheduledFor.getD (.utc now)

/-- A step, which notes the time of the job it adds, if any. -/
def timedStep (env : Environment β) (s : Timed β) (a : Action β) : Timed β where
  state := step env s.state a
  requested id :=
    match a with
    | .request (.enqueueSchedulerJob request) now _ =>
      if (s.state.store.schedulerJobs.get? id).isNone then request.time now else s.requested id
    | _ => s.requested id

/-- Before any request. -/
def Timed.start (s : State β) : Timed β := ⟨s, fun _ => .utc 0⟩

/-- The state at the end of a run, with the times of its jobs. -/
abbrev timedRun (env : Environment β) (s : State β) (actions : List (Action β)) : Timed β :=
  Runs.after (timedStep env) (.start s) actions

theorem timedRun_state (s : State β) (actions : List (Action β)) :
    (timedRun env s actions).state = runFrom env s actions := by
  have hrun : ∀ (t : Timed β),
      (Runs.after (timedStep env) t actions).state = runFrom env t.state actions := by
    induction actions with
    | nil => exact fun _ => rfl
    | cons a actions ih => exact fun t => ih (timedStep env t a)
  exact hrun (.start s)

/-! ### What is stored -/

/-- The store has of each job the clock of the time it was requested for. -/
def Stored (s : Timed β) : Prop :=
  ∀ id job, s.state.store.schedulerJobs.get? id = some job → job.scheduledFor = (s.requested id).column

/-- A job that is there after a request was there before, for the same time, or the request added it. -/
theorem scheduledFor_of_effect {now : ℤ} {r : Request β} {m m' : ℕ} {st st' : Store}
    (h : Effect env now r m m' st st') {id : String} {job' : SchedulerJobRow}
    (hjob' : st'.schedulerJobs.get? id = some job') :
    (∃ job, st.schedulerJobs.get? id = some job ∧ job'.scheduledFor = job.scheduledFor) ∨
      st.schedulerJobs.get? id = none ∧
        ∃ request, r = .enqueueSchedulerJob request ∧ job'.scheduledFor = (request.time now).column := by
  have hattempt : ∀ {job outcome}, nextJob st now = some job →
      st'.schedulerJobs = st.schedulerJobs.put (settled now (claimed now job) outcome) →
      ∃ job, st.schedulerJobs.get? id = some job ∧ job'.scheduledFor = job.scheduledFor := by
    intro job outcome hnext hjobs
    obtain ⟨hjob, -⟩ := nextJob_eq_some hnext
    obtain ⟨hplace, -⟩ := settled_claimed now job outcome
    rw [hjobs] at hjob'
    rcases Table.eq_or_of_get?_put hjob' with ⟨rfl, rfl⟩ | ⟨-, hjob'⟩
    · exact ⟨job, by rw [hplace.id]; exact hjob, hplace.scheduledFor⟩
    · exact ⟨job', hjob', rfl⟩
  cases h with
  | jobQueued new =>
    rcases Table.eq_or_of_get?_put hjob' with ⟨rfl, rfl⟩ | ⟨-, hjob'⟩
    · exact .inr ⟨new.fresh, _, rfl, new.scheduledFor⟩
    · exact .inl ⟨job', hjob', rfl⟩
  | jobFailed next => exact .inl (hattempt next rfl)
  | jobMadeLab next action profile new => exact .inl (hattempt next rfl)
  | jobMadeRun next action payload new => exact .inl (hattempt next rfl)
  | reconciled sweeps => exact .inl ⟨job', schedulerJobs_of_sweeps sweeps ▸ hjob', rfl⟩
  | _ => exact .inl ⟨job', hjob', rfl⟩

theorem stored_of_timedStep {s : Timed β} (a : Action β) (hs : Stored s) : Stored (timedStep env s a) := by
  cases a with
  | guest labId entries => exact hs
  | request r now fates =>
    intro id job' hjob'
    rcases scheduledFor_of_effect (effect_of_answer env s.state r now fates) hjob' with
      ⟨job, hjob, hsame⟩ | ⟨hnew, request, rfl, htime⟩
    · rw [hsame, hs id job hjob]
      cases r <;> simp [timedStep, hjob]
    · simp [timedStep, hnew, htime]

theorem stored_of_timedRun {s₀ : State β} (h₀ : Initial env s₀) (actions : List (Action β)) :
    Stored (timedRun env s₀ actions) := by
  refine Runs.after_keeps (fun _ a hs => stored_of_timedStep a hs) fun id job hjob => ?_
  rw [show (Timed.start s₀).state.store = Store.empty from h₀.store] at hjob
  cases hjob

/-! ### On time -/

/-- The instant a job was requested for. -/
def Timed.instant (s : Timed β) (job : SchedulerJobRow) : ℤ := (s.requested job.id).instant

/-- No job is dispatched before its time, and the two queries of the scheduler give the jobs in the order of
their times. -/
structure OnTime (s : Timed β) : Prop where
  notEarly : ∀ now job, nextJob s.state.store now = some job → s.instant job ≤ now
  listed : (listJobs s.state.store).Pairwise fun a b => s.instant a ≤ s.instant b
  selected : ∀ now, (s.state.store.schedulerJobs.select (isDue now) before).Pairwise fun a b =>
    s.instant a ≤ s.instant b

/-- The offset a job was requested with, none where it was requested without. -/
def Timed.offset (s : Timed β) (job : SchedulerJobRow) : ℤ := (s.requested job.id).offset.getD 0

/-- What the times requested have to be for the clocks to do: the job that is first in the queue has no
negative offset, and of two jobs in their stored order the offset of the second is greater by no more than
its clock is. -/
structure Aligned (s : Timed β) : Prop where
  first : ∀ job ∈ s.state.store.schedulerJobs.rows, job.state = .queued →
    (∀ other ∈ s.state.store.schedulerJobs.rows, other.state = .queued → before job other) → 0 ≤ s.offset job
  pairs : ∀ a ∈ s.state.store.schedulerJobs.rows, ∀ b ∈ s.state.store.schedulerJobs.rows, before a b →
    s.offset b - s.offset a ≤ (s.requested b.id).wall - (s.requested a.id).wall

omit [Content β] in
theorem instant_eq (s : Timed β) (job : SchedulerJobRow) :
    s.instant job = (s.requested job.id).wall - s.offset job := rfl

omit [Content β] in
/-- The clock of a stored job is that of the time it was requested for. -/
theorem Stored.wall {s : Timed β} (hs : Stored s) {job : SchedulerJobRow}
    (hjob : job ∈ s.state.store.schedulerJobs.rows) : job.scheduledFor.wall = (s.requested job.id).wall := by
  rw [hs job.id job (Table.get?_of_mem hjob)]
  rfl

/-- What holds along a list that is in an order holds of any two of its members that are in the order. -/
theorem rel_of_pairwise {α : Type} {le R : α → α → Prop} {l : List α} (hle : l.Pairwise le)
    (hR : l.Pairwise R) (hrefl : ∀ a, R a a) (hanti : ∀ a ∈ l, ∀ b ∈ l, le a b → le b a → a = b) {a b : α}
    (ha : a ∈ l) (hb : b ∈ l) (hab : le a b) : R a b := by
  have hforward : l.Pairwise fun a b => le a b → R a b := hR.imp fun {a b} h (_ : le a b) => h
  have hbackward : l.Pairwise (flip fun a b => le a b → R a b) := by
    refine hle.imp_of_mem fun ha hb hab hba => ?_
    rw [hanti _ ha _ hb hab hba]
    exact hrefl _
  exact hforward.forall_of_forall_of_flip (fun a _ _ => hrefl a) hbackward ha hb hab

/-- Two jobs of a table that are each before the other are one. -/
theorem eq_of_before {st : Store} {a b : SchedulerJobRow} (ha : a ∈ st.schedulerJobs.rows)
    (hb : b ∈ st.schedulerJobs.rows) (hab : before a b) (hba : before b a) : a = b := by
  have hget := Table.get?_of_mem ha
  rw [id_of_before hab hba, Table.get?_of_mem hb] at hget
  exact (Option.some.inj hget).symm

omit [Content β] in
/-- **The list of jobs is in the order of their times** exactly when the offsets differ by no more than the
clocks. -/
theorem listed_iff (s : Timed β) :
    ((listJobs s.state.store).Pairwise fun a b => s.instant a ≤ s.instant b) ↔
      ∀ a ∈ s.state.store.schedulerJobs.rows, ∀ b ∈ s.state.store.schedulerJobs.rows, before a b →
        s.offset b - s.offset a ≤ (s.requested b.id).wall - (s.requested a.id).wall := by
  have hmem : ∀ job, job ∈ listJobs s.state.store ↔ job ∈ s.state.store.schedulerJobs.rows := by
    simp [listJobs]
  have hsorted : (listJobs s.state.store).Pairwise before := Table.pairwise_select _ _ _
  constructor
  · intro h a ha b hb hab
    have hle : s.instant a ≤ s.instant b :=
      rel_of_pairwise hsorted h (fun _ => le_rfl)
        (fun a ha b hb => eq_of_before ((hmem a).mp ha) ((hmem b).mp hb)) ((hmem a).mpr ha)
          ((hmem b).mpr hb) hab
    rw [instant_eq, instant_eq] at hle
    omega
  · intro h
    refine hsorted.imp_of_mem fun ha hb hab => ?_
    have hle := h _ ((hmem _).mp ha) _ ((hmem _).mp hb) hab
    rw [instant_eq, instant_eq]
    omega

omit [Content β] in
/-- **No job is dispatched before its time** exactly when the first one in the queue has no negative offset.
-/
theorem notEarly_iff {s : Timed β} (hs : Stored s) :
    (∀ now job, nextJob s.state.store now = some job → s.instant job ≤ now) ↔
      ∀ job ∈ s.state.store.schedulerJobs.rows, job.state = .queued →
        (∀ other ∈ s.state.store.schedulerJobs.rows, other.state = .queued → before job other) →
          0 ≤ s.offset job := by
  constructor
  · intro h job hjob hqueued hfirst
    -- when its clock is reached, the first job in the queue is the one that is selected
    have hdue : isDue job.scheduledFor.wall job = true := by simp [isDue, hqueued]
    cases hnext : nextJob s.state.store job.scheduledFor.wall with
    | none => exact absurd (nextJob_eq_none hnext (Table.get?_of_mem hjob)) (by simp [hdue])
    | some next =>
      obtain ⟨hget, hnextDue, hleast⟩ := nextJob_least hnext
      have hmem := Table.mem_of_get? hget
      have hnextQueued : next.state = .queued := (nextJob_eq_some hnext).2
      obtain rfl : next = job := eq_of_before hmem hjob (hleast _ _ (Table.get?_of_mem hjob) hdue)
        (hfirst next hmem hnextQueued)
      have hle := h _ _ hnext
      rw [instant_eq, hs.wall hjob] at hle
      omega
  · intro h now job hnext
    obtain ⟨hget, hdue, hleast⟩ := nextJob_least hnext
    have hmem := Table.mem_of_get? hget
    simp only [isDue, Bool.and_eq_true, decide_eq_true_eq] at hdue
    have hoffset : 0 ≤ s.offset job := by
      refine h job hmem hdue.1 fun other hother hqueued => ?_
      by_cases hotherDue : other.scheduledFor.wall ≤ now
      · exact hleast _ _ (Table.get?_of_mem hother) (by simp [isDue, hqueued, hotherDue])
      · exact .inl (by omega)
    rw [instant_eq, ← hs.wall hmem]
    omega

omit [Content β] in
/-- Where the clocks do for all jobs, they do for those that are due. -/
theorem selected_of_pairs {s : Timed β} (h : ∀ a ∈ s.state.store.schedulerJobs.rows,
    ∀ b ∈ s.state.store.schedulerJobs.rows, before a b →
      s.offset b - s.offset a ≤ (s.requested b.id).wall - (s.requested a.id).wall) (now : ℤ) :
    (s.state.store.schedulerJobs.select (isDue now) before).Pairwise fun a b =>
      s.instant a ≤ s.instant b := by
  refine (Table.pairwise_select _ _ _).imp_of_mem fun ha hb hab => ?_
  have hle := h _ (Table.mem_select.mp ha).1 _ (Table.mem_select.mp hb).1 hab
  rw [instant_eq, instant_eq]
  omega

omit [Content β] in
theorem onTime_of_aligned {s : Timed β} (hs : Stored s) (h : Aligned s) : OnTime s := by
  obtain ⟨hfirst, hpairs⟩ := h
  exact ⟨(notEarly_iff hs).mpr hfirst, (listed_iff _).mpr hpairs, selected_of_pairs hpairs⟩

/-- **Jobs are dispatched on time and in order exactly when their offsets allow it**, in every state a run
reaches, which noting the times does not change: no job is dispatched before the instant it was requested for, and both queries give the jobs in the
order of these instants, if and only if the first job in the queue has no negative offset, and of two jobs
in their stored order the offset of the second exceeds that of the first by no more than its clock. -/
theorem jobs_on_time_iff (env : Environment β) (s₀ : State β) (h₀ : Initial env s₀)
    (actions : List (Action β)) :
    (timedRun env s₀ actions).state = runFrom env s₀ actions ∧
      (OnTime (timedRun env s₀ actions) ↔ Aligned (timedRun env s₀ actions)) := by
  have hs := stored_of_timedRun h₀ actions
  refine ⟨timedRun_state s₀ actions, ?_⟩
  constructor
  · rintro ⟨hearly, hlisted, -⟩
    exact ⟨(notEarly_iff hs).mp hearly, (listed_iff _).mp hlisted⟩
  · exact onTime_of_aligned hs

/-- A request for a job, if it is one, has the offset. -/
def asksWith (offset : ℤ) : Action β → Bool
  | .request (.enqueueSchedulerJob request) now _ => (request.time now).offset.getD 0 = offset
  | _ => true

/-- The jobs were all requested with the offset. -/
def AllWith (offset : ℤ) (s : Timed β) : Prop :=
  ∀ id job, s.state.store.schedulerJobs.get? id = some job → s.offset job = offset

theorem allWith_of_timedStep {offset : ℤ} {s : Timed β} {a : Action β} (hs : AllWith offset s)
    (ha : asksWith offset a = true) : AllWith offset (timedStep env s a) := by
  cases a with
  | guest labId entries => exact hs
  | request r now fates =>
    intro id job' hjob'
    obtain rfl : job'.id = id := Table.key_of_get? hjob'
    rcases scheduledFor_of_effect (effect_of_answer env s.state r now fates) hjob' with
      ⟨job, hjob, -⟩ | ⟨hnew, request, rfl, -⟩
    · have hid : job.id = job'.id := Table.key_of_get? hjob
      have hbefore := hs _ job hjob
      rw [Timed.offset, hid] at hbefore
      cases r <;> simp [Timed.offset, timedStep, hjob, hbefore]
    · simpa [Timed.offset, timedStep, hnew, asksWith] using ha

/-- **In every run whose requests all have one offset** that is not negative, jobs are dispatched on time
and in order. -/
theorem on_time_of_offset {s₀ : State β} (h₀ : Initial env s₀) {offset : ℤ} (hoffset : 0 ≤ offset)
    {actions : List (Action β)}
    (hactions : Runs.Allowed (timedStep env) (fun _ a => asksWith offset a = true) (.start s₀) actions) :
    OnTime (timedRun env s₀ actions) := by
  have hs := stored_of_timedRun h₀ actions
  have hall : AllWith offset (timedRun env s₀ actions) := by
    refine Runs.after_keeps_of (fun _ _ hs ha => allWith_of_timedStep hs ha) (fun id job hjob => ?_) hactions
    rw [show (Timed.start s₀).state.store = Store.empty from h₀.store] at hjob
    cases hjob
  refine onTime_of_aligned hs ⟨fun job hjob _ _ => ?_, fun a ha b hb hab => ?_⟩
  · rw [hall _ job (Table.get?_of_mem hjob)]
    exact hoffset
  · have hwall : a.scheduledFor.wall ≤ b.scheduledFor.wall := by
      rcases hab with hab | ⟨hab, -⟩ <;> omega
    rw [hs.wall ha, hs.wall hb] at hwall
    rw [hall _ a (Table.get?_of_mem ha), hall _ b (Table.get?_of_mem hb)]
    omega

/-- A job that is requested for midnight, by a clock five hours behind UTC. -/
def behindJob : SchedulerJobCreateRequest where
  action := .createLab
  requesterId := "cron"
  profileName := some "safe-dev"
  scheduledFor := some ⟨0, some (-18000000000)⟩

/-- A job that is requested for two o'clock UTC. -/
def utcJob : SchedulerJobCreateRequest where
  action := .createLab
  requesterId := "cron"
  profileName := some "safe-dev"
  scheduledFor := some (.utc 7200000000)

/-- Two jobs at the times they ask for are in order. -/
theorem jobs_on_time_iff_utcJob :
    OnTime (timedRun (symbolic defaultProfiles) emptyState
      [.request (.enqueueSchedulerJob utcJob) (-1) [], .request (.enqueueSchedulerJob utcJob) 0 []]) := by
  refine (jobs_on_time_iff (symbolic defaultProfiles) emptyState (initial_emptyState _) _).2.mpr ⟨?_, ?_⟩
  · decide +kernel
  · decide +kernel

/-- **A job is dispatched five hours early**, and listed before one whose time comes first. -/
theorem job_dispatched_early :
    (∃ job, nextJob (timedRun (symbolic defaultProfiles) emptyState
        [.request (.enqueueSchedulerJob behindJob) (-1) []]).state.store 0 = some job ∧
      0 < (timedRun (symbolic defaultProfiles) emptyState
        [.request (.enqueueSchedulerJob behindJob) (-1) []]).instant job) ∧
    ¬ OnTime (timedRun (symbolic defaultProfiles) emptyState
      [.request (.enqueueSchedulerJob behindJob) (-1) []]) ∧
    ¬ (listJobs (timedRun (symbolic defaultProfiles) emptyState
      [.request (.enqueueSchedulerJob behindJob) (-1) [],
        .request (.enqueueSchedulerJob utcJob) (-1) []]).state.store).Pairwise fun a b =>
          (timedRun (symbolic defaultProfiles) emptyState
            [.request (.enqueueSchedulerJob behindJob) (-1) [],
              .request (.enqueueSchedulerJob utcJob) (-1) []]).instant a ≤
          (timedRun (symbolic defaultProfiles) emptyState
            [.request (.enqueueSchedulerJob behindJob) (-1) [],
              .request (.enqueueSchedulerJob utcJob) (-1) []]).instant b := by
  have hearly : ((nextJob (timedRun (symbolic defaultProfiles) emptyState
      [.request (.enqueueSchedulerJob behindJob) (-1) []]).state.store 0).any fun job =>
        0 < (timedRun (symbolic defaultProfiles) emptyState
          [.request (.enqueueSchedulerJob behindJob) (-1) []]).instant job) = true := by decide +kernel
  obtain ⟨job, hnext, hlate⟩ := (Option.any_eq_true ..).mp hearly
  have hlate := of_decide_eq_true hlate
  exact ⟨⟨job, hnext, hlate⟩, fun hon => absurd (hon.notEarly 0 job hnext) (by omega), by decide +kernel⟩

end LabOS
