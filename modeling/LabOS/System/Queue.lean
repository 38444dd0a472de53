import LabOS.System.Jobs

/-!
# Draining the queue

A worker calls `run_next` until it returns nothing. A job whose action fails goes back to the queue under the
key it had, so that it is the first again until its attempts are used up.

## What is proved

* `drain_returns` — **the calls come to an end**, after as many as there are attempts left to the jobs that
  are due, with the jobs in their order and the attempts of each next to each other; what was due has
  succeeded or failed, and all else is as it was.
* `spares_app`, `attemptable_of_run` — so it is with the callbacks of the application, in every state a run
  reaches. -/

namespace LabOS

open Exceptional SchedulerService

variable {β : Type}

/-! ### The order of the queue -/

section Order

variable {a b c a' b' : SchedulerJobRow}

instance : Std.Total SchedulerService.before := ⟨fun a b => by
  rcases lt_trichotomy a.scheduledFor.wall b.scheduledFor.wall with h | h | h
  · exact .inl (.inl h)
  · rcases lt_trichotomy a.createdAt.wall b.createdAt.wall with h' | h' | h'
    · exact .inl (.inr ⟨h, .inl h'⟩)
    · exact (le_total a.id b.id).imp (fun hid => .inr ⟨h, .inr ⟨h', hid⟩⟩) fun hid =>
        .inr ⟨h.symm, .inr ⟨h'.symm, hid⟩⟩
    · exact .inr (.inr ⟨h.symm, .inl h'⟩)
  · exact .inr (.inl h)⟩

instance : IsTrans SchedulerJobRow SchedulerService.before := ⟨fun a b c hab hbc => by
  rcases hab with hab | ⟨hab, hab'⟩ <;> rcases hbc with hbc | ⟨hbc, hbc'⟩
  · exact .inl (hab.trans hbc)
  · exact .inl (hab.trans_eq hbc)
  · exact .inl (hab.trans_lt hbc)
  · refine .inr ⟨hab.trans hbc, ?_⟩
    rcases hab' with hab' | ⟨hab', hid⟩ <;> rcases hbc' with hbc' | ⟨hbc', hid'⟩
    · exact .inl (hab'.trans hbc')
    · exact .inl (hab'.trans_eq hbc')
    · exact .inl (hab'.trans_lt hbc')
    · exact .inr ⟨hab'.trans hbc', hid.trans hid'⟩⟩

/-- Two jobs have one place in the queue. -/
structure SamePlace (a b : SchedulerJobRow) : Prop where
  id : a.id = b.id
  scheduledFor : a.scheduledFor = b.scheduledFor
  createdAt : a.createdAt = b.createdAt

theorem SamePlace.rfl : SamePlace a a := ⟨Eq.refl _, Eq.refl _, Eq.refl _⟩

theorem SamePlace.trans (h : SamePlace a b) (h' : SamePlace b c) : SamePlace a c :=
  ⟨h.id.trans h'.id, h.scheduledFor.trans h'.scheduledFor, h.createdAt.trans h'.createdAt⟩

theorem SamePlace.symm (h : SamePlace a b) : SamePlace b a :=
  ⟨h.id.symm, h.scheduledFor.symm, h.createdAt.symm⟩

theorem before_congr (ha : SamePlace a a') (hb : SamePlace b b') : before a b ↔ before a' b' := by
  simp only [before, ha.id, ha.scheduledFor, ha.createdAt, hb.id, hb.scheduledFor, hb.createdAt]

theorem before_refl (a : SchedulerJobRow) : before a a := .inr ⟨Eq.refl _, .inr ⟨Eq.refl _, le_refl a.id⟩⟩

/-- No two jobs are each before the other. -/
theorem id_of_before (hab : before a b) (hba : before b a) : a.id = b.id := by
  unfold before at hab hba
  rcases hab with hab | ⟨hab, hab'⟩
  · omega
  · rcases hba with hba | ⟨hba, hba'⟩
    · omega
    · rcases hab' with hab' | ⟨heq, hid⟩
      · rcases hba' with hba' | ⟨hba', -⟩ <;> omega
      · rcases hba' with hba' | ⟨-, hid'⟩
        · omega
        · exact le_antisymm hid hid'

end Order

/-! ### The next job -/

/-- The job is queued and due. -/
def isDue (now : ℤ) (job : SchedulerJobRow) : Bool := job.state = .queued && job.scheduledFor.wall ≤ now

/-- **The next job** is due, and before every other that is. -/
theorem nextJob_least {st : Store} {now : ℤ} {job : SchedulerJobRow} (h : nextJob st now = some job) :
    st.schedulerJobs.get? job.id = some job ∧ isDue now job = true ∧
      ∀ id other, st.schedulerJobs.get? id = some other → isDue now other = true → before job other := by
  have hselect : st.schedulerJobs.select (isDue now) before =
      job :: (st.schedulerJobs.select (isDue now) before).tail :=
    List.eq_cons_of_mem_head? (Option.mem_def.mpr h)
  have hmem : job ∈ st.schedulerJobs.select (isDue now) before := hselect ▸ List.mem_cons_self
  obtain ⟨hrow, hdue⟩ := Table.mem_select.mp hmem
  refine ⟨Table.get?_of_mem hrow, hdue, fun id other hother hotherDue => ?_⟩
  have hsorted := Table.pairwise_select st.schedulerJobs (isDue now) before
  have hin : other ∈ st.schedulerJobs.select (isDue now) before :=
    Table.mem_select.mpr ⟨Table.mem_of_get? hother, hotherDue⟩
  rw [hselect] at hsorted hin
  rcases List.mem_cons.mp hin with rfl | hin
  · exact before_refl _
  · exact List.rel_of_pairwise_cons hsorted hin

/-- There is none where none is due. -/
theorem nextJob_eq_none {st : Store} {now : ℤ} (h : nextJob st now = none) {id : String}
    {job : SchedulerJobRow} (hjob : st.schedulerJobs.get? id = some job) : isDue now job = false := by
  by_contra hdue
  have hin : job ∈ st.schedulerJobs.select (isDue now) before :=
    Table.mem_select.mpr ⟨Table.mem_of_get? hjob, by simpa using hdue⟩
  have hempty : st.schedulerJobs.select (isDue now) before = [] := List.head?_eq_none_iff.mp h
  rw [hempty] at hin
  cases hin

/-! ### One call -/

/-- The callbacks of a call of `run_next`. -/
structure Creators (β : Type) where
  createLab : String → SessionM β String
  createRun : String → String → SessionM β String

/-- Callbacks that enqueue nothing: where they return, the jobs are as before. -/
structure Creators.Spares (creators : Creators β) : Prop where
  createLab : ∀ {profileName s id s'}, creators.createLab profileName s = .ok id s' →
    s'.store.schedulerJobs = s.store.schedulerJobs
  createRun : ∀ {labId command s id s'}, creators.createRun labId command s = .ok id s' →
    s'.store.schedulerJobs = s.store.schedulerJobs

/-- The action of a job leaves the jobs alone, whether it returns or raises. -/
theorem schedulerJobs_of_spares {creators : Creators β} (h : creators.Spares) {job : SchedulerJobRow}
    {outcome : Except Exc (String × String)} {s s' : Session β}
    (hattempt : attempt (rollingBack (action creators.createLab creators.createRun job)) s = .ok outcome s') :
    s'.store.schedulerJobs = s.store.schedulerJobs := by
  rcases attempt_eq_ok.mp hattempt with ⟨result, -, haction⟩ | ⟨e, -, haction⟩
  · rcases action_eq_ok (rollingBack_eq_ok.mp haction) with
      ⟨profileName, id, -, -, hcreate, -⟩ | ⟨labId, command, id, -, -, -, hcreate, -⟩
    · exact h.createLab hcreate
    · exact h.createRun hcreate
  · rw [store_of_rollingBack_error haction]

/-- What an attempt makes of a job: its place stays, one more attempt is counted, and it is queued again only
while there are attempts left. -/
theorem settled_claimed (now : ℤ) (job : SchedulerJobRow) (outcome : Except Exc (String × String)) :
    SamePlace (settled now (claimed now job) outcome) job ∧
      (settled now (claimed now job) outcome).maxAttempts = job.maxAttempts ∧
      (settled now (claimed now job) outcome).attemptCount = job.attemptCount + 1 ∧
      ((settled now (claimed now job) outcome).state = .queued ∧ job.attemptCount + 1 < job.maxAttempts ∨
        (settled now (claimed now job) outcome).state = .succeeded ∨
        (settled now (claimed now job) outcome).state = .failed) := by
  cases outcome with
  | ok result => exact ⟨⟨rfl, rfl, rfl⟩, rfl, rfl, .inr (.inl rfl)⟩
  | error e =>
    by_cases hlast : job.maxAttempts ≤ job.attemptCount + 1
    · have hsettled : settled now (claimed now job) (.error e) =
          { claimed now job with
            lastError := some e.text, state := .failed, completedAt :=
              some (DateTime.utc now).column } := if_pos hlast
      rw [hsettled]
      exact ⟨⟨rfl, rfl, rfl⟩, rfl, rfl, .inr (.inr rfl)⟩
    · have hsettled : settled now (claimed now job) (.error e) =
          { claimed now job with lastError := some e.text, state := .queued } := if_neg hlast
      rw [hsettled]
      exact ⟨⟨rfl, rfl, rfl⟩, rfl, rfl, .inl ⟨rfl, Nat.lt_of_not_le hlast⟩⟩

/-- **A call of `run_next`** always returns: nothing where no job is due, else the next job after one
attempt, whose row is the only one of the jobs that changed. -/
theorem runNext_cases {creators : Creators β} (h : creators.Spares) (now : ℤ) (s : Session β) :
    (nextJob s.store now = none ∧ runNext now creators.createLab creators.createRun s = .ok none s) ∨
    ∃ job outcome s', nextJob s.store now = some job ∧
      runNext now creators.createLab creators.createRun s = .ok
        (some (settled now (claimed now job) outcome)) s' ∧
      s'.store.schedulerJobs = s.store.schedulerJobs.put (settled now (claimed now job) outcome) := by
  cases hnext : nextJob s.store now with
  | none =>
    refine .inl ⟨rfl, ?_⟩
    unfold runNext
    rw [bind_run_of_ok (get_eq_ok.mpr ⟨rfl, rfl⟩), hnext]
    rfl
  | some job =>
    obtain ⟨outcome, s₁, hattempt⟩ := attempt_ok
      (rollingBack (action creators.createLab creators.createRun (claimed now job)))
      { s with store := { s.store with schedulerJobs := s.store.schedulerJobs.put (claimed now job) } }
    refine .inr ⟨job, outcome, _, rfl, runNext_eq_ok.mpr ⟨job, outcome, s₁, hnext, hattempt, rfl, rfl⟩, ?_⟩
    dsimp only
    rw [schedulerJobs_of_spares h hattempt]
    exact Table.put_put (settled_id now _ outcome).symm

/-! ### All calls -/

/-- Call `run_next` until it returns nothing, `limit` times at most: the jobs it returned, where it came to
that. -/
def drain (now : ℤ) (creators : ℕ → Creators β) : ℕ → SessionM β (Option (List SchedulerJobRow))
  | 0 => pure none
  | limit + 1 => do
    let row ← runNext now (creators 0).createLab (creators 0).createRun
    match row with
    | none => pure (some [])
    | some job => do
      let rest ← drain now (fun i => creators (i + 1)) limit
      pure (rest.map (job :: ·))

/-- The attempts left to the jobs that are due. -/
def remaining (now : ℤ) (st : Store) : ℕ :=
  ((st.schedulerJobs.rows.filter (isDue now)).map fun job => job.maxAttempts - job.attemptCount).sum

/-- A queued job has an attempt left. -/
def Attemptable (st : Store) : Prop :=
  ∀ id job, st.schedulerJobs.get? id = some job → job.state = .queued → job.attemptCount < job.maxAttempts

/-- From `st` to `st'` the queue was drained, and `jobs` were returned. -/
structure Drained (now : ℤ) (st st' : Store) (jobs : List SchedulerJobRow) : Prop where
  places : ∀ job ∈ jobs, ∃ was, st.schedulerJobs.get? job.id = some was ∧ isDue now was = true ∧
    SamePlace job was
  sorted : jobs.Pairwise before
  finished : ∀ id job, st.schedulerJobs.get? id = some job → isDue now job = true →
    ∃ job', st'.schedulerJobs.get? id = some job' ∧ (job'.state = .succeeded ∨ job'.state = .failed)
  untouched : ∀ id, (∀ job, st.schedulerJobs.get? id = some job → isDue now job = false) →
    st'.schedulerJobs.get? id = st.schedulerJobs.get? id

section Attempt

variable {now : ℤ} {st st₁ st' : Store} {job : SchedulerJobRow} {outcome : Except Exc (String × String)}

/-- A job that is queued again is due again. -/
theorem isDue_settled (hdue : isDue now job = true)
    (h : (settled now (claimed now job) outcome).state = .queued) :
    isDue now (settled now (claimed now job) outcome) = true := by
  obtain ⟨hplace, -⟩ := settled_claimed now job outcome
  simp only [isDue, Bool.and_eq_true, decide_eq_true_eq] at hdue ⊢
  exact ⟨h, hplace.scheduledFor ▸ hdue.2⟩

theorem attemptable_of_attempt (hst : Attemptable st)
    (hjobs : st₁.schedulerJobs = st.schedulerJobs.put (settled now (claimed now job) outcome)) :
    Attemptable st₁ := by
  intro id other hother hqueued
  obtain ⟨-, hmax, hcount, hstate⟩ := settled_claimed now job outcome
  rw [hjobs] at hother
  rcases Table.eq_or_of_get?_put hother with ⟨-, rfl⟩ | ⟨-, hother⟩
  · rw [hcount, hmax]
    rcases hstate with ⟨-, hleft⟩ | hdone | hdone
    · exact hleft
    · exact absurd (hqueued.symm.trans hdone) (by simp)
    · exact absurd (hqueued.symm.trans hdone) (by simp)
  · exact hst id other hother hqueued

/-- **An attempt uses one up.** -/
theorem remaining_of_attempt (hst : Attemptable st) (hjob : st.schedulerJobs.get? job.id = some job)
    (hdue : isDue now job = true)
    (hjobs : st₁.schedulerJobs = st.schedulerJobs.put (settled now (claimed now job) outcome)) :
    remaining now st₁ + 1 ≤ remaining now st := by
  obtain ⟨hplace, hmax, hcount, hstate⟩ := settled_claimed now job outcome
  have hqueued : job.state = .queued := by
    simp only [isDue, Bool.and_eq_true, decide_eq_true_eq] at hdue
    exact hdue.1
  have hleft := hst _ _ hjob hqueued
  have hstored : st.schedulerJobs.get? (settled now (claimed now job) outcome).id = some job := by
    rw [hplace.id]
    exact hjob
  have hsum := Table.sum_put hstored (isDue now) fun job => job.maxAttempts - job.attemptCount
  rw [← hjobs, hmax, hcount, if_pos hdue] at hsum
  unfold remaining
  split at hsum <;> omega

/-- **After an attempt on the first job** the rest of the queue is drained as before it. -/
theorem drained_cons {jobs : List SchedulerJobRow} (hnext : nextJob st now = some job)
    (hjobs : st₁.schedulerJobs = st.schedulerJobs.put (settled now (claimed now job) outcome))
    (h : Drained now st₁ st' jobs) : Drained now st st' (settled now (claimed now job) outcome :: jobs) := by
  obtain ⟨hjob, hdue, hleast⟩ := nextJob_least hnext
  obtain ⟨hplace, -, -, hstate⟩ := settled_claimed now job outcome
  have hself : st₁.schedulerJobs.get? job.id = some (settled now (claimed now job) outcome) := by
    rw [hjobs, ← hplace.id]
    exact Table.get?_put_self _ _
  have hother : ∀ {id}, id ≠ job.id → st₁.schedulerJobs.get? id = st.schedulerJobs.get? id := by
    intro id hid
    rw [hjobs]
    exact Table.get?_put_ne (by rwa [hplace.id])
  -- what is returned later had its place in the queue before
  have hplaces : ∀ x ∈ jobs, ∃ was, st.schedulerJobs.get? x.id = some was ∧ isDue now was = true ∧
      SamePlace x was := by
    intro x hx
    obtain ⟨was, hwas, hwasDue, hsame⟩ := h.places x hx
    by_cases hid : x.id = job.id
    · rw [hid, hself] at hwas
      obtain rfl := Option.some.inj hwas
      exact ⟨job, hid ▸ hjob, hdue, hsame.trans hplace⟩
    · exact ⟨was, (hother hid).symm.trans hwas, hwasDue, hsame⟩
  refine ⟨?_, ?_, ?_, ?_⟩
  · intro x hx
    rcases List.mem_cons.mp hx with rfl | hx
    · exact ⟨job, by rw [hplace.id]; exact hjob, hdue, hplace⟩
    · exact hplaces x hx
  · refine List.pairwise_cons.mpr ⟨fun x hx => ?_, h.sorted⟩
    obtain ⟨was, hwas, hwasDue, hsame⟩ := hplaces x hx
    exact (before_congr hplace hsame).mpr (hleast _ was hwas hwasDue)
  · intro id other hget hotherDue
    by_cases hid : id = job.id
    · subst hid
      by_cases hqueued : (settled now (claimed now job) outcome).state = .queued
      · exact h.finished _ _ hself (isDue_settled hdue hqueued)
      · refine ⟨_, ?_, hstate.resolve_left fun hagain => hqueued hagain.1⟩
        rw [h.untouched _ fun x hx => ?_, hself]
        obtain rfl := Option.some.inj (hself.symm.trans hx)
        simp [isDue, hqueued]
    · exact h.finished id other ((hother hid).trans hget) hotherDue
  · intro id hnot
    have hid : id ≠ job.id := by
      rintro rfl
      exact absurd (hnot job hjob) (by simp [hdue])
    rw [h.untouched id fun x hx => hnot x ((hother hid).symm.trans hx), hother hid]

end Attempt

/-- **The calls come to an end** when there are more of them than attempts left. -/
theorem drained_of_drain {now : ℤ} {creators : ℕ → Creators β}
    (hspares : ∀ i, (creators i).Spares) {limit : ℕ} {s : Session β} (hst : Attemptable s.store)
    (hlimit : remaining now s.store < limit) :
    ∃ jobs s', drain now creators limit s = .ok (some jobs) s' ∧ jobs.length ≤ remaining now s.store ∧
      Drained now s.store s'.store jobs := by
  induction limit generalizing creators s with
  | zero => omega
  | succ limit ih =>
    rcases runNext_cases (hspares 0) now s with ⟨hnone, hrun⟩ | ⟨job, outcome, s₁, hnext, hrun, hjobs⟩
    · refine ⟨[], s, ?_, Nat.zero_le _, fun _ h => (by cases h), List.Pairwise.nil, ?_, fun _ _ => rfl⟩
      · unfold drain
        rw [bind_run_of_ok hrun]
        rfl
      · intro id job hjob hdue
        exact absurd (nextJob_eq_none hnone hjob) (by simp [hdue])
    · obtain ⟨hjob, hdue, -⟩ := nextJob_least hnext
      have hless := remaining_of_attempt hst hjob hdue hjobs
      obtain ⟨jobs, s', hdrain, hlength, hdrained⟩ :=
        ih (fun i => hspares (i + 1)) (attemptable_of_attempt hst hjobs) (by omega)
      refine ⟨settled now (claimed now job) outcome :: jobs, s', ?_, ?_, drained_cons hnext hjobs hdrained⟩
      · unfold drain
        rw [bind_run_of_ok hrun]
        exact bind_run_of_ok hdrain
      · rw [List.length_cons]
        omega

/-- The attempts of one job are next to each other: between two of them only others of it are returned. -/
theorem Drained.contiguous {now : ℤ} {st st' : Store} {jobs : List SchedulerJobRow}
    (h : Drained now st st' jobs) {a b c : SchedulerJobRow} (habc : [a, b, c].Sublist jobs)
    (hac : a.id = c.id) : b.id = a.id := by
  obtain ⟨hab, hbc⟩ : before a b ∧ before b c := by
    have hsorted := h.sorted.sublist habc
    simp only [List.pairwise_cons, List.mem_cons, List.not_mem_nil, or_false, forall_eq_or_imp,
      forall_eq] at hsorted
    exact ⟨hsorted.1.1, hsorted.2.1⟩
  have hsame : SamePlace a c := by
    obtain ⟨was, hwas, -, ha⟩ := h.places a (habc.subset (by simp))
    obtain ⟨was', hwas', -, hc⟩ := h.places c (habc.subset (by simp))
    rw [hac, hwas'] at hwas
    obtain rfl := Option.some.inj hwas
    exact ha.trans hc.symm
  exact id_of_before ((before_congr SamePlace.rfl hsame.symm).mp hbc) hab

/-- **Draining the queue terminates, in order.** Where every queued job has an attempt left, and callbacks
that enqueue nothing return or raise as they like at each call, `run_next` returns nothing after as many
calls at most as the jobs that are due have attempts left. The jobs it returns are in the order of the
queue, the attempts of each next to each other; in the end every job that was due has succeeded or failed,
and every other is as it was. -/
theorem drain_returns (now : ℤ) (creators : ℕ → Creators β)
    (hspares : ∀ i, (creators i).Spares) (s : Session β)
    (hst : ∀ job ∈ s.store.schedulerJobs.rows, job.state = .queued → job.attemptCount < job.maxAttempts) :
    ∃ jobs s', drain now creators (remaining now s.store + 1) s = .ok (some jobs) s' ∧
      jobs.length ≤ remaining now s.store ∧ jobs.Pairwise before ∧
      (∀ a b c, [a, b, c].Sublist jobs → a.id = c.id → b.id = a.id) ∧
      (∀ job ∈ s.store.schedulerJobs.rows, isDue now job = true →
        ∃ job', s'.store.schedulerJobs.get? job.id = some job' ∧
          (job'.state = .succeeded ∨ job'.state = .failed)) ∧
      ∀ id, (∀ job, s.store.schedulerJobs.get? id = some job → isDue now job = false) →
        s'.store.schedulerJobs.get? id = s.store.schedulerJobs.get? id := by
  have hattemptable : Attemptable s.store := fun id job hjob => hst job (Table.mem_of_get? hjob)
  obtain ⟨jobs, s', hdrain, hlength, hdrained⟩ := drained_of_drain hspares hattemptable (Nat.lt_succ_self _)
  refine ⟨jobs, s', hdrain, hlength, hdrained.sorted, fun a b c => hdrained.contiguous, fun job hjob => ?_,
    hdrained.untouched⟩
  exact hdrained.finished job.id job (Table.get?_of_mem hjob)

/-! ### The application -/

/-- The callbacks of the application. -/
def appCreators [Content β] (env : Environment β) (now : ℤ) : Creators β where
  createLab := App.createJobLab env now
  createRun := App.createJobRun env now

theorem spares_app [Content β] (env : Environment β) (now : ℤ) : (appCreators env now).Spares where
  createLab h := by
    simp only [appCreators, App.createJobLab, bind_eq_ok, pure_eq_ok] at h
    obtain ⟨lab, _, hcreate, -, rfl⟩ := h
    obtain ⟨storage, approvals, -, hstore⟩ := createLabRecord_eq_ok hcreate
    rw [hstore]
  createRun h := by
    simp only [appCreators, App.createJobRun, bind_eq_ok, pure_eq_ok] at h
    obtain ⟨run, _, hcreate, -, rfl⟩ := h
    obtain ⟨-, hstore⟩ := createRunRecord_eq_ok hcreate
    rw [hstore]

/-- **In every state a run reaches** a queued job has an attempt left. -/
theorem attemptable_of_run [Content β] {env : Environment β} {s₀ : State β} (h₀ : Initial env s₀)
    (actions : List (JobAction env)) : Attemptable (Runs.after (jobStep env) s₀ actions).store :=
  fun id job hjob hqueued => (((ledgers_of_run h₀ actions).jobs id job hjob).queued hqueued).1

/-- Two jobs: one without a profile of its name, which is attempted twice, and one that makes a lab. -/
def queueRun : List (JobAction (symbolic defaultProfiles)) :=
  [.system (.request (.enqueueSchedulerJob
      { action := .createLab, requesterId := "cron", profileName := some "no-such", maxAttempts := 2 }) 0 []),
   .system (.request (.enqueueSchedulerJob
      { action := .createLab, requesterId := "cron", profileName := some "safe-dev" }) 1 [])]

/-- They are drained in five calls at most. -/
theorem drain_returns_queueRun :
    remaining 2 (Runs.after (jobStep (symbolic defaultProfiles)) emptyState queueRun).store = 5 ∧
    ∃ jobs s', drain 2 (fun _ => appCreators (symbolic defaultProfiles) 2) 6
        ((Runs.after (jobStep (symbolic defaultProfiles)) emptyState queueRun).session []) = .ok
          (some jobs) s' ∧
      jobs.length ≤ 5 := by
  have hremaining : remaining 2
      (Runs.after (jobStep (symbolic defaultProfiles)) emptyState queueRun).store = 5 := by
    decide +kernel
  obtain ⟨jobs, s', hdrain, hlength, -⟩ := drain_returns 2 (fun _ => appCreators (symbolic defaultProfiles) 2)
    (fun _ => spares_app _ 2)
      ((Runs.after (jobStep (symbolic defaultProfiles)) emptyState queueRun).session [])
    fun job hjob => attemptable_of_run (initial_emptyState _) queueRun _ job (Table.get?_of_mem hjob)
  change jobs.length ≤ remaining 2
    (Runs.after (jobStep (symbolic defaultProfiles)) emptyState queueRun).store at hlength
  change drain 2 _ (remaining 2
    (Runs.after (jobStep (symbolic defaultProfiles)) emptyState queueRun).store + 1) _ = _
    at hdrain
  rw [hremaining] at hlength hdrain
  exact ⟨hremaining, jobs, s', hdrain, hlength⟩

end LabOS
