import LabOS.System.Audit
import LabOS.System.Captures
import LabOS.System.Journal
import LabOS.System.Leases
import LabOS.System.PassRows

/-!
# What a row stays

A row is an identity, what it is of, when it was made and on what terms, and a few columns that say how far it
has come. The handlers and the reconciler write whole rows, each read before it is written; nothing in the
schema forbids to write the others. `Later` says for each table what may become of a row, once and for all:
storage and snapshots stay as they are, and what was decided, revoked, timed out or dispatched for good is not
taken up again.

## What is proved

* `rowsKept_of_pass` — a reconciliation pass keeps every row.
* `records_kept` — **over every run, from any state, no row is lost**, none changes but as its `Later` says, and
  the events are only added to.
* `states_as_declared` — **approvals and snapshots move along the tables declared for them**.
-/

namespace LabOS

open Exceptional ReconciliationService

variable {β : Type} [Content β] {env : Environment β}

/-! ### Rows -/

/-- A lab keeps all but its state and the count of its failed destroys, which only grows. -/
def LabRow.Later (lab lab' : LabRow) : Prop :=
  lab' = { lab with
    state := lab'.state, destroyAttempts := lab'.destroyAttempts, lastDestroyError :=
      lab'.lastDestroyError } ∧
  lab.destroyAttempts ≤ lab'.destroyAttempts

/-- A run keeps all, or its time is up. -/
def RunRow.Later (run run' : RunRow) : Prop :=
  run' = run ∨ isActive run = true ∧ ∃ at', run' = { run with state := .timedOut, finishedAt := some at' }

/-- An approval keeps all, or was requested and is decided or expired. -/
def ApprovalRow.Later (a a' : ApprovalRow) : Prop :=
  a' = a ∨ a.state = .requested ∧ a'.state ≠ .requested ∧ a'.decidedAt.isSome = true ∧ a' = { a with
    state := a'.state, approved := a'.approved, decisionComment := a'.decisionComment
    decidedBy := a'.decidedBy, decidedAt := a'.decidedAt }

/-- An export keeps what it is of and how its artifact was staged; an approval it needs it may be rid of. -/
def ExportRow.Later (row row' : ExportRow) : Prop :=
  row' = { row with
    state := row'.state, releasedPath := row'.releasedPath, approvalRequired := row'.approvalRequired
    denialReason := row'.denialReason } ∧
  (row'.approvalRequired = true → row.approvalRequired = true)

/-- A job keeps all, or was queued and is dispatched. -/
def SchedulerJobRow.Later (job job' : SchedulerJobRow) : Prop :=
  job' = job ∨ job.state = .queued ∧ job.attemptCount < job'.attemptCount ∧ job' = { job with
    state := job'.state, attemptCount := job'.attemptCount, lastError := job'.lastError
    resultResourceType := job'.resultResourceType, resultResourceId := job'.resultResourceId
    dispatchedAt := job'.dispatchedAt, completedAt := job'.completedAt }

theorem LabRow.Later.refl (lab : LabRow) : lab.Later lab := ⟨rfl, le_rfl⟩

theorem LabRow.Later.trans {a b c : LabRow} (h : a.Later b) (h' : b.Later c) : a.Later c := by
  refine ⟨h'.1.trans ?_, h.2.trans h'.2⟩
  rw [h.1]

theorem RunRow.Later.trans {a b c : RunRow} (h : a.Later b) (h' : b.Later c) : a.Later c := by
  rcases h with rfl | ⟨hactive, at', rfl⟩
  · exact h'
  · rcases h' with rfl | ⟨hactive', -⟩
    · exact .inr ⟨hactive, at', rfl⟩
    · cases hactive'

theorem ApprovalRow.Later.trans {a b c : ApprovalRow} (h : a.Later b) (h' : b.Later c) : a.Later c := by
  rcases h with rfl | ⟨hrequested, hdecided, hat, hb⟩
  · exact h'
  · rcases h' with rfl | ⟨hrequested', -⟩
    · exact .inr ⟨hrequested, hdecided, hat, hb⟩
    · exact absurd hrequested' hdecided

/-- An approval moves along its table. -/
theorem ApprovalRow.Later.state_mem {a b : ApprovalRow} (h : a.Later b) :
    b.state = a.state ∨ b.state ∈ approvalTransitions a.state := by
  rcases h with rfl | ⟨hrequested, hdecided, -⟩
  · exact .inl rfl
  · rw [hrequested]
    cases hb : b.state with
    | requested => exact absurd hb hdecided
    | approved | rejected | expired => exact .inr (by simp [approvalTransitions])

theorem ExportRow.Later.refl (row : ExportRow) : row.Later row := ⟨rfl, fun h => h⟩

theorem ExportRow.Later.trans {a b c : ExportRow} (h : a.Later b) (h' : b.Later c) : a.Later c := by
  refine ⟨h'.1.trans ?_, fun hrequired => h.2 (h'.2 hrequired)⟩
  rw [h.1]

theorem SchedulerJobRow.Later.trans {a b c : SchedulerJobRow} (h : a.Later b) (h' : b.Later c) :
    a.Later c := by
  rcases h with rfl | ⟨hqueued, hcount, hb⟩
  · exact h'
  · rcases h' with rfl | ⟨-, hcount', hc⟩
    · exact .inr ⟨hqueued, hcount, hb⟩
    · refine .inr ⟨hqueued, hcount.trans hcount', hc.trans ?_⟩
      rw [hb]

/-! ### Tables -/

section Tables

variable {ρ : Type} {key : ρ → String} {R : ρ → ρ → Prop} {t t' t'' : Table key}

/-- Every row of `t` is in `t'`, as `R` allows. -/
def Carried (R : ρ → ρ → Prop) (t t' : Table key) : Prop :=
  ∀ id row, t.get? id = some row → ∃ row', t'.get? id = some row' ∧ R row row'

theorem Carried.refl (hrefl : ∀ row, R row row) (t : Table key) : Carried R t t :=
  fun _ row hrow => ⟨row, hrow, hrefl row⟩

theorem Carried.trans (htrans : ∀ {a b c}, R a b → R b c → R a c) (h : Carried R t t')
    (h' : Carried R t' t'') : Carried R t t'' := by
  intro id row hrow
  obtain ⟨row', hrow', hR⟩ := h id row hrow
  obtain ⟨row'', hrow'', hR'⟩ := h' id row' hrow'
  exact ⟨row'', hrow'', htrans hR hR'⟩

/-- A table that is computed row by row carries what each row allows. -/
theorem Carried.of_map {f : ρ → ρ} (hf : ∀ row, R row (f row))
    (h : ∀ id, t'.get? id = (t.get? id).map f) : Carried R t t' := by
  intro id row hrow
  exact ⟨f row, by rw [h, hrow, Option.map_some], hf row⟩

end Tables

/-- **No row is lost**, and none changes but as it may. -/
structure RowsKept (st st' : Store) : Prop where
  labs : Carried LabRow.Later st.labs st'.labs
  labStorage : Carried Eq st.labStorage st'.labStorage
  runs : Carried RunRow.Later st.runs st'.runs
  approvals : Carried ApprovalRow.Later st.approvals st'.approvals
  exports : Carried ExportRow.Later st.exports st'.exports
  snapshots : Carried Eq st.snapshots st'.snapshots
  secretLeases : Carried LeaseMove st.secretLeases st'.secretLeases
  schedulerJobs : Carried SchedulerJobRow.Later st.schedulerJobs st'.schedulerJobs
  events : st.events <+: st'.events

theorem RowsKept.refl (st : Store) : RowsKept st st where
  labs := .refl LabRow.Later.refl _
  labStorage := .refl (fun _ => rfl) _
  runs := .refl (fun _ => .inl rfl) _
  approvals := .refl (fun _ => .inl rfl) _
  exports := .refl ExportRow.Later.refl _
  snapshots := .refl (fun _ => rfl) _
  secretLeases := .refl (fun _ => .inl rfl) _
  schedulerJobs := .refl (fun _ => .inl rfl) _
  events := List.prefix_rfl

theorem RowsKept.trans {st st' st'' : Store} (h : RowsKept st st') (h' : RowsKept st' st'') :
    RowsKept st st'' where
  labs := h.labs.trans LabRow.Later.trans h'.labs
  labStorage := h.labStorage.trans Eq.trans h'.labStorage
  runs := h.runs.trans RunRow.Later.trans h'.runs
  approvals := h.approvals.trans ApprovalRow.Later.trans h'.approvals
  exports := h.exports.trans ExportRow.Later.trans h'.exports
  snapshots := h.snapshots.trans Eq.trans h'.snapshots
  secretLeases := h.secretLeases.trans LeaseMove.trans h'.secretLeases
  schedulerJobs := h.schedulerJobs.trans SchedulerJobRow.Later.trans h'.schedulerJobs
  events := h.events.trans h'.events

/-! ### A pass -/

section Pass

variable {service : Reconciler β} {now : DateTime} {s : Session β}

omit [Content β] in
/-- A destroy that is tried again is counted, where it is. -/
theorem later_settledLab (maxDestroyAttempts : ℕ) (attempt : LabRow × DestroyOutcome) :
    attempt.1.Later (settledLab maxDestroyAttempts attempt) := by
  obtain ⟨lab, outcome⟩ := attempt
  cases outcome with
  | noStorage => exact ⟨rfl, le_rfl⟩
  | succeeded => exact ⟨rfl, Nat.le_succ _⟩
  | raised e =>
    unfold settledLab
    dsimp only
    split
    · exact ⟨rfl, Nat.le_succ _⟩
    · exact ⟨rfl, Nat.le_succ _⟩

omit [Content β] in
theorem later_expiredLab (stale : List ApprovalRow) (lab : LabRow) : lab.Later (expiredLab stale lab) := by
  unfold expiredLab
  split
  · exact ⟨rfl, le_rfl⟩
  · exact .refl lab

omit [Content β] in
theorem labs_of_pass : Carried LabRow.Later s.store.labs (pass service now s).store.labs := by
  have hretried : Carried LabRow.Later s.store.labs (retried service now s).labs := by
    intro id lab hlab
    by_cases htried : id ∈ (attempts service now s).1.map fun attempt => attempt.1.id
    · obtain ⟨attempt, hattempt, rfl⟩ := List.mem_map.mp htried
      obtain rfl : attempt.1 = lab :=
        Option.some.inj ((destroying_of_mem_attempts hattempt).1.symm.trans hlab)
      exact ⟨_, get?_retried_of_mem hattempt, later_settledLab _ _⟩
    · exact ⟨_, by rw [get?_retried_of_notMem htried, hlab, Option.map_some], later_expiredLab _ _⟩
  refine hretried.trans LabRow.Later.trans (.of_map (fun lab => ?_) get?_labs)
  split
  · exact ⟨rfl, le_rfl⟩
  · exact .refl lab

omit [Content β] in
/-- **A reconciliation pass keeps every row.** -/
theorem rowsKept_of_pass (service : Reconciler β) (now : DateTime) (s : Session β) :
    RowsKept s.store (pass service now s).store where
  labs := labs_of_pass
  labStorage := .refl (fun _ => rfl) _
  runs := by
    refine .of_map (fun run => ?_) (get?_runs service now s)
    split
    · next h => exact .inr ⟨(Bool.and_eq_true_iff.mp h).1, _, rfl⟩
    · exact .inl rfl
  approvals := by
    refine .of_map (fun a => ?_) (get?_approvals service now s)
    split
    · next h =>
      have hrequested : a.state = .requested := of_decide_eq_true (Bool.and_eq_true_iff.mp h).1
      exact .inr ⟨hrequested, by simp [expiredApproval], rfl, rfl⟩
    · exact .inl rfl
  exports := by
    intro id row hrow
    have hget : (pass service now s).store.exports.get? id = _ :=
      get?_foldl_rejectExpired (staleApprovals now s.store) s.store.exports id
    rw [hget, hrow, Option.map_some]
    refine ⟨_, rfl, ?_⟩
    split
    · exact ⟨rfl, fun h => by cases h⟩
    · exact .refl row
  snapshots := .refl (fun _ => rfl) _
  secretLeases := by
    refine .of_map (fun lease => ?_) (get?_secretLeases service now s)
    split
    · next h => exact .inr ⟨Option.isNone_iff_eq_none.mp (Bool.and_eq_true_iff.mp h).1, _, rfl⟩
    · exact .inl rfl
  schedulerJobs := .refl (fun _ => .inl rfl) _
  events := ⟨_, (events_pass service now s).symm⟩

end Pass

/-! ### Requests -/

section Effects

variable {now : ℤ} {r : Request β} {m m' : ℕ} {st st' : Store}

omit [Content β] in
theorem later_of_labMove {lab lab' : LabRow} (hr : ∀ at', ¬ IsPass r at')
    (h : LabMove now st st' r lab lab') :
    lab.Later lab' := by
  cases h with
  | same => exact .refl lab
  | destroyed => exact ⟨rfl, le_rfl⟩
  | decided => exact ⟨rfl, le_rfl⟩
  | swept hpass => exact absurd hpass (hr _)

omit [Content β] in
theorem later_of_approvalMove {a a' : ApprovalRow} (hr : ∀ at', ¬ IsPass r at')
    (h : ApprovalMove now st r a a') : a.Later a' := by
  cases h with
  | same => exact .inl rfl
  | @decided decision _ _ _ _ decides =>
    refine .inr ⟨decides.pending, ?_, rfl, rfl⟩
    cases decision <;> exact fun h => by cases h
  | swept hpass => exact absurd hpass (hr _)

omit [Content β] in
theorem later_of_exportMove {row row' : ExportRow} (hr : ∀ at', ¬ IsPass r at')
    (h : ExportMove now st st' r row row') : row.Later row' := by
  cases h with
  | same => exact .refl row
  | @decided decision =>
    cases decision with
    | approved => exact ⟨rfl, fun h => by cases h⟩
    | rejected => exact ⟨rfl, fun h => h⟩
  | released | denied => exact ⟨rfl, fun h => h⟩
  | swept hpass => exact absurd hpass (hr _)

/-- A job that is dispatched is one attempt further. -/
theorem later_settled (job : SchedulerJobRow) (outcome : Except Exc (String × String))
    (hqueued : job.state = .queued) :
    job.Later (SchedulerService.settled now (SchedulerService.claimed now job) outcome) := by
  cases outcome with
  | ok result => exact .inr ⟨hqueued, Nat.lt_succ_self _, rfl⟩
  | error e =>
    unfold SchedulerService.settled
    dsimp only
    split
    · exact .inr ⟨hqueued, Nat.lt_succ_self _, rfl⟩
    · exact .inr ⟨hqueued, Nat.lt_succ_self _, rfl⟩

theorem carried_settled {job : SchedulerJobRow} {outcome : Except Exc (String × String)}
    (next : SchedulerService.nextJob st now = some job) :
    Carried SchedulerJobRow.Later st.schedulerJobs (st.schedulerJobs.put
      (SchedulerService.settled now (SchedulerService.claimed now job) outcome)) := by
  obtain ⟨hjob, hqueued⟩ := nextJob_eq_some next
  intro id row hrow
  exact Table.exists_move_of_put (R := SchedulerJobRow.Later) (fun _ => .inl rfl) hjob
    (by rw [SchedulerService.settled_id]; rfl) (later_settled job outcome hqueued) hrow

theorem schedulerJobs_of_effect (h : Effect env now r m m' st st') :
    Carried SchedulerJobRow.Later st.schedulerJobs st'.schedulerJobs := by
  cases h with
  | jobQueued new => exact fun id job hjob => ⟨job, Table.get?_put_of_fresh new.fresh hjob, .inl rfl⟩
  | jobFailed next | jobMadeLab next | jobMadeRun next => exact carried_settled next
  | reconciled sweeps =>
    rw [(addsNone_of_sweeps sweeps).others.2.2]
    exact .refl (fun _ => .inl rfl) _
  | _ => exact .refl (fun _ => .inl rfl) _

/-- The storage row of a lab that is made is that of no lab before. -/
theorem storageRows_of_effect (h : Effect env now r m m' st st')
    (hst : ∀ id storage, st.labStorage.get? id = some storage → ∃ lab, st.labs.get? id = some lab) :
    Carried Eq st.labStorage st'.labStorage := by
  rcases labStorage_of_effect h with ⟨hsame, -⟩ | ⟨_, _, lab, storage, new, -, hput⟩
  · rw [hsame]
    exact .refl (fun _ => rfl) _
  · rw [hput]
    have hfresh : st.labStorage.get? storage.labId = none := by
      cases hold : st.labStorage.get? storage.labId with
      | none => rfl
      | some old =>
        obtain ⟨lab', hlab'⟩ := hst _ _ hold
        rw [new.storageOf, new.fresh] at hlab'
        cases hlab'
    exact fun id row hrow => ⟨row, Table.get?_put_of_fresh hfresh hrow, rfl⟩

theorem runs_of_effect (hr : ∀ at', ¬ IsPass r at') (h : Effect env now r m m' st st') :
    Carried RunRow.Later st.runs st'.runs := by
  cases h with
  | runCreated new | jobMadeRun _ _ _ new =>
    exact fun id run hrun => ⟨run, Table.get?_put_of_fresh new.fresh hrun, .inl rfl⟩
  | reconciled => exact absurd ⟨_, _, _, _, rfl, rfl⟩ (hr _)
  | _ => exact .refl (fun _ => .inl rfl) _

/-- **A request that is no pass keeps every row.** -/
theorem rowsKept_of_effect (hr : ∀ at', ¬ IsPass r at') (h : Effect env now r m m' st st')
    (hst : ∀ id storage, st.labStorage.get? id = some storage → ∃ lab, st.labs.get? id = some lab)
    (hevents : st.events <+: st'.events) : RowsKept st st' where
  labs id lab hlab := by
    obtain ⟨lab', hlab', hmove⟩ := labMove_of_effect h hlab
    exact ⟨lab', hlab', later_of_labMove hr hmove⟩
  labStorage := storageRows_of_effect h hst
  runs := runs_of_effect hr h
  approvals id a ha := by
    obtain ⟨a', ha', hmove⟩ := approvalMove_of_effect h ha
    exact ⟨a', ha', later_of_approvalMove hr hmove⟩
  exports id row hrow := by
    obtain ⟨row', hrow', hmove⟩ := exportMove_of_effect h hrow
    exact ⟨row', hrow', later_of_exportMove hr hmove⟩
  snapshots _ row hrow := ⟨row, snapshot_stays_of_effect h hrow, rfl⟩
  secretLeases _ _ hlease := leaseMove_of_effect h hlease
  schedulerJobs := schedulerJobs_of_effect h
  events := hevents

end Effects

/-- **A step keeps every row.** -/
theorem rowsKept_of_step {s : State β} (hs : SoundState env s) (a : Action β) :
    RowsKept s.store (step env s a).store := by
  cases a with
  | guest labId entries => exact .refl _
  | request r now fates =>
    by_cases hpass : ∃ at', IsPass r at'
    · obtain ⟨_, inventory, destroys, maxDestroyAttempts, at', rfl, -⟩ := hpass
      show RowsKept s.store (endState (answer env s _ now fates)).store
      rcases store_of_answer env s (.reconcile inventory destroys maxDestroyAttempts at') now fates with
        hstore | ⟨result, s₁, h, hstore⟩
      · rw [hstore]
        exact .refl _
      · obtain ⟨report, h, -⟩ := map_eq_ok.mp h
        rw [reconcile_eq] at h
        obtain ⟨-, rfl⟩ := EStateM.Result.ok.inj h
        rw [hstore]
        exact rowsKept_of_pass _ _ (s.session fates)
    · obtain ⟨es, hevents, -⟩ := journaled_of_step env s (.request r now fates)
      exact rowsKept_of_effect (fun at' h => hpass ⟨at', h⟩) (effect_of_answer env s r now fates)
        (fun id storage hstorage => (hs.layout id storage hstorage).2) ⟨es, hevents.symm⟩

/-- **No row is ever lost, and none changes but as it may.** Between any two states of a run every row of the
first is still there in the second: storage and snapshots as they were, labs but for their state and the
count of their failed destroys, exports but for how far their release has come; runs, approvals, leases and
jobs as they were, or once timed out, decided, revoked or dispatched; and the events of the first are the
first of the second. The times rows were last updated at are not among their columns here. -/
theorem records_kept (env : Environment β) (s₀ : State β) (h₀ : Initial env s₀)
    (past future : List (Action β)) :
    RowsKept (runFrom env s₀ past).store (runFrom env s₀ (past ++ future)).store := by
  induction future using List.reverseRecOn with
  | nil =>
    rw [List.append_nil]
    exact .refl _
  | append_singleton future a ih =>
    rw [← List.append_assoc,
      show runFrom env s₀ (past ++ future ++ [a]) = step env (runFrom env s₀ (past ++ future)) a from
        Runs.after_append ..]
    exact ih.trans (rowsKept_of_step (healthy_of_actions h₀ (past ++ future)).sound a)

/-- A lab that is destroyed is the lab it was. -/
theorem records_kept_restoredTwiceRun :
    ∃ lab ∈ (runFrom (symbolic defaultProfiles) emptyState restoredTwiceRun).store.labs.rows, ∃ lab',
      (runFrom (symbolic defaultProfiles) emptyState
        (restoredTwiceRun ++ [.request (.destroyLab "a") 6 []])).store.labs.get? "a" = some lab' ∧
      lab'.state = .destroyed ∧ lab'.createdAt = lab.createdAt := by
  have hlab : ∃ lab ∈ (runFrom (symbolic defaultProfiles) emptyState restoredTwiceRun).store.labs.rows,
      lab.id = "a" := by
    decide +kernel
  have hdestroyed : ((runFrom (symbolic defaultProfiles) emptyState
      (restoredTwiceRun ++ [.request (.destroyLab "a") 6 []])).store.labs.get? "a").any
        (fun lab => lab.state = .destroyed) = true := by
    decide +kernel
  have hkept := records_kept (symbolic defaultProfiles) emptyState (initial_emptyState defaultProfiles)
    restoredTwiceRun [.request (.destroyLab "a") 6 []]
  generalize runFrom (symbolic defaultProfiles) emptyState restoredTwiceRun = s at hlab hkept ⊢
  generalize runFrom (symbolic defaultProfiles) emptyState
    (restoredTwiceRun ++ [.request (.destroyLab "a") 6 []]) = s' at hdestroyed hkept ⊢
  obtain ⟨lab, hmem, hid⟩ := hlab
  obtain ⟨lab', hlab', hlater⟩ := hkept.labs "a" lab (hid ▸ Table.get?_of_mem hmem)
  rw [hlab'] at hdestroyed
  exact ⟨lab, hmem, lab', hlab', of_decide_eq_true hdestroyed, by rw [hlater.1]⟩

/-! ### The declared lifecycles -/

/-- **Approvals and snapshots live as declared.** In a step from any state of a run, an approval keeps its state
or moves along its table; and so does a snapshot, whose state is what its manifest says, where its lab is not
destroyed in the run and none of its restores stops while it writes the manifest. -/
theorem states_as_declared (env : Environment β) (s₀ : State β) (h₀ : Initial env s₀)
    (actions : List (Action β)) (a : Action β) :
    (∀ row ∈ (runFrom env s₀ actions).store.approvals.rows,
      ∃ row', (step env (runFrom env s₀ actions) a).store.approvals.get? row.id = some row' ∧
        (row'.state = row.state ∨ row'.state ∈ approvalTransitions row.state)) ∧
    ∀ row ∈ (runFrom env s₀ actions).store.snapshots.rows,
      Runs.Allowed (step env) (SparesLab env row.labId) s₀ (actions ++ [a]) →
      Runs.Allowed (step env) (SparesManifest env row) s₀ (actions ++ [a]) →
      ∃ state state', InState env (runFrom env s₀ actions).tree row state ∧
        InState env (step env (runFrom env s₀ actions) a).tree row state' ∧
        (state' = state ∨ state' ∈ snapshotTransitions state) := by
  have hs := healthy_of_actions h₀ actions
  refine ⟨fun row hrow => ?_, fun row hrow hspared hmanifest => ?_⟩
  · obtain ⟨row', hrow', hlater⟩ := (rowsKept_of_step hs.sound a).approvals _ _ (Table.get?_of_mem hrow)
    exact ⟨row', hrow', hlater.state_mem⟩
  · have hthere := Table.get?_of_mem hrow
    obtain ⟨hsparedBefore, hsparedStep, -⟩ := Runs.allowed_append.mp hspared
    obtain ⟨hmanifestBefore, hmanifestStep, -⟩ := Runs.allowed_append.mp hmanifest
    rcases inState_of_run h₀ hthere hsparedBefore hmanifestBefore with hcreated | hrestored
    · rcases inState_of_step hs hthere hsparedStep hmanifestStep hcreated with hsame | hrestored
      · exact ⟨_, _, hcreated, hsame, .inl rfl⟩
      · exact ⟨_, _, hcreated, hrestored, .inr (by simp [snapshotTransitions])⟩
    · have hagain := (inState_of_step hs hthere hsparedStep hmanifestStep hrestored).elim id id
      exact ⟨_, _, hrestored, hagain, .inl rfl⟩

/-- A snapshot is restored where it was made. -/
theorem states_as_declared_notesRun :
    ∃ row ∈ (runFrom (symbolic defaultProfiles) emptyState
        (captureRun notesRun [] "a" none .human 1 [])).store.snapshots.rows,
      ∃ state state', InState (symbolic defaultProfiles) (runFrom (symbolic defaultProfiles) emptyState
          (captureRun notesRun [] "a" none .human 1 [])).tree row state ∧
        InState (symbolic defaultProfiles) (step (symbolic defaultProfiles)
          (runFrom (symbolic defaultProfiles) emptyState (captureRun notesRun [] "a" none .human 1 []))
            (.request (.restoreSnapshot "aa" "a" .human) 2 [])).tree row state' ∧
        (state' = state ∨ state' ∈ snapshotTransitions state) := by
  have hrow : ∃ row ∈ (runFrom (symbolic defaultProfiles) emptyState
      (captureRun notesRun [] "a" none .human 1 [])).store.snapshots.rows, row.id = "aa" := by
    decide +kernel
  have hrestored : (reported (symbolic defaultProfiles) "aa" (runFrom (symbolic defaultProfiles) emptyState
      (captureRun notesRun [] "a" none .human 1 []))
      (.request (.restoreSnapshot "aa" "a" .human) 2 [])).isSome = true := by
    decide +kernel
  obtain ⟨row, hrow, -⟩ := hrow
  exact ⟨row, hrow, (states_as_declared (symbolic defaultProfiles) emptyState
    (initial_emptyState defaultProfiles)
    (captureRun notesRun [] "a" none .human 1 [])
      (.request (.restoreSnapshot "aa" "a" .human) 2 [])).2 row hrow
    ⟨trivial, trivial, trivial, trivial, trivial⟩
    ⟨trivial, trivial, trivial, fun _ => .inl hrestored, trivial⟩⟩

end LabOS
