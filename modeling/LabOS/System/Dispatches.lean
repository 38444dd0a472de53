import LabOS.System.AuditLog
import LabOS.System.Jobs
import LabOS.System.Refusals

/-!
# Dispatches and requests

A job of the scheduler stands for a request somebody could have made of the application: the lab or the run it
creates is one that the scheduler asks for. `run_next` runs the same functions, in a savepoint and with the job
already claimed; so what it does should be what the request does, and the settling of the job.

## What is proved

* `dispatch_as_request` — **a dispatch does what the request does**, and settles the job; where the request
  raises, the dispatch settles the job as failed and does nothing else to the rows.
-/

namespace LabOS

open Exceptional SchedulerService

variable {β : Type}

/-- The request a job stands for. -/
def SchedulerJobRow.request (job : SchedulerJobRow) : Option (Request β) :=
  match job.action with
  | .createLab => job.profileName.map fun profileName => .createLab profileName .scheduler
  | .startRun => job.labId.bind fun labId => job.command.map fun command =>
      .createRun labId command .scheduler

/-- What a response says was created, by its type and id. -/
def Response.resource : Response → Option (String × String)
  | .lab row => some ("lab", row.id)
  | .run row => some ("run", row.id)
  | _ => none

/-- The rows once a job is settled. -/
def settles (row : SchedulerJobRow) (st : Store) : Store :=
  { st with schedulerJobs := st.schedulerJobs.put row, events := st.events ++ dispatchEvents row }

variable [Content β] {env : Environment β} {now : ℤ} {job : SchedulerJobRow} {r : Request β}
    {s s' : Session β}

/-! ### The action of a job -/

omit [Content β] in
/-- A job of the ledger stands for a request. -/
theorem request_of_ledger {st : Store} (h : Ledger st job) : ∃ r : Request β, job.request = some r := by
  unfold SchedulerJobRow.request
  rcases h.payload with ⟨haction, hprofile⟩ | ⟨haction, hlab, hcommand⟩
  · obtain ⟨profileName, hprofile⟩ := Option.isSome_iff_exists.mp hprofile
    exact ⟨_, by rw [haction, hprofile]; rfl⟩
  · obtain ⟨labId, hlab⟩ := Option.isSome_iff_exists.mp hlab
    obtain ⟨command, hcommand⟩ := Option.isSome_iff_exists.mp hcommand
    exact ⟨_, by rw [haction, hlab, hcommand]; rfl⟩

omit [Content β] in
/-- It creates a lab or a run. -/
theorem request_eq_some (h : job.request = some r) :
    (∃ profileName, job.action = .createLab ∧ job.profileName = some profileName ∧
      r = .createLab profileName .scheduler) ∨
    ∃ labId command, job.action = .startRun ∧ job.labId = some labId ∧ job.command = some command ∧
      r = .createRun labId command .scheduler := by
  unfold SchedulerJobRow.request at h
  cases haction : job.action with
  | createLab =>
    rw [haction] at h
    obtain ⟨profileName, hprofile, rfl⟩ := Option.map_eq_some_iff.mp h
    exact .inl ⟨profileName, rfl, hprofile, rfl⟩
  | startRun =>
    rw [haction] at h
    obtain ⟨labId, hlab, h⟩ := Option.bind_eq_some_iff.mp h
    obtain ⟨command, hcommand, rfl⟩ := Option.map_eq_some_iff.mp h
    exact .inr ⟨labId, command, rfl, hlab, hcommand, rfl⟩

omit [Content β] in
theorem wellFormed_of_request (h : job.request = some r) : wellFormed r = true := by
  rcases request_eq_some h with ⟨profileName, -, -, rfl⟩ | ⟨labId, command, -, -, -, rfl⟩
  · rfl
  · rfl

/-- The handler of the request of a job returns what its action creates. -/
theorem action_of_handler_ok {result : Except Exc Response} (hr : job.request = some r)
    (h : handler env now r s = .ok result s') : ∃ response resource, result = .ok response ∧
      response.resource = some resource ∧
      action (App.createJobLab env now) (App.createJobRun env now) job s = .ok resource s' ∧
      s'.store.schedulerJobs = s.store.schedulerJobs := by
  rcases request_eq_some hr with ⟨profileName, haction, hprofile, rfl⟩ |
    ⟨labId, command, haction, hlab, hcommand, rfl⟩
  · obtain ⟨lab, hlab, rfl⟩ := map_eq_ok.mp h
    obtain ⟨storage, approvals, -, hstore⟩ := createLabRecord_eq_ok hlab
    refine ⟨.lab lab, ("lab", lab.id), rfl, rfl, ?_, by rw [hstore]⟩
    simp [action, haction, hprofile, App.createJobLab, hlab, orRaise]
  · obtain ⟨run, hrun, rfl⟩ := map_eq_ok.mp h
    refine ⟨.run run, ("run", run.id), rfl, rfl, ?_, by rw [(createRunRecord_eq_ok hrun).2]⟩
    simp [action, haction, hlab, hcommand, App.createJobRun, hrun, orRaise]

/-! #### What it raises -/

section Raises

variable {ρ : Type} {key : ρ → String} {m : Mapped key} {E : Exc → Prop}

omit [Content β] in
theorem raising_addRow_of_integrity (h : E .integrity) (row : ρ) : Raising E (addRow m row) s :=
  (Raising.get.bind fun _ _ _ => .pure _).bind fun _ _ _ => (Raising.raiseIf fun _ => h).bind fun _ _ _ =>
    .change _

omit [Content β] in
theorem raising_getOr {k : String} {missing : Exc} (h : E missing) : Raising E (getOr m k missing) s :=
  (Raising.get.bind fun _ _ _ => .pure _).bind fun _ _ _ => .orRaise fun _ => h

theorem raising_createLabRecord {profileName : String} {requester : RequesterType} :
    Raising (· ≠ .database) (App.createLabRecord env now profileName requester) s := by
  unfold App.createLabRecord
  refine Raising.bind (.fromExcept fun e he => ?_) fun decision s₁ _ => ?_
  · cases hdecision : PolicyEngine.validateRequest env.profiles profileName [] requester.value with
    | ok decision =>
      rw [hdecision] at he
      cases he
    | error e' =>
      rw [hdecision] at he
      obtain rfl := Except.error.inj he
      cases e' <;> simp [App.requestError]
  refine (raising_newId _).bind fun labId s₂ _ => ?_
  refine (raising_onDisk ?_).bind fun allocation s₃ _ => ?_
  · exact Raising.bind (.forM fun _ _ _ => raising_files fun e => by simp) fun _ _ _ => .pure _
  refine (raising_addRow_of_integrity (by simp) _).bind fun _ s₄ _ => ?_
  refine (raising_addRow_of_integrity (by simp) _).bind fun _ s₅ _ => ?_
  refine Raising.bind (.whenever fun _ => ?_) fun _ s₆ _ => raising_recordEvent_pure _ _
  refine Raising.bind ?_ fun _ _ _ => raising_recordEvent _
  exact (raising_newId _).bind fun _ _ _ =>
    (raising_addRow_of_integrity (by simp) _).bind fun _ _ _ => .pure _

theorem raising_createRunRecord {labId command : String} {requester : RequesterType} :
    Raising (· ≠ .database) (App.createRunRecord env now labId command requester) s := by
  unfold App.createRunRecord
  refine (raising_getOr (by simp)).bind fun lab s₁ _ => (raising_newId _).bind fun id s₂ _ => ?_
  exact (raising_addRow_of_integrity (by simp) _).bind fun _ _ _ => raising_recordEvent_pure _ _

end Raises

/-- The handler of the request of a job raises what its action raises, which is no failure to commit. -/
theorem action_of_handler_error {e : Exc} (hr : job.request = some r)
    (h : handler env now r s = .error e s') :
    action (App.createJobLab env now) (App.createJobRun env now) job s = .error e s' ∧ e ≠ .database := by
  rcases request_eq_some hr with ⟨profileName, haction, hprofile, rfl⟩ |
    ⟨labId, command, haction, hlab, hcommand, rfl⟩
  · have hcreate := map_eq_error.mp h
    refine ⟨?_, raising_createLabRecord e s' hcreate⟩
    simp [action, haction, hprofile, App.createJobLab, hcreate, orRaise]
  · have hcreate := map_eq_error.mp h
    refine ⟨?_, raising_createRunRecord e s' hcreate⟩
    simp [action, haction, hlab, hcommand, App.createJobRun, hcreate, orRaise]

/-! ### A dispatch -/

section Dispatch

variable {outcome : Except Exc (String × String)}

/-- **A dispatch** claims the job it selects, runs its action, and settles it as that went. -/
theorem dispatch_run (hnext : nextJob s.store now = some job)
    (h : attempt (rollingBack (action (App.createJobLab env now) (App.createJobRun env now) job))
        (s.over (queueAs (s.store.schedulerJobs.put (claimed now job)))) =
      .ok outcome (s'.over (queueAs (s.store.schedulerJobs.put (claimed now job)))))
    (hjobs : s'.store.schedulerJobs = s.store.schedulerJobs) :
    App.dispatchNextSchedulerJob env now s =
      .ok (settled now (claimed now job) outcome)
        (s'.over (settles (settled now (claimed now job) outcome))) := by
  have hput : (s.store.schedulerJobs.put (claimed now job)).put (settled now (claimed now job) outcome) =
      s.store.schedulerJobs.put (settled now (claimed now job) outcome) :=
    Table.put_put (settled_id now (claimed now job) outcome).symm
  have hrun := runNext_eq_ok.mpr ⟨job, outcome, _, hnext, h, rfl, rfl⟩
  rw [App.dispatchNextSchedulerJob, bind_run_of_ok hrun]
  refine bind_of_ok (orRaise_eq_ok.mpr ⟨rfl, rfl⟩) (bind_of_ok (a := ()) ?_ (pure_eq_ok.mpr ⟨rfl, rfl⟩))
  simp only [App.recordDispatch, bind_eq_ok, recordEvent_eq_ok]
  refine ⟨(), _, rfl, ?_⟩
  simp [Session.over, queueAs, settles, dispatchEvents, hput, hjobs]

end Dispatch

/-! ### Blocks -/

section Blocks

omit [Content β]

variable {α γ : Type} {body : SessionM β α} {a : α} {s₁ : Session β}

theorem map_run_congr {x y : SessionM β α} {f : α → γ} (h : x s = y s') : (f <$> x) s = (f <$> y) s' := by
  show EStateM.map f x s = EStateM.map f y s'
  unfold EStateM.map
  rw [h]

theorem rollingBack_of_error {x : SessionM β α} {e : Exc} (h : x s = .error e s₁) :
    rollingBack x s = .error e { s₁ with store := s.store } := by
  unfold rollingBack
  rw [h]

/-- Two blocks whose bodies leave the same commit the same. -/
theorem withSession_congr {body' : SessionM β α} (h : body s = .ok a s₁) (h' : body' s' = .ok a s₁)
    (hstore : s.store = s'.store) : withSession body s = withSession body' s' := by
  rw [withSession_run_of_ok h, withSession_run_of_ok h']
  unfold rollingBack
  rw [hstore]

/-- Two blocks whose bodies leave the same but for rows that are changed commit the same, but for these. -/
theorem withSession_over {g : Store → Store} {body' : SessionM β γ} {c : γ} (h : body s = .ok a s₁)
    (h' : body' s = .ok c (s₁.over g)) :
    (∃ s₂, withSession body s = .ok a s₂ ∧ withSession body' s = .ok c (s₂.over g)) ∨
      ∃ s₂, withSession body s = .error .database s₂ ∧ withSession body' s = .error .database s₂ := by
  rw [withSession_run_of_ok h, withSession_run_of_ok h']
  obtain ⟨store, ⟨tree, fates⟩, minted⟩ := s₁
  cases fates with
  | nil => exact .inl ⟨_, rfl, rfl⟩
  | cons fate fates =>
    cases fate with
    | failed kept written => exact .inr ⟨_, rfl, rfl⟩
    | _ => exact .inl ⟨_, rfl, rfl⟩

end Blocks

/-! ### A dispatch as a request -/

/-- **A dispatch does what the request of its job does**, and settles the job. In every state of a run the next
job of the queue stands for a request. Where that is answered, the dispatch leaves what it leaves, with the job
settled by what was created and the two events of a dispatch after those of the request. Where its commit
fails, so does that of the dispatch. Where it raises, the dispatch has settled the job by what was raised, and
commits only that. -/
theorem dispatch_as_request (env : Environment β) (s₀ : State β) (h₀ : Initial env s₀)
    (actions : List (Action β)) (s : State β) (hs : runFrom env s₀ actions = s) (now : ℤ) (fates : List Fate)
    (job : SchedulerJobRow) (hnext : nextJob s.store now = some job) :
    ∃ r, job.request = some r ∧
      (∀ response s', answer env s r now fates = .ok response s' →
        ∃ resource row, response.resource = some resource ∧
          row = settled now (claimed now job) (.ok resource) ∧
          answer env s .dispatchNextSchedulerJob now fates = .ok (.job row) (s'.over (settles row))) ∧
      (∀ s', answer env s r now fates = .error .database s' →
        answer env s .dispatchNextSchedulerJob now fates = .error .database s') ∧
      ∀ e s', e ≠ .database → answer env s r now fates = .error e s' →
        ∃ row, row = settled now (claimed now job) (.error e) ∧
          answer env s .dispatchNextSchedulerJob now fates =
            (Response.job <$> withSession (do onStore (settles row); pure row)) s' := by
  have hledgers : Ledgers s.store := hs ▸ Runs.after_keeps (I := fun s : State β => Ledgers s.store)
    (fun _ a h => ledgers_of_step (.system a) h) (h₀.store ▸ ledgers_empty)
  obtain ⟨r, hr⟩ : ∃ r : Request β, job.request = some r :=
    request_of_ledger (hledgers.jobs _ _ (nextJob_eq_some hnext).1)
  have hanswer : answer env s r now fates = answered (withSession (handler env now r) (s.session fates)) := by
    rw [answer, respond_eq, if_pos (wellFormed_of_request hr)]
  have haside := aside_queueAs (s.store.schedulerJobs.put (claimed now job))
  refine ⟨r, hr, ?_⟩
  rw [hanswer]
  cases hhandler : handler env now r (s.session fates) with
  | ok result s₁ =>
    obtain ⟨response, resource, rfl, hresource, haction, hjobs⟩ := action_of_handler_ok hr hhandler
    have hclaimed := (blind_action haside job).of_ok haction
    have hattempt := attempt_eq_ok.mpr (.inl ⟨resource, rfl, rollingBack_eq_ok.mpr hclaimed⟩)
    rcases withSession_over hhandler (dispatch_run hnext hattempt hjobs) with
      ⟨s₂, hcommit, hdispatch⟩ | ⟨s₂, hcommit, hdispatch⟩
    · rw [hcommit]
      refine ⟨fun response' s' h => ?_, fun s' h => (nomatch h), fun e s' _ h => (nomatch h)⟩
      obtain ⟨rfl, rfl⟩ := EStateM.Result.ok.inj h
      exact ⟨resource, _, hresource, rfl, map_eq_ok.mpr ⟨_, hdispatch, rfl⟩⟩
    · rw [hcommit]
      refine ⟨fun response' s' h => (nomatch h), fun s' h => ?_, fun e s' he h => ?_⟩
      · obtain ⟨-, rfl⟩ := EStateM.Result.error.inj h
        exact map_eq_error.mpr hdispatch
      · exact absurd (EStateM.Result.error.inj h).1.symm he
  | error e s₁ =>
    obtain ⟨haction, he⟩ := action_of_handler_error hr hhandler
    have hclaimed := (blind_rollingBack (blind_action haside job)).of_error (rollingBack_of_error haction)
    have hattempt := attempt_eq_ok.mpr (.inr ⟨e, rfl, hclaimed⟩)
    have hdispatch := dispatch_run hnext hattempt rfl
    rw [withSession_of_error hhandler]
    refine ⟨fun response' s' h => (nomatch h), fun s' h => absurd (EStateM.Result.error.inj h).1 he,
      fun e' s' _ h => ?_⟩
    obtain ⟨rfl, rfl⟩ := EStateM.Result.error.inj h
    refine ⟨_, rfl, ?_⟩
    exact map_run_congr (withSession_congr hdispatch rfl rfl)

/-- A job is queued. -/
def enqueuedRun : List (Action Blob) :=
  [.request (.enqueueSchedulerJob
    { action := .createLab, requesterId := "cron", profileName := some "safe-dev", maxAttempts := 2 }) 0 []]

/-- Its dispatch makes the lab that its request would make. -/
theorem dispatch_as_request_enqueuedRun :
    ∃ job r response s' row,
      nextJob (runFrom (symbolic defaultProfiles) emptyState enqueuedRun).store 1 = some job ∧
      job.request = some r ∧
      answer (symbolic defaultProfiles) (runFrom (symbolic defaultProfiles) emptyState enqueuedRun) r 1 [] =
        .ok response s' ∧
      row.state = .succeeded ∧
      answer (symbolic defaultProfiles) (runFrom (symbolic defaultProfiles) emptyState enqueuedRun)
        .dispatchNextSchedulerJob 1 [] = .ok (.job row) (s'.over (settles row)) := by
  have hrun : (nextJob (runFrom (symbolic defaultProfiles) emptyState enqueuedRun).store 1).any
      (fun job => (job.request : Option (Request Blob)).any fun r =>
        decide (Succeeds (symbolic defaultProfiles)
        (runFrom (symbolic defaultProfiles) emptyState enqueuedRun) r 1 [])) = true := by
    decide +kernel
  obtain ⟨job, hnext, hrun⟩ := (Option.any_eq_true ..).mp hrun
  obtain ⟨r, hr, hsucceeds⟩ := (Option.any_eq_true ..).mp hrun
  obtain ⟨response, s', hanswer⟩ := of_decide_eq_true hsucceeds
  obtain ⟨r', hr', hanswered, -⟩ := dispatch_as_request (symbolic defaultProfiles) emptyState
    (initial_emptyState defaultProfiles) enqueuedRun _ rfl 1 [] job hnext
  obtain rfl : r = r' := Option.some.inj (hr.symm.trans hr')
  obtain ⟨resource, row, -, rfl, hdispatch⟩ := hanswered response s' hanswer
  exact ⟨job, r, response, s', _, hnext, hr, hanswer, rfl, hdispatch⟩

end LabOS
