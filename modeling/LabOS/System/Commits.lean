import LabOS.System.Frames

/-!
# What a request commits

Every request that writes runs one handler in one block (`respond_eq`): either the block
commits what the handler did to the rows, or the rows are as they were. What a handler
did is *recorded* when the events it appended name every row it added or changed. Recording is
a frame, so a handler is recorded when the rows it writes are, one after another, and a pass
when each of its rounds is.

## What is proved

* `recorded_of_handler` — every handler is recorded.
* `audit_complete` — every commit is recorded, events are only appended, and what raises
  commits nothing but the event of a blocked release.
-/

namespace LabOS

open Exceptional ReconciliationService

variable {β : Type} [Content β]

/-! ### Handlers and their blocks -/

/-- What the request model checks before the handler runs. -/
def wellFormed : Request β → Bool
  | .createSecretLease _ _ _ ttlMinutes => 1 ≤ ttlMinutes && ttlMinutes ≤ 24 * 60
  | .enqueueSchedulerJob request => request.accepted
  | _ => true

/-- The handler of a request, up to the exception it raises after its commit. -/
def handler (env : Environment β) (now : ℤ) : Request β → SessionM β (Except Exc Response)
  | .createLab profileName requesterType =>
    (Except.ok ∘ Response.lab) <$> App.createLabRecord env now profileName requesterType
  | .destroyLab labId => (Except.ok ∘ Response.lab) <$> App.destroyLab env labId
  | .createSecretLease labId secretName requesterType ttlMinutes =>
    (Except.ok ∘ Response.lease) <$> App.createSecretLease env now labId secretName requesterType ttlMinutes
  | .revokeSecretLease leaseId actor reason =>
    (Except.ok ∘ Response.lease) <$> App.revokeSecretLease now leaseId actor reason
  | .createRun labId command requesterType =>
    (Except.ok ∘ Response.run) <$> App.createRunRecord env now labId command requesterType
  | .enqueueSchedulerJob request => (Except.ok ∘ Response.job) <$> App.enqueueSchedulerJob env now request
  | .dispatchNextSchedulerJob => (Except.ok ∘ Response.job) <$> App.dispatchNextSchedulerJob env now
  | .approveRequest approvalId actor comment =>
    (Except.ok ∘ Response.approval) <$> App.approveRequest now approvalId actor comment
  | .denyRequest approvalId actor comment =>
    (Except.ok ∘ Response.approval) <$> App.denyRequest now approvalId actor comment
  | .createSnapshot labId runId requesterType =>
    (Except.ok ∘ Response.snapshot) <$> App.createSnapshot env now labId runId requesterType
  | .restoreSnapshot snapshotId labId requesterType =>
    (Except.ok ∘ Response.snapshot) <$> App.restoreSnapshot env now snapshotId labId requesterType
  | .createExport labId sourcePath runId requesterType =>
    (Except.ok ∘ Response.export) <$> App.createExport env now labId sourcePath runId requesterType
  | .releaseExport exportId => (fun released => Response.export <$> released) <$> App.releaseExport exportId
  | .denyExport exportId reason => (Except.ok ∘ Response.export) <$> App.denyExport exportId reason
  | .reconcile inventory destroys maxDestroyAttempts now =>
    (Except.ok ∘ Response.report) <$>
      ReconciliationService.reconcile (reconciler env inventory destroys maxDestroyAttempts) now

/-- How a request goes on from what its block returned or raised. -/
def answered : EStateM.Result Exc (Session β) (Except Exc Response) → EStateM.Result Exc (Session β) Response
  | .ok (.ok response) s => .ok response s
  | .ok (.error e) s => .error e s
  | .error e s => .error e s

omit [Content β] in
@[simp] theorem endState_answered (x : EStateM.Result Exc (Session β) (Except Exc Response)) :
    endState (answered x) = endState x := by
  cases x with
  | ok result s => cases result <;> rfl
  | error e s => rfl

omit [Content β] in
/-- A block whose result is made a response. -/
theorem block_eq {α : Type} (f : α → Response) (body : SessionM β α) (s : Session β) :
    (f <$> withSession body) s = answered (withSession ((Except.ok ∘ f) <$> body) s) := by
  simp only [withSession, rollingBack, commit, Functor.map, EStateM.map, Bind.bind, EStateM.bind, Pure.pure,
    EStateM.pure]
  cases hbody : body s with
  | error e s₁ => rfl
  | ok a s₁ =>
    dsimp only
    cases s₁.disk.fates with
    | nil => rfl
    | cons fate fates => cases fate <;> rfl

omit [Content β] in
/-- A block whose result may be an exception to raise after the commit. -/
theorem block_eq_of_except {α : Type} (f : α → Response) (body : SessionM β (Except Exc α)) (s : Session β) :
    (withSession body >>= fun a => f <$> fromExcept a) s =
      answered (withSession ((fun a => f <$> a) <$> body) s) := by
  simp only [withSession, rollingBack, commit, Functor.map, EStateM.map, Bind.bind, EStateM.bind, Pure.pure,
    EStateM.pure]
  cases hbody : body s with
  | error e s₁ => rfl
  | ok a s₁ =>
    dsimp only
    cases s₁.disk.fates with
    | nil => cases a <;> rfl
    | cons fate fates => cases fate <;> cases a <;> rfl

/-- **A request checks itself and runs its handler in a block.** -/
theorem respond_eq (env : Environment β) (now : ℤ) (r : Request β) (s : Session β) :
    respond env now r s =
      if wellFormed r then answered (withSession (handler env now r) s) else .error .requestValidation s := by
  cases r with
  | createSecretLease labId secretName requesterType ttlMinutes =>
    by_cases h : 1 ≤ ttlMinutes ∧ ttlMinutes ≤ 24 * 60
    · rw [if_pos (by simpa [wellFormed] using h)]
      simp only [respond, raiseIf, h]
      exact block_eq _ _ s
    · rw [if_neg (by simpa [wellFormed] using h)]
      simp only [respond, raiseIf, h, not_false_eq_true, if_true]
      rfl
  | enqueueSchedulerJob request =>
    by_cases h : request.accepted = true
    · rw [if_pos (show wellFormed (.enqueueSchedulerJob request : Request β) = true from h)]
      simp only [respond, raiseIf, h, Bool.true_eq_false, if_false]
      exact block_eq _ _ s
    · rw [if_neg (show ¬ wellFormed (.enqueueSchedulerJob request : Request β) = true from h)]
      simp only [respond, raiseIf, h, if_true]
      rfl
  | releaseExport exportId => exact block_eq_of_except _ _ s
  | _ => exact block_eq _ _ s

/-- **A request leaves the rows as they were, or its handler returned and they are as it left them.** -/
theorem store_of_answer (env : Environment β) (s : State β) (r : Request β) (now : ℤ) (fates : List Fate) :
    (endState (answer env s r now fates)).store = s.store ∨
      ∃ result s₁, handler env now r (s.session fates) = .ok result s₁ ∧
        (endState (answer env s r now fates)).store = s₁.store := by
  unfold answer
  rw [respond_eq]
  split
  · rw [endState_answered]
    rcases store_of_withSession (handler env now r) (s.session fates) with hstore | ⟨a, s₁, h, hstore, -⟩
    · exact .inl hstore
    · exact .inr ⟨a, s₁, h, hstore⟩
  · exact .inl rfl

omit [Content β] in
/-- What a block raises, its body raised, or the commit failed. -/
theorem withSession_eq_error {α : Type} {body : SessionM β α} {s s' : Session β} {e : Exc}
    (h : withSession body s = .error e s') : (∃ s₁, body s = .error e s₁) ∨ e = .database := by
  have hbody : ∃ s₁, (do let a ← body; commit; pure a : SessionM β α) s = .error e s₁ := by
    unfold withSession rollingBack at h
    split at h
    · cases h
    · next hb =>
      obtain ⟨rfl, -⟩ := EStateM.Result.error.inj h
      exact ⟨_, hb⟩
  obtain ⟨s₁, hbody⟩ := hbody
  rcases bind_eq_error.mp hbody with hbody | ⟨a, s₂, -, hcommit⟩
  · exact .inl ⟨s₁, hbody⟩
  · rcases bind_eq_error.mp hcommit with hcommit | ⟨_, _, -, hpure⟩
    · right
      unfold commit at hcommit
      split at hcommit
      · exact (EStateM.Result.error.inj hcommit).1.symm
      · cases hcommit
    · exact absurd hpure pure_eq_error

/-- **A request that raises** leaves the rows as they were, unless its handler returned the exception to
raise after the commit. -/
theorem answer_eq_error {env : Environment β} {s : State β} {r : Request β} {now : ℤ} {fates : List Fate}
    {e : Exc} {s' : Session β} (h : answer env s r now fates = .error e s') :
    (s'.store = s.store ∧ (e = .requestValidation ∨ e = .database ∨
      ∃ s₁, handler env now r (s.session fates) = .error e s₁)) ∨
    ∃ s₁, handler env now r (s.session fates) = .ok (.error e) s₁ ∧ s'.store = s₁.store := by
  unfold answer at h
  rw [respond_eq] at h
  split at h
  · cases hblock : withSession (handler env now r) (s.session fates) with
    | ok result s₁ =>
      rw [hblock] at h
      obtain ⟨s₂, hbody, hstore, -⟩ := withSession_eq_ok hblock
      cases result with
      | ok response => cases h
      | error e' =>
        obtain ⟨rfl, rfl⟩ := EStateM.Result.error.inj h
        exact .inr ⟨s₂, hbody, hstore⟩
    | error e' s₁ =>
      rw [hblock] at h
      obtain ⟨rfl, rfl⟩ := EStateM.Result.error.inj h
      refine .inl ⟨store_of_rollingBack_error hblock, .inr ?_⟩
      rcases withSession_eq_error hblock with hbody | he
      · exact .inr hbody
      · exact .inl he
  · obtain ⟨rfl, rfl⟩ := EStateM.Result.error.inj h
    exact .inl ⟨rfl, .inl rfl⟩

/-- **A request to decide that raises** leaves the rows as they were. -/
theorem decision_eq_error {env : Environment β} {s : State β} {decision : App.Decision}
    {approvalId actor : String} {comment : Option String} {now : ℤ} {fates : List Fate} {e : Exc}
    {s' : Session β}
    (h : answer env s (decisionRequest decision approvalId actor comment) now fates = .error e s') :
    s'.store = s.store ∧ (e = .requestValidation ∨ e = .database ∨
      ∃ s₁, App.decideRequest now decision approvalId actor comment (s.session fates) = .error e s₁) := by
  have hhandler : handler env now (decisionRequest decision approvalId actor comment) =
      (Except.ok ∘ Response.approval) <$> App.decideRequest now decision approvalId actor comment := by
    cases decision <;> rfl
  rcases answer_eq_error h with ⟨hstore, he | he | ⟨s₁, hbody⟩⟩ | ⟨s₁, hbody, -⟩
  · exact ⟨hstore, .inl he⟩
  · exact ⟨hstore, .inr (.inl he)⟩
  · rw [hhandler] at hbody
    exact ⟨hstore, .inr (.inr ⟨s₁, map_eq_error.mp hbody⟩)⟩
  · rw [hhandler] at hbody
    obtain ⟨_, -, hok⟩ := map_eq_ok.mp hbody
    cases hok

/-! ### Rows and events -/

/-- The event names a row: as its resource, or in its payload. -/
def EventRow.About (e : EventRow) (id : String) : Prop :=
  e.resourceId = some id ∨ ("resource_id", Json.str id) ∈ e.payload

/-- Every row of a table that is new or not as it was is named by one of the events. -/
def Tracked {ρ : Type} {key : ρ → String} (m : Mapped key) (evs : List EventRow) (st st' : Store) : Prop :=
  ∀ id, (m.table st').get? id ≠ (m.table st).get? id → ∃ e ∈ evs, e.About id

/-- The events name every row that is new or changed. -/
structure Covers (evs : List EventRow) (st st' : Store) : Prop where
  labs : Tracked .labs evs st st'
  runs : Tracked .runs evs st st'
  approvals : Tracked .approvals evs st st'
  exports : Tracked .exports evs st st'
  snapshots : Tracked .snapshots evs st st'
  secretLeases : Tracked .secretLeases evs st st'
  schedulerJobs : Tracked .schedulerJobs evs st st'

/-- What happened to the rows is on record: events are only appended, and those appended name every row
that is new or changed. -/
def Recorded (st st' : Store) : Prop := ∃ evs, st'.events = st.events ++ evs ∧ Covers evs st st'

section Records

variable {ρ : Type} {key : ρ → String} {m : Mapped key} {evs evs' : List EventRow} {st st' st'' : Store}

theorem Tracked.same (h : m.table st' = m.table st) : Tracked m evs st st' :=
  fun _ hne => absurd (by rw [h]) hne

theorem Tracked.put {row : ρ} {e : EventRow} (h : m.table st' = (m.table st).put row) (he : e ∈ evs)
    (habout : e.About (key row)) : Tracked m evs st st' := by
  intro id hne
  by_cases hid : id = key row
  · exact ⟨e, he, hid ▸ habout⟩
  · rw [h, Table.get?_put_ne hid] at hne
    exact absurd rfl hne

theorem Tracked.trans (h : Tracked m evs st st') (h' : Tracked m evs st' st'') : Tracked m evs st st'' := by
  intro id hne
  by_cases hid : (m.table st').get? id = (m.table st).get? id
  · exact h' id (hid ▸ hne)
  · exact h id hid

theorem Tracked.mono (h : Tracked m evs st st') (hsub : evs ⊆ evs') : Tracked m evs' st st' := by
  intro id hne
  obtain ⟨e, he, habout⟩ := h id hne
  exact ⟨e, hsub he, habout⟩

theorem Covers.refl (evs : List EventRow) (st : Store) : Covers evs st st :=
  ⟨.same rfl, .same rfl, .same rfl, .same rfl, .same rfl, .same rfl, .same rfl⟩

theorem Covers.trans (h : Covers evs st st') (h' : Covers evs st' st'') : Covers evs st st'' where
  labs := h.labs.trans h'.labs
  runs := h.runs.trans h'.runs
  approvals := h.approvals.trans h'.approvals
  exports := h.exports.trans h'.exports
  snapshots := h.snapshots.trans h'.snapshots
  secretLeases := h.secretLeases.trans h'.secretLeases
  schedulerJobs := h.schedulerJobs.trans h'.schedulerJobs

theorem Covers.mono (h : Covers evs st st') (hsub : evs ⊆ evs') : Covers evs' st st' where
  labs := h.labs.mono hsub
  runs := h.runs.mono hsub
  approvals := h.approvals.mono hsub
  exports := h.exports.mono hsub
  snapshots := h.snapshots.mono hsub
  secretLeases := h.secretLeases.mono hsub
  schedulerJobs := h.schedulerJobs.mono hsub

theorem Recorded.refl (st : Store) : Recorded st st := ⟨[], by simp, .refl [] st⟩

/-- An event alone is recorded. -/
theorem Recorded.event (e : EventRow) (st : Store) : Recorded st { st with events := st.events ++ [e] } :=
  ⟨[e], rfl, { Covers.refl [e] st with }⟩

theorem Recorded.trans (h : Recorded st st') (h' : Recorded st' st'') : Recorded st st'' := by
  obtain ⟨evs, hevs, h⟩ := h
  obtain ⟨evs', hevs', h'⟩ := h'
  refine ⟨evs ++ evs', by rw [hevs', hevs, List.append_assoc], ?_⟩
  exact (h.mono (List.subset_append_left _ _)).trans (h'.mono (List.subset_append_right _ _))

/-- Rows that are written before what is recorded on top of them, and have their event after it. -/
theorem Recorded.wrap {written : Store} {e : EventRow} (hwritten : Covers [e] st written)
    (hevents : written.events = st.events) (h : Recorded written st') :
    Recorded st { st' with events := st'.events ++ [e] } := by
  obtain ⟨evs, hevs, h⟩ := h
  refine ⟨evs ++ [e], by rw [hevs, hevents, List.append_assoc], ?_⟩
  have hlast : Covers (evs ++ [e]) st' { st' with events := st'.events ++ [e] } := { Covers.refl _ st' with }
  exact ((hwritten.mono (List.subset_append_right _ _)).trans
    (h.mono (List.subset_append_left _ _))).trans hlast

end Records

/-! ### What the handlers record -/

section Handlers

variable {env : Environment β} {now : ℤ} {s s' : Session β}

theorem recorded_of_requestLabApproval {labId : String} {decision : RequestDecision}
    {requester : RequesterType} {u : Unit}
    (h : App.requestLabApproval env now labId decision requester s = .ok u s') :
    Recorded s.store s'.store := by
  unfold App.requestLabApproval App.recordApprovalRequest at h
  rcases whenever_eq_ok.mp h with ⟨-, h⟩ | ⟨-, rfl⟩
  · simp [bind_eq_ok] at h
    obtain ⟨-, rfl⟩ := h
    exact ⟨_, rfl, { Covers.refl _ s.store with approvals := .put rfl List.mem_cons_self (.inl rfl) }⟩
  · exact .refl _

theorem recorded_of_createLabRecord {profileName : String} {requester : RequesterType} {lab : LabRow}
    (h : App.createLabRecord env now profileName requester s = .ok lab s') :
    Recorded s.store s'.store := by
  simp [App.createLabRecord, bind_eq_ok] at h
  obtain ⟨decision, -, allocation, d, -, -, -, _, s₁, hasks, rfl, rfl⟩ := h
  refine Recorded.wrap ?_ ?_ (recorded_of_requestLabApproval hasks)
  · exact { Covers.refl _ s.store with labs := .put rfl List.mem_cons_self (.inl rfl) }
  · rfl

theorem recorded_of_createRunRecord {labId command : String} {requester : RequesterType} {run : RunRow}
    (h : App.createRunRecord env now labId command requester s = .ok run s') :
    Recorded s.store s'.store := by
  simp [App.createRunRecord, bind_eq_ok] at h
  obtain ⟨-, -, rfl, rfl⟩ := h
  exact ⟨_, rfl, { Covers.refl _ s.store with runs := .put rfl List.mem_cons_self (.inl rfl) }⟩

theorem recorded_of_destroyLab {labId : String} {row : LabRow} (h : App.destroyLab env labId s = .ok row s') :
    Recorded s.store s'.store := by
  simp [App.destroyLab, bind_eq_ok] at h
  obtain ⟨lab, -, storage, -, -, allocation, -, _, d, -, rfl, rfl⟩ := h
  exact ⟨_, rfl, { Covers.refl _ s.store with labs := .put rfl List.mem_cons_self (.inl rfl) }⟩

theorem recorded_of_createSecretLease {labId secretName : String} {requester : RequesterType}
    {ttlMinutes : ℤ} {row : SecretLeaseRow}
    (h : App.createSecretLease env now labId secretName requester ttlMinutes s = .ok row s') :
    Recorded s.store s'.store := by
  simp [App.createSecretLease, SecretLeaseService.issueLease, SecretLeaseService.resolve, adaptExcept_eq_ok,
    PolicyEngine.getProfile_eq_ok, bind_eq_ok] at h
  obtain ⟨⟨-, lab, -, profile, -, -, -, -, rfl⟩, rfl⟩ := h
  exact ⟨_, rfl, { Covers.refl _ s.store with secretLeases := .put rfl List.mem_cons_self (.inl rfl) }⟩

omit [Content β] in
theorem recorded_of_revokeSecretLease {leaseId actor : String} {reason : Option String} {row : SecretLeaseRow}
    (h : App.revokeSecretLease now leaseId actor reason s = .ok row s') : Recorded s.store s'.store := by
  simp [App.revokeSecretLease, SecretLeaseService.revokeLease, adaptExcept_eq_ok, bind_eq_ok] at h
  obtain ⟨lease, -, rfl, -⟩ := h
  exact ⟨_, rfl, { Covers.refl _ s.store with secretLeases := .put rfl List.mem_cons_self (.inl rfl) }⟩

theorem recorded_of_enqueueSchedulerJob {request : SchedulerJobCreateRequest} {row : SchedulerJobRow}
    (h : App.enqueueSchedulerJob env now request s = .ok row s') : Recorded s.store s'.store := by
  simp [App.enqueueSchedulerJob, SchedulerService.enqueue, adaptExcept_eq_ok, bind_eq_ok] at h
  obtain ⟨⟨-, -, rfl⟩, rfl⟩ := h
  exact ⟨_, rfl, { Covers.refl _ s.store with schedulerJobs := .put rfl List.mem_cons_self (.inl rfl) }⟩

/-- The action of a job is on record, and when it raised nothing of it is left. -/
theorem recorded_of_action {job : SchedulerJobRow} {outcome : Except Exc (String × String)}
    (h : attempt (rollingBack (SchedulerService.action (App.createJobLab env now) (App.createJobRun env now)
      job)) s = .ok outcome s') : Recorded s.store s'.store := by
  rcases attempt_eq_ok.mp h with ⟨result, rfl, haction⟩ | ⟨e, rfl, haction⟩
  · rcases SchedulerService.action_eq_ok (rollingBack_eq_ok.mp haction) with
      ⟨profileName, id, -, -, hcreate, -⟩ | ⟨labId, command, id, -, -, -, hcreate, -⟩
    · simp [App.createJobLab] at hcreate
      obtain ⟨lab, hcreate, -⟩ := hcreate
      exact recorded_of_createLabRecord hcreate
    · simp [App.createJobRun] at hcreate
      obtain ⟨run, hcreate, -⟩ := hcreate
      exact recorded_of_createRunRecord hcreate
  · rw [store_of_rollingBack_error haction]
    exact .refl _

theorem recorded_of_dispatchNextSchedulerJob {row : SchedulerJobRow}
    (h : App.dispatchNextSchedulerJob env now s = .ok row s') : Recorded s.store s'.store := by
  simp [App.dispatchNextSchedulerJob, App.recordDispatch, bind_eq_ok] at h
  obtain ⟨s₁, h, rfl⟩ := h
  obtain ⟨job, outcome, s₂, -, hattempt, rfl, rfl⟩ := runNext_eq_ok.mp h
  obtain ⟨evs, hevs, hcovers⟩ := recorded_of_action hattempt
  -- the events of the dispatch come last, and name the job both where it is claimed and where it is settled
  refine ⟨_, by rw [hevs, List.append_assoc], ?_⟩
  refine Covers.trans ?_ ((hcovers.mono (List.subset_append_left _ _)).trans ?_)
  · exact { Covers.refl _ s.store with
      schedulerJobs := .put rfl (List.mem_append_right _ List.mem_cons_self) (.inl (by simp [App.jobEvent])) }
  · exact { Covers.refl _ s₂.store with
      schedulerJobs := .put rfl (List.mem_append_right _ List.mem_cons_self) (.inl (by simp [App.jobEvent])) }

omit [Content β] in
/-- What a decision does to its resource is named by any event with the resource in its payload. -/
theorem covers_of_decideResource {a : ApprovalRow} {decision : App.Decision}
    {comment : Option String} {u : Unit} (h : App.decideResource a decision comment s = .ok u s') :
    s'.store.events = s.store.events ∧
      ∀ e : EventRow, ("resource_id", Json.str a.resourceId) ∈ e.payload → Covers [e] s.store s'.store := by
  unfold App.decideResource at h
  split at h
  · simp only [bind_eq_ok, getOr_eq_ok, setRow_eq_ok] at h
    obtain ⟨lab, _, ⟨hlab, rfl⟩, rfl⟩ := h
    have hid : lab.id = a.resourceId := Table.key_of_get? hlab
    refine ⟨rfl, fun e he => ?_⟩
    exact { Covers.refl _ s.store with labs := .put rfl List.mem_cons_self (.inr (hid ▸ he)) }
  · split at h
    · simp only [bind_eq_ok, getOr_eq_ok, setRow_eq_ok] at h
      obtain ⟨exported, _, ⟨hexport, rfl⟩, rfl⟩ := h
      have hid : (App.decidedExport decision comment exported).id = a.resourceId :=
        (decidedExport_id _ _ _).trans (Table.key_of_get? hexport)
      refine ⟨rfl, fun e he => ?_⟩
      exact { Covers.refl _ s.store with exports := .put rfl List.mem_cons_self (.inr (hid ▸ he)) }
    · obtain ⟨-, rfl⟩ := pure_eq_ok.mp h
      exact ⟨rfl, fun e _ => .refl [e] s.store⟩

omit [Content β] in
theorem recorded_of_decideRequest {decision : App.Decision} {approvalId actor : String}
    {comment : Option String} {row : ApprovalRow}
    (h : App.decideRequest now decision approvalId actor comment s = .ok row s') :
    Recorded s.store s'.store := by
  simp [App.decideRequest, App.applyApprovalDecision, bind_eq_ok] at h
  obtain ⟨a, -, _, _, hpending, -, _, s₂, hresource, rfl, rfl⟩ := h
  obtain ⟨-, -, rfl⟩ := ensureApprovalPending_eq_ok hpending
  obtain ⟨hevents, hcovers⟩ := covers_of_decideResource hresource
  refine ⟨_, by rw [hevents], Covers.trans ?_ ((hcovers _ ?_).trans { Covers.refl _ s₂.store with })⟩
  · exact { Covers.refl _ s.store with approvals := .put rfl List.mem_cons_self (.inl rfl) }
  · simp

theorem recorded_of_createSnapshot {labId : String} {runId : Option String} {requester : RequesterType}
    {row : SnapshotRow} (h : App.createSnapshot env now labId runId requester s = .ok row s') :
    Recorded s.store s'.store := by
  simp [App.createSnapshot, adaptExcept_eq_ok, bind_eq_ok] at h
  obtain ⟨lab, -, storage, -, _, _, hrun, metadata, d, -, -, rfl, -⟩ := h
  obtain rfl := checkRun_eq_ok hrun
  exact ⟨_, rfl, { Covers.refl _ s.store with snapshots := .put rfl List.mem_cons_self (.inl rfl) }⟩

theorem recorded_of_restoreSnapshot {snapshotId labId : String} {requester : RequesterType}
    {row : SnapshotRow} (h : App.restoreSnapshot env now snapshotId labId requester s = .ok row s') :
    Recorded s.store s'.store := by
  simp [App.restoreSnapshot, adaptExcept_eq_ok, bind_eq_ok] at h
  obtain ⟨-, _, -, _, -, _, _, -, rfl⟩ := h
  exact .event _ s.store

theorem recorded_of_requestExportApproval {row : ExportRow} {u : Unit}
    (h : App.requestExportApproval env now row s = .ok u s') : Recorded s.store s'.store := by
  unfold App.requestExportApproval App.recordApprovalRequest at h
  rcases whenever_eq_ok.mp h with ⟨-, h⟩ | ⟨-, rfl⟩
  · simp [bind_eq_ok] at h
    obtain ⟨-, rfl⟩ := h
    exact ⟨_, rfl, { Covers.refl _ s.store with approvals := .put rfl List.mem_cons_self (.inl rfl) }⟩
  · exact .refl _

theorem recorded_of_createExport {labId sourcePath : String} {runId : Option String}
    {requester : RequesterType} {row : ExportRow}
    (h : App.createExport env now labId sourcePath runId requester s = .ok row s') :
    Recorded s.store s'.store := by
  simp [App.createExport, adaptExcept_eq_ok, bind_eq_ok] at h
  obtain ⟨lab, -, storage, -, _, _, hrun, staged, d, -, -, ⟨_, happroval⟩, rfl⟩ := h
  obtain rfl := checkRun_eq_ok hrun
  refine Recorded.trans ⟨_, rfl, ?_⟩ (recorded_of_requestExportApproval happroval)
  exact { Covers.refl _ s.store with exports := .put rfl List.mem_cons_self (.inl rfl) }

theorem recorded_of_releaseExport {exportId : String} {released : Except Exc ExportRow}
    (h : App.releaseExport exportId s = .ok released s') : Recorded s.store s'.store := by
  simp only [App.releaseExport, bind_eq_ok, getOr_eq_ok] at h
  obtain ⟨row, _, ⟨-, rfl⟩, storage, _, ⟨-, rfl⟩, outcome, s₁, hattempt, h⟩ := h
  unfold App.finishRelease at h
  rcases attempt_eq_ok.mp hattempt with ⟨released, rfl, hgate⟩ | ⟨e, rfl, hgate⟩
  · obtain ⟨d, -, rfl⟩ := onDisk_eq_ok.mp hgate
    simp [bind_eq_ok] at h
    obtain ⟨rfl, -⟩ := h
    exact ⟨_, rfl, { Covers.refl _ s.store with exports := .put rfl List.mem_cons_self (.inl rfl) }⟩
  · have hstore := store_of_onDisk_error hgate
    cases e with
    | exportPolicy message =>
      simp at h
      obtain ⟨rfl, -⟩ := h
      rw [← hstore]
      exact .event _ s₁.store
    | _ => exact absurd h throw_eq_ok

omit [Content β] in
theorem recorded_of_denyExport {exportId reason : String} {row : ExportRow}
    (h : App.denyExport exportId reason s = .ok row s') : Recorded s.store s'.store := by
  simp [App.denyExport, bind_eq_ok] at h
  obtain ⟨row, -, denied, -, rfl, -⟩ := h
  exact ⟨_, rfl, { Covers.refl _ s.store with exports := .put rfl List.mem_cons_self (.inl rfl) }⟩

end Handlers

/-! ### What a pass records -/

section Pass

omit [Content β]

variable {now : DateTime} {s s' : Session β} {report report' : ReconciliationReport}

/-- What an expiry does to its resource is named by any event with the resource in its payload. -/
theorem covers_of_expireResource {a : ApprovalRow} {u : Unit} (h : expireResource a s = .ok u s') :
    s'.store.events = s.store.events ∧
      ∀ e : EventRow, ("resource_id", Json.str a.resourceId) ∈ e.payload → Covers [e] s.store s'.store := by
  unfold expireResource at h
  split at h
  · simp only [bind_eq_ok, getRow_eq_ok] at h
    obtain ⟨lab, _, ⟨hlab, rfl⟩, h⟩ := h
    cases lab with
    | none =>
      obtain ⟨-, rfl⟩ := pure_eq_ok.mp h
      exact ⟨rfl, fun e _ => .refl [e] s.store⟩
    | some lab =>
      have hid : lab.id = a.resourceId := Table.key_of_get? hlab
      rcases whenever_eq_ok.mp h with ⟨-, h⟩ | ⟨-, rfl⟩
      · obtain rfl := setRow_eq_ok.mp h
        refine ⟨rfl, fun e he => ?_⟩
        exact { Covers.refl _ s.store with labs := .put rfl List.mem_cons_self (.inr (hid ▸ he)) }
      · exact ⟨rfl, fun e _ => .refl [e] s.store⟩
  · split at h
    · simp only [bind_eq_ok, getRow_eq_ok] at h
      obtain ⟨row, _, ⟨hrow, rfl⟩, h⟩ := h
      cases row with
      | none =>
        obtain ⟨-, rfl⟩ := pure_eq_ok.mp h
        exact ⟨rfl, fun e _ => .refl [e] s.store⟩
      | some row =>
        have hid : row.id = a.resourceId := Table.key_of_get? hrow
        obtain rfl := setRow_eq_ok.mp h
        refine ⟨rfl, fun e he => ?_⟩
        exact { Covers.refl _ s.store with exports := .put rfl List.mem_cons_self (.inr (hid ▸ he)) }
    · obtain ⟨-, rfl⟩ := pure_eq_ok.mp h
      exact ⟨rfl, fun e _ => .refl [e] s.store⟩

theorem recorded_of_expireApproval {a : ApprovalRow} (h : expireApproval now report a s = .ok report' s') :
    Recorded s.store s'.store := by
  unfold expireApproval at h
  split at h
  · simp only [bind_eq_ok, setRow_eq_ok, recordEvent_eq_ok, pure_eq_ok] at h
    obtain ⟨_, _, rfl, _, s₂, hresource, _, _, rfl, -, rfl⟩ := h
    obtain ⟨hevents, hcovers⟩ := covers_of_expireResource hresource
    refine ⟨_, by rw [hevents], Covers.trans ?_ ((hcovers _ ?_).trans { Covers.refl _ s₂.store with })⟩
    · exact { Covers.refl _ s.store with approvals := .put rfl List.mem_cons_self (.inl rfl) }
    · simp [event]
  · obtain ⟨-, rfl⟩ := pure_eq_ok.mp h
    exact .refl _

theorem recorded_of_revokeExpired {lease : SecretLeaseRow}
    (h : revokeExpired now report lease s = .ok report' s') :
    Recorded s.store s'.store := by
  unfold revokeExpired at h
  split at h
  · simp only [bind_eq_ok, setRow_eq_ok, recordEvent_eq_ok, pure_eq_ok] at h
    obtain ⟨_, _, rfl, _, _, rfl, -, rfl⟩ := h
    exact ⟨_, rfl, { Covers.refl _ s.store with secretLeases := .put rfl List.mem_cons_self (.inl rfl) }⟩
  · obtain ⟨-, rfl⟩ := pure_eq_ok.mp h
    exact .refl _

theorem recorded_of_timeoutRun {run : RunRow} (h : timeoutRun now report run s = .ok report' s') :
    Recorded s.store s'.store := by
  unfold timeoutRun at h
  split at h
  · simp only [bind_eq_ok, setRow_eq_ok, recordEvent_eq_ok, pure_eq_ok] at h
    obtain ⟨_, _, rfl, _, _, rfl, -, rfl⟩ := h
    exact ⟨_, rfl, { Covers.refl _ s.store with runs := .put rfl List.mem_cons_self (.inl rfl) }⟩
  · obtain ⟨-, rfl⟩ := pure_eq_ok.mp h
    exact .refl _

/-- A lab that is stored with an event about it. -/
theorem recorded_of_lab (st : Store) (lab : LabRow) (e : EventRow) (he : e.resourceId = some lab.id) :
    Recorded st { st with labs := st.labs.put lab, events := st.events ++ [e] } :=
  ⟨_, rfl, { Covers.refl _ st with labs := .put rfl List.mem_cons_self (.inl he) }⟩

theorem recorded_of_failDestroy {service : Reconciler β} {lab : LabRow}
    (h : failDestroy service report lab s = .ok report' s') : Recorded s.store s'.store := by
  simp only [failDestroy, bind_eq_ok, setRow_eq_ok, recordEvent_eq_ok, pure_eq_ok] at h
  obtain ⟨_, _, rfl, _, _, rfl, -, rfl⟩ := h
  exact recorded_of_lab s.store _ _ rfl

theorem recorded_of_retryDestroy {service : Reconciler β} {destroyer : StorageAllocation → DiskM β Unit}
    {storageOf : String → Option LabStorageRow} {lab : LabRow}
    (h : retryDestroy service destroyer storageOf report lab s = .ok report' s') :
    Recorded s.store s'.store := by
  unfold retryDestroy at h
  cases hstorage : storageOf lab.id with
  | none =>
    rw [hstorage] at h
    exact recorded_of_failDestroy h
  | some storageRow =>
    rw [hstorage] at h
    obtain ⟨outcome, s₁, h₁, h⟩ := bind_eq_ok.mp h
    have hs₁ : s₁.store = s.store := by
      rcases attempt_eq_ok.mp h₁ with ⟨_, -, h₁⟩ | ⟨_, -, h₁⟩
      · obtain ⟨d, -, rfl⟩ := onDisk_eq_ok.mp h₁
        rfl
      · exact store_of_onDisk_error h₁
    rw [← hs₁]
    cases outcome with
    | error e =>
      simp only [bind_eq_ok, setRow_eq_ok, recordEvent_eq_ok] at h
      obtain ⟨_, s₂, rfl, _, s₃, rfl, h⟩ := h
      have hretry := recorded_of_lab s₁.store (retriedLab e lab)
        (event "lab.destroy_retry_failed" "lab" lab.id (some lab.id) none
          (attemptPayload service (retriedLab e lab))) rfl
      split at h
      · exact hretry.trans (recorded_of_failDestroy h)
      · obtain ⟨-, rfl⟩ := pure_eq_ok.mp h
        exact hretry
    | ok u =>
      simp only [bind_eq_ok, setRow_eq_ok, recordEvent_eq_ok, pure_eq_ok] at h
      obtain ⟨_, _, rfl, _, _, rfl, -, rfl⟩ := h
      exact recorded_of_lab s₁.store _ _ rfl

theorem recorded_of_checkStorage {storageOf : String → Option LabStorageRow} {labId : String}
    (h : checkStorage storageOf report labId s = .ok report' s') : Recorded s.store s'.store := by
  unfold checkStorage at h
  simp only [bind_eq_ok, getRow_eq_ok] at h
  obtain ⟨lab, _, ⟨-, rfl⟩, h⟩ := h
  cases lab with
  | none =>
    obtain ⟨-, rfl⟩ := pure_eq_ok.mp h
    exact .refl _
  | some lab =>
    dsimp only at h
    split at h
    · obtain ⟨-, rfl⟩ := pure_eq_ok.mp h
      exact .refl _
    · obtain ⟨reason, s₁, h₁, h⟩ := bind_eq_ok.mp h
      obtain ⟨d, -, rfl⟩ := onDisk_eq_ok.mp h₁
      cases reason with
      | none =>
        obtain ⟨-, rfl⟩ := pure_eq_ok.mp h
        exact .refl _
      | some reason =>
        simp only [bind_eq_ok, setRow_eq_ok, recordEvent_eq_ok, pure_eq_ok] at h
        obtain ⟨_, _, rfl, _, _, rfl, -, rfl⟩ := h
        exact recorded_of_lab s.store _ _ rfl

theorem recorded_of_inspect {inspection : LabInspection} (h : inspect report inspection s = .ok report' s') :
    Recorded s.store s'.store := by
  unfold inspect at h
  simp only [bind_eq_ok, getRow_eq_ok] at h
  obtain ⟨lab, _, ⟨-, rfl⟩, h⟩ := h
  cases lab with
  | none =>
    simp only [bind_eq_ok, recordEvent_eq_ok, pure_eq_ok] at h
    obtain ⟨_, _, rfl, -, rfl⟩ := h
    exact .event _ s.store
  | some lab =>
    dsimp only at h
    split at h
    · simp only [bind_eq_ok, recordEvent_eq_ok, pure_eq_ok] at h
      obtain ⟨_, _, rfl, -, rfl⟩ := h
      exact .event _ s.store
    · obtain ⟨-, rfl⟩ := pure_eq_ok.mp h
      exact .refl _

/-- **A pass is recorded.** -/
theorem recorded_of_reconcile {service : Reconciler β} (h : reconcile service now s = .ok report s') :
    Recorded s.store s'.store := by
  simp only [reconcile, bind_eq_ok, get_eq_ok, pure_eq_ok] at h
  obtain ⟨_, _, ⟨rfl, rfl⟩, _, s₁, h₁, _, s₂, h₂, _, s₃, h₃, _, s₄, h₄, _, s₅, h₅, _, s₆, h₆, -, rfl⟩ := h
  unfold expireStaleApprovals at h₁
  unfold revokeExpiredSecretLeases at h₂
  unfold timeoutOverdueRuns at h₃
  unfold retryDestroyingLabs at h₄
  simp only [bind_eq_ok, get_eq_ok] at h₁ h₂ h₃
  obtain ⟨_, _, ⟨rfl, rfl⟩, h₁⟩ := h₁
  obtain ⟨_, _, ⟨rfl, rfl⟩, h₂⟩ := h₂
  obtain ⟨_, _, ⟨rfl, rfl⟩, h₃⟩ := h₃
  have hloop : ∀ {ρ γ : Type} {round : γ → ρ → SessionM β γ} {rows : List ρ} {acc acc' : γ} {s s' : Session β},
      (∀ acc acc' r s s', round acc r s = .ok acc' s' → Recorded s.store s'.store) →
      rows.foldlM round acc s = .ok acc' s' → Recorded s.store s'.store := fun hround =>
    foldlM_relates (R := fun s s' : Session β => Recorded s.store s'.store)
      (fun s => .refl s.store) .trans hround
  have hdestroys : Recorded s₃.store s₄.store := by
    cases hd : service.storageDestroyer with
    | none =>
      rw [hd] at h₄
      obtain ⟨-, rfl⟩ := pure_eq_ok.mp h₄
      exact .refl _
    | some destroyer =>
      simp only [hd, bind_eq_ok, get_eq_ok] at h₄
      obtain ⟨_, _, ⟨rfl, rfl⟩, h₄⟩ := h₄
      exact hloop (fun _ _ _ _ _ => recorded_of_retryDestroy) h₄
  exact (hloop (fun _ _ _ _ _ => recorded_of_expireApproval) h₁).trans <|
    (hloop (fun _ _ _ _ _ => recorded_of_revokeExpired) h₂).trans <|
    (hloop (fun _ _ _ _ _ => recorded_of_timeoutRun) h₃).trans <| hdestroys.trans <|
    (hloop (fun _ _ _ _ _ => recorded_of_checkStorage) h₅).trans <|
    hloop (fun _ _ _ _ _ => recorded_of_inspect) h₆

end Pass

/-! ### Requests -/

section Requests

variable {env : Environment β} {now : ℤ} {r : Request β} {s s' : Session β}

/-- **Every handler is recorded.** -/
theorem recorded_of_handler {result : Except Exc Response} (h : handler env now r s = .ok result s') :
    Recorded s.store s'.store := by
  cases r with
  | createLab =>
    obtain ⟨row, h, -⟩ := map_eq_ok.mp h
    exact recorded_of_createLabRecord h
  | destroyLab =>
    obtain ⟨row, h, -⟩ := map_eq_ok.mp h
    exact recorded_of_destroyLab h
  | createSecretLease =>
    obtain ⟨row, h, -⟩ := map_eq_ok.mp h
    exact recorded_of_createSecretLease h
  | revokeSecretLease =>
    obtain ⟨row, h, -⟩ := map_eq_ok.mp h
    exact recorded_of_revokeSecretLease h
  | createRun =>
    obtain ⟨row, h, -⟩ := map_eq_ok.mp h
    exact recorded_of_createRunRecord h
  | enqueueSchedulerJob =>
    obtain ⟨row, h, -⟩ := map_eq_ok.mp h
    exact recorded_of_enqueueSchedulerJob h
  | dispatchNextSchedulerJob =>
    obtain ⟨row, h, -⟩ := map_eq_ok.mp h
    exact recorded_of_dispatchNextSchedulerJob h
  | approveRequest | denyRequest =>
    obtain ⟨row, h, -⟩ := map_eq_ok.mp h
    exact recorded_of_decideRequest h
  | createSnapshot =>
    obtain ⟨row, h, -⟩ := map_eq_ok.mp h
    exact recorded_of_createSnapshot h
  | restoreSnapshot =>
    obtain ⟨row, h, -⟩ := map_eq_ok.mp h
    exact recorded_of_restoreSnapshot h
  | createExport =>
    obtain ⟨row, h, -⟩ := map_eq_ok.mp h
    exact recorded_of_createExport h
  | releaseExport =>
    obtain ⟨released, h, -⟩ := map_eq_ok.mp h
    exact recorded_of_releaseExport h
  | denyExport =>
    obtain ⟨row, h, -⟩ := map_eq_ok.mp h
    exact recorded_of_denyExport h
  | reconcile =>
    obtain ⟨report, h, -⟩ := map_eq_ok.mp h
    exact recorded_of_reconcile h

/-- What `release_export` raises when an approval blocks the release. -/
def releaseBlocked : Exc := .conflict "export_approval_required" "export"

/-- The event such a release commits, and all it commits. -/
def withReleaseBlocked (row : ExportRow) (st : Store) : Store :=
  { st with events := st.events ++
    [App.releaseEvent "export.release_blocked" row [("reason", .str "export_approval_required")]] }

/-- The gate raises a policy error for a pending approval only, and answers no conflict itself. -/
theorem releaseExport_eq_error {row : ExportRow} {storage : LabStorageRow} {d d' : Disk β} {e : Exc}
    (h : ExportGate.releaseExport row storage d = .error e d') :
    e = .exportState "export_already_rejected" ∨ e = .exportState "export_already_released" ∨
      row.approvalRequired = true ∧ e = .exportPolicy "export_approval_required" ∨
      (∃ sourcePath, e = .exportSourceNotFound sourcePath) ∨ ∃ e', e = .file e' := by
  simp only [ExportGate.releaseExport, bind_eq_error, raiseIf_eq_error, files_eq_error, pure_eq_error,
    and_false, exists_false, or_false] at h
  rcases h with ⟨-, rfl, -⟩ | ⟨_, _, -, ⟨-, rfl, -⟩ | ⟨_, _, -, ⟨happroval, rfl, -⟩ | ⟨_, _, -, h⟩⟩⟩
  · exact .inl rfl
  · exact .inr (.inl rfl)
  · exact .inr (.inr (.inl ⟨happroval, rfl⟩))
  · rcases h with ⟨_, -, rfl⟩ | ⟨_, _, -, ⟨_, -, rfl⟩ | ⟨_, _, -, ⟨-, rfl, -⟩ | ⟨_, _, -, ⟨_, -, rfl⟩ |
      ⟨_, _, -, _, -, rfl⟩⟩⟩⟩
    · exact .inr (.inr (.inr (.inr ⟨_, rfl⟩)))
    · exact .inr (.inr (.inr (.inr ⟨_, rfl⟩)))
    · exact .inr (.inr (.inr (.inl ⟨_, rfl⟩)))
    · exact .inr (.inr (.inr (.inr ⟨_, rfl⟩)))
    · exact .inr (.inr (.inr (.inr ⟨_, rfl⟩)))

/-- Only a release that an approval blocks returns an exception to raise after the commit, and it has
written nothing but its event. -/
theorem handler_eq_ok_error {e : Exc} (h : handler env now r s = .ok (.error e) s') :
    e = releaseBlocked ∧ ∃ exportId row, r = .releaseExport exportId ∧
      s.store.exports.get? exportId = some row ∧ row.approvalRequired = true ∧
        s'.store = withReleaseBlocked row s.store := by
  cases r with
  | releaseExport exportId =>
    obtain ⟨released, hrelease, hreleased⟩ := map_eq_ok.mp h
    cases released with
    | ok row => cases hreleased
    | error e' =>
      obtain rfl : e' = e := Except.error.inj hreleased
      unfold App.releaseExport at hrelease
      simp only [bind_eq_ok, getOr_eq_ok] at hrelease
      obtain ⟨row, _, ⟨hrow, rfl⟩, storage, _, ⟨-, rfl⟩, outcome, s₁, hattempt, h⟩ := hrelease
      rcases attempt_eq_ok.mp hattempt with ⟨released, rfl, -⟩ | ⟨e, rfl, hgate⟩
      · simp [App.finishRelease, bind_eq_ok] at h
      · have hstore := store_of_onDisk_error hgate
        obtain ⟨d, hraised, rfl⟩ := onDisk_eq_error.mp hgate
        rcases releaseExport_eq_error hraised with rfl | rfl | ⟨happroval, rfl⟩ | ⟨_, rfl⟩ | ⟨_, rfl⟩
        · exact absurd h throw_eq_ok
        · exact absurd h throw_eq_ok
        · simp [App.finishRelease] at h
          obtain ⟨rfl, rfl⟩ := h
          exact ⟨rfl, exportId, row, rfl, hrow, happroval, rfl⟩
        · exact absurd h throw_eq_ok
        · exact absurd h throw_eq_ok
  | _ =>
    obtain ⟨_, -, h⟩ := map_eq_ok.mp h
    cases h

/-- A release that raises inside its block does not raise that an approval blocks it. -/
theorem releaseExport_raises {exportId : String} {e : Exc} (h : App.releaseExport exportId s = .error e s') :
    e ≠ releaseBlocked := by
  simp only [App.releaseExport, bind_eq_error, getOr_eq_error] at h
  rcases h with ⟨-, rfl, -⟩ | ⟨row, _, -, ⟨-, rfl, -⟩ | ⟨storage, _, -, h | ⟨outcome, s₁, hattempt, h⟩⟩⟩
  · simp [releaseBlocked]
  · simp [releaseBlocked]
  · unfold attempt at h
    split at h <;> cases h
  · rcases attempt_eq_ok.mp hattempt with ⟨released, rfl, -⟩ | ⟨e', rfl, hgate⟩
    · simp [App.finishRelease, bind_eq_error] at h
    · obtain ⟨d, hgate, -⟩ := onDisk_eq_error.mp hgate
      rcases releaseExport_eq_error hgate with rfl | rfl | ⟨-, rfl⟩ | ⟨_, rfl⟩ | ⟨_, rfl⟩
      all_goals simp [App.finishRelease] at h
      all_goals
        obtain ⟨rfl, -⟩ := h
        simp [releaseBlocked]

/-- **The audit trail is complete.** From any state, whatever a request commits is on record: the events
are those before and others after them, and every lab, run, approval, export, snapshot, lease and job that is
new or not the row it was has an event among the others that names it. A request that raises commits
nothing, unless it is a release that an approval blocks: that one commits one event. -/
theorem audit_complete (env : Environment β) (s : State β) (r : Request β) (now : ℤ) (fates : List Fate) :
    Recorded s.store (step env s (.request r now fates)).store ∧
    ∀ e s', answer env s r now fates = .error e s' →
      ((∀ exportId, r = .releaseExport exportId → e ≠ releaseBlocked) ∧ s'.store = s.store) ∨
      e = releaseBlocked ∧ ∃ exportId row, r = .releaseExport exportId ∧
        s.store.exports.get? exportId = some row ∧ row.approvalRequired = true ∧
          s'.store = withReleaseBlocked row s.store := by
  constructor
  · show Recorded s.store (endState (answer env s r now fates)).store
    rcases store_of_answer env s r now fates with hstore | ⟨result, s₁, h, hstore⟩
    · rw [hstore]
      exact .refl _
    · rw [hstore]
      exact recorded_of_handler h
  · intro e s' h
    rcases answer_eq_error h with ⟨hstore, hraised⟩ | ⟨s₁, hbody, hstore⟩
    · refine .inl ⟨?_, hstore⟩
      rintro exportId rfl
      rcases hraised with rfl | rfl | ⟨s₁, hbody⟩
      · simp [releaseBlocked]
      · simp [releaseBlocked]
      · exact releaseExport_raises (map_eq_error.mp hbody)
    · rw [hstore]
      exact .inr (handler_eq_ok_error hbody)

end Requests

end LabOS
