import LabOS.Library.Blind
import LabOS.System.Commits
import LabOS.System.Symbolic

/-!
# What no request looks at

Every request appends to the log of events, and none reads it. The queue of the scheduler is read by those
that enqueue and dispatch, and by no other. So the log may be cut or moved away while the system runs, and the
queue has no part in what becomes of the labs but through its dispatches.

## What is proved

* `blind_handler` — a handler is blind to a change of the rows it overlooks.
* `log_unread` — **the log decides nothing**: with another log every run gives the same answers, leaves the
  same rows and files and appends the same events.
-/

namespace LabOS

open Exceptional

variable {β : Type}

/-- The session with its rows changed. -/
def Session.over (g : Store → Store) (s : Session β) : Session β := { s with store := g s.store }

/-- The rows of a table are the same after the change, and are written beside it. -/
structure Overlooks {ρ : Type} {key : ρ → String} (m : Mapped key) (g : Store → Store) : Prop where
  table : ∀ st, m.table (g st) = m.table st
  write : ∀ st t, m.write (g st) t = g (m.write st t)

/-- The change leaves alone all tables but the jobs of the scheduler, and what is appended to the log. -/
structure Aside (g : Store → Store) : Prop where
  labs : Overlooks .labs g
  labStorage : Overlooks .labStorage g
  runs : Overlooks .runs g
  approvals : Overlooks .approvals g
  exports : Overlooks .exports g
  snapshots : Overlooks .snapshots g
  secretLeases : Overlooks .secretLeases g
  events : ∀ st e, { g st with events := (g st).events ++ [e] } = g { st with events := st.events ++ [e] }

/-! ### Statements -/

section Statements

variable {α ρ : Type} {key : ρ → String} {m : Mapped key} {g : Store → Store}

theorem blind_getRow (hm : Overlooks m g) (k : String) : Blind (Session.over g) (getRow m k : SessionM β _) :=
  Blind.reading (fun s => by simp only [Session.over, hm.table]) fun _ => .pure _

theorem blind_getOr (hm : Overlooks m g) (k : String) (e : Exc) :
    Blind (Session.over g) (getOr m k e : SessionM β _) :=
  (blind_getRow hm k).bind fun _ => .orRaise

theorem blind_setRow (hm : Overlooks m g) (row : ρ) : Blind (Session.over g) (setRow m row : SessionM β _) :=
  Blind.change fun s => by simp only [Session.over, hm.table, hm.write]

theorem blind_addRow (hm : Overlooks m g) (row : ρ) : Blind (Session.over g) (addRow m row : SessionM β _) :=
  (blind_getRow hm _).bind fun _ => Blind.raiseIf.bind fun _ => blind_setRow hm row

theorem blind_recordEvent (hg : Aside g) (e : EventRow) :
    Blind (Session.over g) (recordEvent e : SessionM β _) :=
  Blind.change fun s => by simp only [Session.over, hg.events]

theorem blind_newId (uuid4 : ℕ → String) : Blind (Session.over g) (newId uuid4 : SessionM β _) := by
  refine Blind.reading (fun _ => rfl) fun s => Blind.bind ?_ fun _ => .pure _
  exact Blind.change fun _ => rfl

theorem blind_onDisk (x : DiskM β α) : Blind (Session.over g) (onDisk x) :=
  .onPart (fun _ => rfl) fun _ _ => rfl

theorem blind_attempt {x : SessionM β α} (hx : Blind (Session.over g) x) :
    Blind (Session.over g) (attempt x) := by
  intro s
  unfold attempt
  rw [hx s]
  cases x s with
  | ok a s' => rfl
  | error e s' => rfl

theorem blind_rollingBack {x : SessionM β α} (hx : Blind (Session.over g) x) :
    Blind (Session.over g) (rollingBack x) := by
  intro s
  unfold rollingBack
  rw [hx s]
  cases x s with
  | ok a s' => rfl
  | error e s' => rfl

theorem blind_commit : Blind (Session.over g) (commit : SessionM β Unit) := by
  rintro ⟨store, ⟨tree, fates⟩, minted⟩
  cases fates with
  | nil => rfl
  | cons fate fates => cases fate <;> rfl

theorem blind_withSession {x : SessionM β α} (hx : Blind (Session.over g) x) :
    Blind (Session.over g) (withSession x) :=
  blind_rollingBack (hx.bind fun _ => blind_commit.bind fun _ => .pure _)

end Statements

/-! ### Handlers -/

section Handlers

variable [Content β] {env : Environment β} {now : ℤ} {g : Store → Store}

theorem blind_recordApprovalRequest (hg : Aside g) {labId : Option String}
    {resourceType resourceId action reason requestedBy : String} :
    Blind (Session.over g)
      (App.recordApprovalRequest env now labId resourceType resourceId action reason requestedBy) :=
  (blind_newId _).bind fun _ => (blind_addRow hg.approvals _).bind fun _ => .pure _

theorem blind_createLabRecord (hg : Aside g) {profileName : String} {requester : RequesterType} :
    Blind (Session.over g) (App.createLabRecord env now profileName requester) :=
  Blind.fromExcept.bind fun _ => (blind_newId _).bind fun _ => (blind_onDisk _).bind fun _ =>
    (blind_addRow hg.labs _).bind fun _ => (blind_addRow hg.labStorage _).bind fun _ =>
    (Blind.whenever ((blind_recordApprovalRequest hg).bind fun _ => blind_recordEvent hg _)).bind fun _ =>
    (blind_recordEvent hg _).bind fun _ => .pure _

theorem blind_createRunRecord (hg : Aside g) {labId command : String} {requester : RequesterType} :
    Blind (Session.over g) (App.createRunRecord env now labId command requester) :=
  (blind_getOr hg.labs _ _).bind fun _ => (blind_newId _).bind fun _ => (blind_addRow hg.runs _).bind fun _ =>
    (blind_recordEvent hg _).bind fun _ => .pure _

theorem blind_destroyLab (hg : Aside g) {labId : String} :
    Blind (Session.over g) (App.destroyLab env labId) :=
  (blind_getOr hg.labs _ _).bind fun _ => (blind_getOr hg.labStorage _ _).bind fun _ =>
    Blind.raiseIf.bind fun _ => Blind.fromExcept.bind fun _ => (blind_onDisk _).bind fun _ =>
    (blind_setRow hg.labs _).bind fun _ => (blind_recordEvent hg _).bind fun _ => .pure _

theorem blind_createSecretLease (hg : Aside g) {labId secretName : String} {requester : RequesterType}
    {ttlMinutes : ℤ} :
    Blind (Session.over g) (App.createSecretLease env now labId secretName requester ttlMinutes) := by
  refine (Blind.adaptExcept ?_).bind fun _ => (blind_recordEvent hg _).bind fun _ => .pure _
  exact Blind.raiseIf.bind fun _ => (blind_getOr hg.labs _ _).bind fun _ => Blind.fromExcept.bind fun _ =>
    Blind.raiseIf.bind fun _ => Blind.orRaise.bind fun _ => (blind_newId _).bind fun _ =>
    (blind_addRow hg.secretLeases _).bind fun _ => .pure _

omit [Content β] in
theorem blind_revokeSecretLease (hg : Aside g) {leaseId actor : String} {reason : Option String} :
    Blind (Session.over g) (App.revokeSecretLease now leaseId actor reason : SessionM β _) := by
  refine (Blind.adaptExcept ?_).bind fun _ => (blind_recordEvent hg _).bind fun _ => .pure _
  exact (blind_getOr hg.secretLeases _ _).bind fun _ => Blind.raiseIf.bind fun _ =>
    (blind_setRow hg.secretLeases _).bind fun _ => .pure _

theorem blind_enqueueSchedulerJob (hg : Aside g) (hjobs : Overlooks .schedulerJobs g)
    {request : SchedulerJobCreateRequest} :
    Blind (Session.over g) (App.enqueueSchedulerJob env now request) := by
  refine (Blind.adaptExcept ?_).bind fun _ => (blind_recordEvent hg _).bind fun _ => .pure _
  refine Blind.reading (fun s => ?_) fun _ => Blind.raiseIf.bind fun _ => (blind_newId _).bind fun _ =>
    (blind_addRow hjobs _).bind fun _ => .pure _
  have hcount : SchedulerService.pendingCount (s.over g).store request.requesterId =
      SchedulerService.pendingCount s.store request.requesterId :=
    congrArg (fun jobs : Table SchedulerJobRow.id => (jobs.rows.filter _).length) (hjobs.table s.store)
  dsimp only
  rw [hcount]

/-- The action of a job is blind to the queue. -/
theorem blind_action (hg : Aside g) (job : SchedulerJobRow) :
    Blind (Session.over g)
      (SchedulerService.action (App.createJobLab env now) (App.createJobRun env now) job) := by
  unfold SchedulerService.action
  cases job.action with
  | createLab =>
    exact Blind.orRaise.bind fun _ => ((blind_createLabRecord hg).bind fun _ => .pure _).bind fun _ => .pure _
  | startRun =>
    exact Blind.orRaise.bind fun _ => Blind.orRaise.bind fun _ =>
      ((blind_createRunRecord hg).bind fun _ => .pure _).bind fun _ => .pure _

theorem blind_dispatchNextSchedulerJob (hg : Aside g) (hjobs : Overlooks .schedulerJobs g) :
    Blind (Session.over g) (App.dispatchNextSchedulerJob env now) := by
  refine Blind.bind ?_ fun _ => Blind.orRaise.bind fun _ =>
    ((blind_recordEvent hg _).bind fun _ => blind_recordEvent hg _).bind fun _ => .pure _
  refine Blind.reading (fun s => ?_) fun s => ?_
  · have hsame : (g s.store).schedulerJobs = s.store.schedulerJobs := hjobs.table s.store
    simp only [Session.over, SchedulerService.nextJob, hsame]
  · cases SchedulerService.nextJob s.store now with
    | none => exact .pure _
    | some job =>
      exact ((blind_setRow hjobs _).bind fun _ =>
        (blind_attempt (blind_rollingBack (blind_action hg _))).bind fun _ =>
        (blind_setRow hjobs _).bind fun _ => .pure _).bind fun _ => .pure _

omit [Content β] in
theorem blind_decideRequest (hg : Aside g) {decision : App.Decision} {approvalId actor : String}
    {comment : Option String} :
    Blind (Session.over g) (App.decideRequest now decision approvalId actor comment : SessionM β _) := by
  have hpending : ∀ row, Blind (Session.over g) (App.ensureApprovalPending now row : SessionM β _) :=
    fun row =>
    Blind.raiseIf.bind fun _ => .whenever ((blind_setRow hg.approvals _).bind fun _ => .throw _)
  have hresource : ∀ row, Blind (Session.over g)
      (App.decideResource row decision comment : SessionM β _) := by
    intro row
    unfold App.decideResource
    split
    · exact (blind_getOr hg.labs _ _).bind fun _ => blind_setRow hg.labs _
    · split
      · exact (blind_getOr hg.exports _ _).bind fun _ => blind_setRow hg.exports _
      · exact .pure _
  exact (blind_getOr hg.approvals _ _).bind fun row =>
    ((hpending row).bind fun _ => Blind.raiseIf.bind fun _ =>
    (blind_setRow hg.approvals _).bind fun _ => (hresource _).bind fun _ => .pure _).bind fun _ =>
    (blind_recordEvent hg _).bind fun _ => .pure _

omit [Content β] in
theorem blind_checkRun (hg : Aside g) (runId : Option String) (lab : LabRow) (mismatch : Exc) :
    Blind (Session.over g) (App.checkRun runId lab mismatch : SessionM β _) := by
  cases runId with
  | none => exact .pure _
  | some runId => exact (blind_getOr hg.runs _ _).bind fun _ => .raiseIf

theorem blind_createSnapshot (hg : Aside g) {labId : String} {runId : Option String}
    {requester : RequesterType} :
    Blind (Session.over g) (App.createSnapshot env now labId runId requester) :=
  (blind_getOr hg.labs _ _).bind fun _ => (blind_getOr hg.labStorage _ _).bind fun _ =>
    (blind_checkRun hg _ _ _).bind fun _ => (blind_newId _).bind fun _ =>
    (Blind.adaptExcept (blind_onDisk _)).bind fun _ => (blind_addRow hg.snapshots _).bind fun _ =>
    (blind_recordEvent hg _).bind fun _ => .pure _

theorem blind_restoreSnapshot (hg : Aside g) {snapshotId labId : String} {requester : RequesterType} :
    Blind (Session.over g) (App.restoreSnapshot env now snapshotId labId requester) :=
  (blind_getOr hg.snapshots _ _).bind fun _ => (blind_getOr hg.labs _ _).bind fun _ =>
    (blind_getOr hg.labStorage _ _).bind fun _ => (Blind.adaptExcept (blind_onDisk _)).bind fun _ =>
    (blind_recordEvent hg _).bind fun _ => .pure _

theorem blind_createExport (hg : Aside g) {labId sourcePath : String} {runId : Option String}
    {requester : RequesterType} :
    Blind (Session.over g) (App.createExport env now labId sourcePath runId requester) :=
  (blind_getOr hg.labs _ _).bind fun _ => (blind_getOr hg.labStorage _ _).bind fun _ =>
    (blind_checkRun hg _ _ _).bind fun _ => (blind_newId _).bind fun _ =>
      (blind_recordEvent hg _).bind fun _ =>
    (Blind.adaptExcept (blind_onDisk _)).bind fun _ => (blind_addRow hg.exports _).bind fun _ =>
    (blind_recordEvent hg _).bind fun _ =>
    (Blind.whenever ((blind_recordApprovalRequest hg).bind fun _ => blind_recordEvent hg _)).bind
      fun _ => .pure _

omit [Content β] in
theorem blind_finishRelease (hg : Aside g) (row : ExportRow) (outcome : Except Exc ExportStageResult) :
    Blind (Session.over g) (App.finishRelease row outcome : SessionM β _) := by
  unfold App.finishRelease
  split
  · exact (blind_setRow hg.exports _).bind fun _ => (blind_recordEvent hg _).bind fun _ => .pure _
  · exact (blind_recordEvent hg _).bind fun _ => .pure _
  all_goals exact .throw _

theorem blind_releaseExport (hg : Aside g) {exportId : String} :
    Blind (Session.over g) (App.releaseExport exportId : SessionM β _) :=
  (blind_getOr hg.exports _ _).bind fun _ => (blind_getOr hg.labStorage _ _).bind fun _ =>
    (blind_attempt (blind_onDisk _)).bind fun _ => blind_finishRelease hg _ _

omit [Content β] in
theorem blind_denyExport (hg : Aside g) {exportId reason : String} :
    Blind (Session.over g) (App.denyExport exportId reason : SessionM β _) :=
  (blind_getOr hg.exports _ _).bind fun _ => Blind.fromExcept.bind fun _ =>
    (blind_setRow hg.exports _).bind fun _ =>
    (blind_recordEvent hg _).bind fun _ => .pure _

end Handlers

/-! ### A pass -/

section Pass

open ReconciliationService

variable {g : Store → Store} {now : DateTime} {service : Reconciler β}
  {storageByLabId : String → Option LabStorageRow}

/-- A sweep over the rows that a query selects from a table that the change leaves alone. -/
theorem blind_sweep {ρ γ : Type} {key : ρ → String} {m : Mapped key} (hm : Overlooks m g) (p : ρ → Bool)
    (before : ρ → ρ → Prop) [DecidableRel before] {round : γ → ρ → SessionM β γ} (report : γ)
    (h : ∀ report row, Blind (Session.over g) (round report row)) :
    Blind (Session.over g) (get >>= fun s => ((m.table s.store).select p before).foldlM round report) :=
  Blind.reading (fun s => by simp only [Session.over, hm.table]) fun _ => .foldlM h _ _

theorem blind_expireApproval (hg : Aside g) (report : ReconciliationReport) (approval : ApprovalRow) :
    Blind (Session.over g) (expireApproval now report approval : SessionM β _) := by
  have hresource : Blind (Session.over g) (expireResource approval : SessionM β _) := by
    unfold expireResource
    split
    · refine (blind_getRow hg.labs _).bind fun lab => ?_
      cases lab with
      | none => exact .pure _
      | some lab => exact .whenever (blind_setRow hg.labs _)
    · split
      · refine (blind_getRow hg.exports _).bind fun row => ?_
        cases row with
        | none => exact .pure _
        | some row => exact blind_setRow hg.exports _
      · exact .pure _
  unfold expireApproval
  split
  · exact (blind_setRow hg.approvals _).bind fun _ => hresource.bind fun _ =>
      (blind_recordEvent hg _).bind fun _ => .pure _
  · exact .pure _

theorem blind_revokeExpired (hg : Aside g) (report : ReconciliationReport) (lease : SecretLeaseRow) :
    Blind (Session.over g) (revokeExpired now report lease : SessionM β _) := by
  unfold revokeExpired
  split
  · exact (blind_setRow hg.secretLeases _).bind fun _ => (blind_recordEvent hg _).bind fun _ => .pure _
  · exact .pure _

theorem blind_timeoutRun (hg : Aside g) (report : ReconciliationReport) (run : RunRow) :
    Blind (Session.over g) (timeoutRun now report run : SessionM β _) := by
  unfold timeoutRun
  split
  · exact (blind_setRow hg.runs _).bind fun _ => (blind_recordEvent hg _).bind fun _ => .pure _
  · exact .pure _

theorem blind_failDestroy (hg : Aside g) (report : ReconciliationReport) (lab : LabRow) :
    Blind (Session.over g) (failDestroy service report lab) :=
  (blind_setRow hg.labs _).bind fun _ => (blind_recordEvent hg _).bind fun _ => .pure _

theorem blind_retryDestroy (hg : Aside g) (destroyer : StorageAllocation → DiskM β Unit)
    (report : ReconciliationReport) (lab : LabRow) :
    Blind (Session.over g) (retryDestroy service destroyer storageByLabId report lab) := by
  unfold retryDestroy
  cases storageByLabId lab.id with
  | none => exact blind_failDestroy hg _ _
  | some storageRow =>
    refine (blind_attempt (blind_onDisk _)).bind fun outcome => ?_
    cases outcome with
    | error e =>
      refine (blind_setRow hg.labs _).bind fun _ => (blind_recordEvent hg _).bind fun _ => ?_
      split
      · exact blind_failDestroy hg _ _
      · exact .pure _
    | ok u => exact (blind_setRow hg.labs _).bind fun _ => (blind_recordEvent hg _).bind fun _ => .pure _

theorem blind_checkStorage (hg : Aside g) (report : ReconciliationReport) (labId : String) :
    Blind (Session.over g) (checkStorage storageByLabId report labId : SessionM β _) := by
  refine (blind_getRow hg.labs _).bind fun lab => ?_
  cases lab with
  | none => exact .pure _
  | some lab =>
    dsimp only
    split
    · exact .pure _
    · refine (blind_onDisk _).bind fun reason => ?_
      cases reason with
      | none => exact .pure _
      | some reason =>
        exact (blind_setRow hg.labs _).bind fun _ => (blind_recordEvent hg _).bind fun _ => .pure _

theorem blind_inspect (hg : Aside g) (report : ReconciliationReport) (inspection : LabInspection) :
    Blind (Session.over g) (inspect report inspection : SessionM β _) := by
  refine (blind_getRow hg.labs _).bind fun lab => ?_
  cases lab with
  | none => exact (blind_recordEvent hg _).bind fun _ => .pure _
  | some lab =>
    dsimp only
    split
    · exact (blind_recordEvent hg _).bind fun _ => .pure _
    · exact .pure _

/-- **A pass looks neither at the log nor at the queue.** -/
theorem blind_reconcile (hg : Aside g) : Blind (Session.over g) (reconcile service now) := by
  unfold reconcile
  refine Blind.reading (fun s => ?_) fun s => ?_
  · have hlabs : (s.over g).store.labs = s.store.labs := hg.labs.table s.store
    have hstorage : (s.over g).store.labStorage = s.store.labStorage := hg.labStorage.table s.store
    dsimp only
    rw [hlabs, hstorage]
  · refine (blind_sweep hg.approvals _ _ _ (blind_expireApproval hg)).bind fun _ =>
      (blind_sweep hg.secretLeases _ _ _ (blind_revokeExpired hg)).bind fun _ =>
      (blind_sweep hg.runs _ _ _ (blind_timeoutRun hg)).bind fun _ => Blind.bind ?_ fun _ =>
      (Blind.foldlM (blind_checkStorage hg) _ _).bind fun _ =>
      (Blind.foldlM (blind_inspect hg) _ _).bind fun _ => .pure _
    unfold retryDestroyingLabs
    cases service.storageDestroyer with
    | none => exact .pure _
    | some destroyer => exact blind_sweep hg.labs _ _ _ (blind_retryDestroy hg destroyer)

end Pass

/-! ### Requests -/

section Requests

variable [Content β] {env : Environment β} {now : ℤ} {g : Store → Store}

/-- Does the request work on the queue of the scheduler? -/
def Request.queues : Request β → Bool
  | .enqueueSchedulerJob _ | .dispatchNextSchedulerJob => true
  | _ => false

/-- **A handler** is blind to what the tables it looks at leave alone. -/
theorem blind_handler (hg : Aside g) {r : Request β} (hjobs : r.queues = true → Overlooks .schedulerJobs g) :
    Blind (Session.over g) (handler env now r) := by
  cases r with
  | createLab profileName requester => exact (blind_createLabRecord hg).map
  | destroyLab labId => exact (blind_destroyLab hg).map
  | createSecretLease labId secretName requester ttlMinutes => exact (blind_createSecretLease hg).map
  | revokeSecretLease leaseId actor reason => exact (blind_revokeSecretLease hg).map
  | createRun labId command requester => exact (blind_createRunRecord hg).map
  | enqueueSchedulerJob request => exact (blind_enqueueSchedulerJob hg (hjobs rfl)).map
  | dispatchNextSchedulerJob => exact (blind_dispatchNextSchedulerJob hg (hjobs rfl)).map
  | approveRequest approvalId actor comment => exact (blind_decideRequest hg).map
  | denyRequest approvalId actor comment => exact (blind_decideRequest hg).map
  | createSnapshot labId runId requester => exact (blind_createSnapshot hg).map
  | restoreSnapshot snapshotId labId requester => exact (blind_restoreSnapshot hg).map
  | createExport labId sourcePath runId requester => exact (blind_createExport hg).map
  | releaseExport exportId => exact (blind_releaseExport hg).map
  | denyExport exportId reason => exact (blind_denyExport hg).map
  | reconcile inventory destroys maxDestroyAttempts now => exact (blind_reconcile hg).map

/-- A request is answered the same after the change. -/
theorem blind_respond (hg : Aside g) {r : Request β} (hjobs : r.queues = true → Overlooks .schedulerJobs g) :
    Blind (Session.over g) (respond env now r) := by
  intro s
  rw [respond_eq, respond_eq]
  split
  · rw [blind_withSession (blind_handler hg hjobs) s]
    cases withSession (handler env now r) s with
    | error e s' => rfl
    | ok result s' => cases result <;> rfl
  · rfl

end Requests

/-! ### Runs -/

section Runs

variable [Content β] {env : Environment β} {g : Store → Store}

/-- The state with its rows changed. -/
def State.over (g : Store → Store) (s : State β) : State β := { s with store := g s.store }

/-- Does the action work on the queue of the scheduler? -/
def Action.queues : Action β → Bool
  | .request r _ _ => r.queues
  | .guest _ _ => false

theorem answer_over (hg : Aside g) {r : Request β} (hjobs : r.queues = true → Overlooks .schedulerJobs g)
    (s : State β) (now : ℤ) (fates : List Fate) :
    answer env (s.over g) r now fates = changing (Session.over g) (answer env s r now fates) :=
  blind_respond hg hjobs (s.session fates)

/-- **A step** is the same after the change. -/
theorem step_over (hg : Aside g) {a : Action β} (hjobs : a.queues = true → Overlooks .schedulerJobs g)
    (s : State β) : step env (s.over g) a = (step env s a).over g := by
  cases a with
  | request r now fates =>
    show (endState (answer env (s.over g) r now fates)).state = _
    rw [answer_over hg hjobs, endState_changing]
    rfl
  | guest labId entries => rfl

/-- **A run** is the same after the change. -/
theorem runFrom_over (hg : Aside g) {actions : List (Action β)}
    (hjobs : ∀ a ∈ actions, a.queues = true → Overlooks .schedulerJobs g) (s : State β) :
    runFrom env (s.over g) actions = (runFrom env s actions).over g := by
  induction actions generalizing s with
  | nil => rfl
  | cons a actions ih =>
    have hrest := ih (fun b hb => hjobs b (List.mem_cons_of_mem a hb)) (step env s a)
    rw [← step_over hg (hjobs a List.mem_cons_self) s] at hrest
    exact hrest

/-- Other events come before those of the log. -/
def logAfter (es : List EventRow) (st : Store) : Store := { st with events := es ++ st.events }

/-- The queue is another one. -/
def queueAs (jobs : Table SchedulerJobRow.id) (st : Store) : Store := { st with schedulerJobs := jobs }

omit [Content β] in
theorem aside_logAfter (es : List EventRow) : Aside (logAfter es) where
  labs := ⟨fun _ => rfl, fun _ _ => rfl⟩
  labStorage := ⟨fun _ => rfl, fun _ _ => rfl⟩
  runs := ⟨fun _ => rfl, fun _ _ => rfl⟩
  approvals := ⟨fun _ => rfl, fun _ _ => rfl⟩
  exports := ⟨fun _ => rfl, fun _ _ => rfl⟩
  snapshots := ⟨fun _ => rfl, fun _ _ => rfl⟩
  secretLeases := ⟨fun _ => rfl, fun _ _ => rfl⟩
  events _ _ := by simp [logAfter]

omit [Content β] in
theorem aside_queueAs (jobs : Table SchedulerJobRow.id) : Aside (queueAs jobs) where
  labs := ⟨fun _ => rfl, fun _ _ => rfl⟩
  labStorage := ⟨fun _ => rfl, fun _ _ => rfl⟩
  runs := ⟨fun _ => rfl, fun _ _ => rfl⟩
  approvals := ⟨fun _ => rfl, fun _ _ => rfl⟩
  exports := ⟨fun _ => rfl, fun _ _ => rfl⟩
  snapshots := ⟨fun _ => rfl, fun _ _ => rfl⟩
  secretLeases := ⟨fun _ => rfl, fun _ _ => rfl⟩
  events _ _ := rfl

/-- **The log decides nothing, and the queue nothing but its dispatches.** From a state with another log, a
run gives the same answers, leaves the same rows and files, and appends the same events. From a state
with another queue, a run without requests to the scheduler gives the same answers, leaves the same rows,
files and events, and that queue. -/
theorem log_unread (env : Environment β) (s : State β) (actions : List (Action β)) :
    (∀ es, runFrom env (s.over (logAfter es)) actions = (runFrom env s actions).over (logAfter es) ∧
      ∀ r now fates, answer env (runFrom env (s.over (logAfter es)) actions) r now fates =
        changing (Session.over (logAfter es)) (answer env (runFrom env s actions) r now fates)) ∧
    ((∀ a ∈ actions, a.queues = false) → ∀ jobs,
      runFrom env (s.over (queueAs jobs)) actions = (runFrom env s actions).over (queueAs jobs) ∧
      ∀ r now fates, r.queues = false → answer env (runFrom env (s.over (queueAs jobs)) actions) r now fates =
        changing (Session.over (queueAs jobs)) (answer env (runFrom env s actions) r now fates)) := by
  refine ⟨fun es => ?_, fun hqueues jobs => ?_⟩
  · have hlog : Overlooks .schedulerJobs (logAfter es) := ⟨fun _ => rfl, fun _ _ => rfl⟩
    rw [runFrom_over (aside_logAfter es) fun _ _ _ => hlog]
    exact ⟨rfl, fun r now fates => answer_over (aside_logAfter es) (fun _ => hlog) _ _ _⟩
  · rw [runFrom_over (aside_queueAs jobs) fun a ha hqueued => by rw [hqueues a ha] at hqueued; cases hqueued]
    refine ⟨rfl, fun r now fates hr => answer_over (aside_queueAs jobs) (fun hqueued => ?_) _ _ _⟩
    rw [hr] at hqueued
    cases hqueued

/-- A run of a lab, and a job that has nothing to do with it. -/
def unqueuedRun : List (Action Blob) :=
  [.request (.createLab "safe-dev" .human) 0 [],
   .request (.createRun "a" "make" .human) 1 []]

/-- The job that was queued is queued still. -/
theorem log_unread_unqueuedRun : ∃ jobs : Table SchedulerJobRow.id, jobs.rows.length = 1 ∧
    runFrom (symbolic defaultProfiles) (emptyState.over (queueAs jobs)) unqueuedRun =
      (runFrom (symbolic defaultProfiles) emptyState unqueuedRun).over (queueAs jobs) := by
  let job : SchedulerJobRow := {
    id := "job", action := .createLab, state := .queued, requesterId := "cron", profileName := some "safe-dev"
    labId := none, command := none, scheduledFor := .utc 0, maxAttempts := 3, createdAt := .utc 0 }
  refine ⟨(Store.empty.schedulerJobs).put job, by decide +kernel, ?_⟩
  exact ((log_unread (symbolic defaultProfiles) emptyState unqueuedRun).2 (by decide +kernel) _).1

end Runs

end LabOS
