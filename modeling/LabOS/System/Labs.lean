import LabOS.System.Invariants
import LabOS.System.Symbolic

/-!
# The life of a lab

Which steps move a lab, and what a lab's state is asked for. An approval outlives the
lab it is for: a decision sets the state of the lab without looking at it, where the
expiry of the approval looks. Runs and leases are given to any lab that exists.

## What is proved

* `lab_decisions` — in runs whose decisions find their lab pending, a decision or an
  expiry moves a lab only out of `pending_approval`, a destroyed lab stays destroyed and
  a failed one is never approved again; `destroyed_lab_approved` is a decision that finds
  its lab destroyed.
* `lab_use` — a run, the dispatch of a run and a lease succeed for exactly the labs that
  exist; `destroyed_lab_used` uses a lab that is destroyed.
-/

namespace LabOS

open Exceptional FileOps ReconciliationService

variable {β : Type} [Content β] {env : Environment β}

/-! ### Decisions on labs -/

/-- The lab of an approval that is pending, and not too old to be decided, is in one of the states `fine`. -/
def FindsLab (now : ℤ) (st : Store) (approvalId : String) (fine : List LabState) : Prop :=
  ∀ a ∈ st.approvals.rows, a.id = approvalId → a.state = .requested → App.isExpired now a = false →
    a.resourceType = "lab" → ∀ lab ∈ st.labs.rows, lab.id = a.resourceId → lab.state ∈ fine

instance (now : ℤ) (st : Store) (approvalId : String) (fine : List LabState) :
    Decidable (FindsLab now st approvalId fine) :=
  decidable_of_iff (∀ a ∈ st.approvals.rows.filter fun a : ApprovalRow =>
      a.id = approvalId && (a.state = .requested && (App.isExpired now a = false && a.resourceType = "lab")),
    ∀ lab ∈ st.labs.rows.filter fun lab : LabRow => lab.id = a.resourceId, lab.state ∈ fine) (by
      simp only [FindsLab, List.mem_filter, Bool.and_eq_true, decide_eq_true_eq, and_imp])

/-- A pending approval is granted only while its lab is pending, and denied only while its lab is
pending or has failed. A decision that comes too late, or gives no reason for a denial, is refused and may
find what it will. -/
def decidesPendingLabs (s : State β) : Action β → Prop
  | .request (.approveRequest approvalId _ _) now _ => FindsLab now s.store approvalId [.pendingApproval]
  | .request (.denyRequest approvalId _ comment) now _ =>
    comment.all Strings.isBlank = false → FindsLab now s.store approvalId [.pendingApproval, .failed]
  | _ => True

instance (s : State β) (a : Action β) : Decidable (decidesPendingLabs s a) :=
  match a with
  | .request (.approveRequest approvalId _ _) now _ =>
    inferInstanceAs (Decidable (FindsLab now s.store approvalId [.pendingApproval]))
  | .request (.denyRequest approvalId _ comment) now _ =>
    inferInstanceAs (Decidable (comment.all Strings.isBlank = false →
      FindsLab now s.store approvalId [.pendingApproval, .failed]))
  | .request (.createLab ..) _ _ | .request (.destroyLab ..) _ _ | .request (.createSecretLease ..) _ _
  | .request (.revokeSecretLease ..) _ _ | .request (.createRun ..) _ _ |
      .request (.enqueueSchedulerJob ..) _ _
  | .request .dispatchNextSchedulerJob _ _ | .request (.createSnapshot ..) _ _ |
      .request (.restoreSnapshot ..) _ _
  | .request (.createExport ..) _ _ | .request (.releaseExport ..) _ _ | .request (.denyExport ..) _ _
  | .request (.reconcile ..) _ _ | .guest .. => isTrue trivial

/-- The states the lab of an approval may be in when it is decided. -/
def App.Decision.fineStates : App.Decision → List LabState
  | .approved => [.pendingApproval]
  | .rejected => [.pendingApproval, .failed]

omit [Content β] in
theorem findsLab_of_decides {s : State β} {decision : App.Decision} {approvalId actor : String}
    {comment : Option String} {now : ℤ} {fates : List Fate}
    (h : decidesPendingLabs s (.request (decisionRequest decision approvalId actor comment) now fates))
    (hcommented : decision = .rejected → comment.all Strings.isBlank = false) :
    FindsLab now s.store approvalId decision.fineStates := by
  cases decision with
  | approved => exact h
  | rejected => exact h (hcommented rfl)

omit [Content β] in
/-- A decision moves its lab only when it is one of the fine states. -/
theorem fine_of_decided {s : State β} {decision : App.Decision} {approvalId actor : String}
    {comment : Option String} {now : ℤ} {fates : List Fate} {a : ApprovalRow} {lab : LabRow} {id : String}
    (hok : decidesPendingLabs s (.request (decisionRequest decision approvalId actor comment) now fates))
    (decides : Decides now s.store decision approvalId comment a) (type : a.resourceType = "lab")
    (resource : a.resourceId = lab.id) (hlab : s.store.labs.get? id = some lab) :
    lab.state ∈ decision.fineStates :=
  findsLab_of_decides hok decides.commented a (Table.mem_of_get? decides.row)
    (Table.key_of_get? decides.row) decides.pending decides.unexpired type lab
    (Table.mem_of_get? hlab) resource.symm

omit [Content β] in
/-- **A decision that finds its lab as it should** moves it only out of pending. -/
theorem pending_of_decision {s : State β} {decision : App.Decision} {approvalId actor : String}
    {comment : Option String} {now : ℤ} {fates : List Fate} {st' : Store} {lab lab' : LabRow} {id : String}
    (hok : decidesPendingLabs s (.request (decisionRequest decision approvalId actor comment) now fates))
    (hlab : s.store.labs.get? id = some lab)
    (h : LabMove now s.store st' (decisionRequest decision approvalId actor comment : Request β) lab lab')
    (hmoved : lab'.state ≠ lab.state) : lab.state = .pendingApproval := by
  cases h with
  | same => exact absurd rfl hmoved
  | destroyed request => cases decision <;> cases request
  | @decided decision' approvalId' actor' comment' a request decides type resource =>
    rw [request] at hok
    have hfine := fine_of_decided hok decides type resource hlab
    cases decision' with
    | approved => exact List.mem_singleton.mp hfine
    | rejected =>
      rcases List.mem_pair.mp hfine with hs | hs
      · exact hs
      · exact absurd hs.symm hmoved
  | swept request =>
    obtain ⟨_, _, _, _, h, -⟩ := request
    cases decision <;> cases h

/-- The lab is there and its state is one of `states`. -/
def LabIn (labId : String) (states : List LabState) (st : Store) : Prop :=
  ∃ lab, st.labs.get? labId = some lab ∧ lab.state ∈ states

/-- A destroyed lab stays destroyed, and a failed one fails or is destroyed, when decisions find
their lab as they should. -/
theorem spent_of_effect {labId : String} {states : List LabState}
    (hstates : states = [.destroyed] ∨ states = [.failed, .destroyed]) {s : State β} {r : Request β} {now : ℤ}
    {fates : List Fate} {m m' : ℕ} {st' : Store} (hok : decidesPendingLabs s (.request r now fates))
    (h : Effect env now r m m' s.store st') (hs : LabIn labId states s.store) : LabIn labId states st' := by
  obtain ⟨lab, hlab, hstate⟩ := hs
  obtain ⟨lab', hlab', hmove⟩ := labMove_of_effect h hlab
  refine ⟨lab', hlab', ?_⟩
  cases hmove with
  | same => exact hstate
  | destroyed => rcases hstates with rfl | rfl <;> simp
  | @decided decision approvalId actor comment a request decides type resource =>
    subst request
    have hfine := fine_of_decided hok decides type resource hlab
    cases decision with
    | approved =>
      rw [List.mem_singleton.mp hfine] at hstate
      rcases hstates with rfl | rfl <;> simp at hstate
    | rejected =>
      rcases hstates with rfl | rfl
      · rw [List.mem_singleton.mp hstate] at hfine
        simp [App.Decision.fineStates] at hfine
      · simp [App.decidedLab]
  | swept _ swept =>
    rcases swept.state with hs | ⟨halive, hs⟩ | ⟨hdestroying, hs⟩
    · rwa [hs]
    · rcases hstates with rfl | rfl
      · exact absurd (List.mem_singleton.mp hstate) halive
      · simp [hs]
    · rw [hdestroying] at hstate
      rcases hstates with rfl | rfl <;> simp at hstate

/-! ### Expiry -/

/-- The labs before and after approvals have expired: only a pending lab has moved, to failed. -/
def expiring : Frame (Session β) where
  rel s s' := ∀ id lab, s.store.labs.get? id = some lab → ∃ lab', s'.store.labs.get? id = some lab' ∧
    (lab' = lab ∨ lab.state = .pendingApproval ∧ lab'.state = .failed)
  refl _ _ lab h := ⟨lab, h, .inl rfl⟩
  trans h h' id lab hlab := by
    obtain ⟨lab₁, hlab₁, hmove⟩ := h id lab hlab
    obtain ⟨lab₂, hlab₂, hmove'⟩ := h' id lab₁ hlab₁
    refine ⟨lab₂, hlab₂, ?_⟩
    rcases hmove' with rfl | ⟨hpending, hfailed⟩
    · exact hmove
    · rcases hmove with rfl | ⟨-, hfailed'⟩
      · exact .inr ⟨hpending, hfailed⟩
      · exact absurd (hpending.symm.trans hfailed') (by decide)

omit [Content β] in
/-- A program that leaves the labs alone. -/
theorem expiring_of_labs {α : Type} {x : SessionM β α} {s : Session β}
    (h : (endState (x s)).store.labs = s.store.labs) : Within expiring x s := by
  intro id lab hlab
  exact ⟨lab, by rw [h]; exact hlab, .inl rfl⟩

omit [Content β] in
/-- **The expiry of approvals moves a lab only out of pending.** -/
theorem within_expiring {now : DateTime} {report : ReconciliationReport} {s : Session β} :
    Within expiring (expireStaleApprovals now report) s := by
  refine Within.get.bind fun _ _ _ _ => Within.foldlM fun a _ report s => ?_
  unfold expireApproval
  split
  · refine Within.bind (expiring_of_labs rfl) fun _ _ _ _ => Within.bind ?_ fun _ _ _ _ =>
      Within.bind (expiring_of_labs rfl) fun _ _ _ _ => Within.pure _
    unfold expireResource
    split
    · refine Within.bind (expiring_of_labs rfl) fun lab s₁ h₁ _ => ?_
      obtain ⟨hlab, rfl⟩ := getRow_eq_ok.mp h₁
      cases lab with
      | none => exact Within.pure _
      | some lab =>
        refine Within.whenever fun hpending => ?_
        have hid := Table.key_of_get? hlab
        intro id row hrow
        exact Table.exists_move_of_put
          (R := fun lab lab' : LabRow => lab' = lab ∨ lab.state = .pendingApproval ∧ lab'.state = .failed)
          (fun _ => .inl rfl) hlab hid (.inr ⟨of_decide_eq_true hpending, rfl⟩) hrow
    · split
      · refine Within.bind (expiring_of_labs rfl) fun row _ _ _ => ?_
        cases row with
        | none => exact Within.pure _
        | some row => exact expiring_of_labs rfl
      · exact Within.pure _
  · exact Within.pure _

/-! ### Runs -/

/-- **An approval decision moves a lab only out of `pending_approval`**, in every run in which a pending
approval is granted only while its lab is pending, and denied only while its lab is pending or failed:
so does every expiry, and no destroyed lab is ever anything else, no failed lab ever approved. -/
theorem lab_decisions (env : Environment β) (s₀ : State β) (actions : List (Action β))
    (hok : Runs.Allowed (step env) decidesPendingLabs s₀ actions) :
    (∀ past r now fates future labId lab lab', actions = past ++ .request r now fates :: future →
      (∃ decision approvalId actor comment, r = decisionRequest decision approvalId actor comment) →
      (runFrom env s₀ past).store.labs.get? labId = some lab →
      (step env (runFrom env s₀ past) (.request r now fates)).store.labs.get? labId = some lab' →
      lab'.state ≠ lab.state → lab.state = .pendingApproval) ∧
    (∀ now report fates labId lab lab', (runFrom env s₀ actions).store.labs.get? labId = some lab →
      (endState (expireStaleApprovals now report ((runFrom env s₀ actions).session fates))).store.labs.get?
        labId =
        some lab' → lab'.state ≠ lab.state → lab.state = .pendingApproval) ∧
    ∀ past future labId lab lab', actions = past ++ future →
      (runFrom env s₀ past).store.labs.get? labId = some lab →
      (runFrom env s₀ actions).store.labs.get? labId = some lab' →
      (lab.state = .destroyed → lab'.state = .destroyed) ∧
        (lab.state = .failed → lab'.state ≠ .approved) := by
  refine ⟨?_, ?_, ?_⟩
  · rintro past r now fates future labId lab lab' rfl
      ⟨decision, approvalId, actor, comment, rfl⟩ hlab hlab' hmoved
    obtain ⟨-, hdecision, -⟩ := Runs.allowed_append.mp hok
    obtain ⟨lab₁, hlab₁, hmove⟩ :=
      labMove_of_effect (effect_of_answer env (runFrom env s₀ past) _ now fates) hlab
    obtain rfl := Option.some.inj (hlab₁.symm.trans hlab')
    exact pending_of_decision hdecision hlab hmove hmoved
  · intro now report fates labId lab lab' hlab hlab' hmoved
    obtain ⟨lab₁, hlab₁, hmove⟩ :=
      (within_expiring : Within expiring (expireStaleApprovals now report)
        ((runFrom env s₀ actions).session fates))
        labId lab hlab
    obtain rfl := Option.some.inj (hlab₁.symm.trans hlab')
    rcases hmove with rfl | ⟨hpending, -⟩
    · exact absurd rfl hmoved
    · exact hpending
  · rintro past future labId lab lab' rfl hlab hlab'
    obtain ⟨-, hfuture⟩ := Runs.allowed_append.mp hok
    rw [runFrom, Runs.after_append] at hlab'
    have hspent : ∀ states : List LabState, states = [.destroyed] ∨ states = [.failed, .destroyed] →
        lab.state ∈ states → lab'.state ∈ states := by
      intro states hstates hstate
      have hin : LabIn labId states (runFrom env (runFrom env s₀ past) future).store :=
        rows_kept_of (I := LabIn labId states) (fun s r now fates m m' st' => spent_of_effect hstates)
          ⟨lab, hlab, hstate⟩ hfuture
      obtain ⟨lab₁, hlab₁, hstate₁⟩ := hin
      obtain rfl := Option.some.inj (hlab₁.symm.trans hlab')
      exact hstate₁
    constructor
    · intro hstate
      exact List.mem_singleton.mp (hspent _ (.inl rfl) (by simp [hstate]))
    · intro hstate happroved
      have := hspent _ (.inr rfl) (by simp [hstate])
      simp [happroved] at this

/-- A lab that waits for an approval is destroyed. -/
def destroyPending : List (Action Blob) :=
  [.request (.createLab "red-zone" .human) 0 [], .request (.destroyLab "a") 1 []]

/-- A pass finds a destroyed lab destroyed, and leaves it so. -/
theorem lab_decisions_destroyPending :
    ∃ lab, (runFrom (symbolic defaultProfiles) emptyState (destroyPending ++
      [.request (.reconcile none true 3 (.utc 2)) 2 []])).store.labs.get? "a" = some lab ∧
        lab.state = .destroyed := by
  have hok : Runs.Allowed (step (symbolic defaultProfiles)) decidesPendingLabs emptyState
      (destroyPending ++ [.request (.reconcile none true 3 (.utc 2)) 2 []]) := by
    decide +kernel
  have hbefore : ((runFrom (symbolic defaultProfiles) emptyState destroyPending).store.labs.get? "a").map
      LabRow.state = some .destroyed := by
    decide +kernel
  have hafter : ((runFrom (symbolic defaultProfiles) emptyState (destroyPending ++
      [.request (.reconcile none true 3 (.utc 2)) 2 []])).store.labs.get? "a").isSome = true := by
    decide +kernel
  obtain ⟨lab, hlab, hstate⟩ := Option.map_eq_some_iff.mp hbefore
  obtain ⟨lab', hlab'⟩ := Option.isSome_iff_exists.mp hafter
  exact ⟨lab', hlab', ((lab_decisions (symbolic defaultProfiles) emptyState _ hok).2.2 destroyPending _
    "a" lab lab' rfl hlab hlab').1 hstate⟩

/-- **Not so for a lab that is destroyed while its approval is pending**: granting the approval makes it
approved. -/
theorem destroyed_lab_approved :
    ((runFrom (symbolic defaultProfiles) emptyState destroyPending).store.labs.get? "a").map LabRow.state =
      some .destroyed ∧
    ((runFrom (symbolic defaultProfiles) emptyState (destroyPending ++
      [.request (.approveRequest "aa" "ops" none) 2 []])).store.labs.get? "a").map LabRow.state =
        some .approved := by
  decide +kernel

/-! ### The use of a lab -/

/-- An identifier that is taken next is that of no row. -/
theorem fresh_of_taken {ρ : Type} {key : ρ → String} {t : Table key} {m n : ℕ}
    (h : ∀ id row, t.get? id = some row → Taken env m id) (hn : m ≤ n) : t.get? (env.uuid4 n) = none := by
  cases hrow : t.get? (env.uuid4 n) with
  | none => rfl
  | some row => exact absurd rfl ((h _ row hrow).ne_uuid4 hn)

section Use

variable {s : Session β} {now : ℤ} {labId : String}

/-- A run can be created in a lab exactly when the lab exists. -/
theorem createRunRecord_iff (now : ℤ) (command : String) (requester : RequesterType)
    (hfresh : s.store.runs.get? (env.uuid4 s.minted) = none) :
    (∃ run s', App.createRunRecord env now labId command requester s = .ok run s' ∧ s'.disk = s.disk) ↔
      ∃ lab, s.store.labs.get? labId = some lab := by
  constructor
  · rintro ⟨run, s', h, -⟩
    exact (createRunRecord_eq_ok h).1.lab
  · rintro ⟨lab, hlab⟩
    simp [App.createRunRecord, bind_eq_ok, hlab, hfresh]

theorem respond_createRun_iff {command : String} {requester : RequesterType} (hs : Sound env s.minted s.store)
    (hfates : s.disk.fates = []) :
    (∃ response s', respond env now (.createRun labId command requester) s = .ok response s') ↔
      ∃ lab, s.store.labs.get? labId = some lab := by
  rw [← createRunRecord_iff now command requester (fresh_of_taken hs.runs le_rfl)]
  constructor
  · rintro ⟨response, s', h⟩
    obtain ⟨run, h, -⟩ := map_eq_ok.mp h
    obtain ⟨s₁, hbody, -⟩ := withSession_eq_ok h
    exact (createRunRecord_iff _ _ _ (fresh_of_taken hs.runs le_rfl)).mpr (createRunRecord_eq_ok hbody).1.lab
  · rintro ⟨run, s₁, hbody, hdisk⟩
    obtain ⟨s', h⟩ := withSession_of_ok hbody (by rw [hdisk, hfates])
    exact ⟨_, s', map_eq_ok.mpr ⟨run, h, rfl⟩⟩

/-- A job that starts a run succeeds exactly when its lab exists. -/
theorem respond_dispatch_iff {job : SchedulerJobRow} {command : String} (hs : Sound env s.minted s.store)
    (hfates : s.disk.fates = []) (hnext : SchedulerService.nextJob s.store now = some job)
    (haction : job.action = .startRun) (hlabId : job.labId = some labId)
    (hcommand : job.command = some command) :
    (∃ row s', respond env now .dispatchNextSchedulerJob s = .ok (.job row) s' ∧ row.state = .succeeded) ↔
      ∃ lab, s.store.labs.get? labId = some lab := by
  -- the session in which the claimed job runs
  let s₀ : Session β := { s with store := { s.store with
    schedulerJobs := s.store.schedulerJobs.put (SchedulerService.claimed now job) } }
  have hfresh : s₀.store.runs.get? (env.uuid4 s₀.minted) = none := fresh_of_taken hs.runs le_rfl
  have hiff : (∃ run s', App.createRunRecord env now labId command .scheduler s₀ = .ok run s' ∧
      s'.disk = s₀.disk) ↔
      ∃ lab, s.store.labs.get? labId = some lab := createRunRecord_iff now command .scheduler hfresh
  constructor
  · rintro ⟨row, s', h, hstate⟩
    obtain ⟨row', hblock, hrow⟩ := map_eq_ok.mp h
    obtain rfl := Response.job.inj hrow
    obtain ⟨s₁, hbody, -⟩ := withSession_eq_ok hblock
    simp [App.dispatchNextSchedulerJob, App.recordDispatch, bind_eq_ok] at hbody
    obtain ⟨s₂, hbody, -⟩ := hbody
    obtain ⟨job', outcome, s₃, hnext', hattempt, rfl, -⟩ := runNext_eq_ok.mp hbody
    obtain rfl := Option.some.inj (hnext.symm.trans hnext')
    rcases attempt_eq_ok.mp hattempt with ⟨result, rfl, hact⟩ | ⟨e, rfl, -⟩
    · rcases SchedulerService.action_eq_ok (rollingBack_eq_ok.mp hact) with
        ⟨_, _, hact, -⟩ | ⟨labId', command', id, -, hlabId', -, hcreate, -⟩
      · exact absurd (hact.symm.trans haction) (by decide)
      · obtain rfl := Option.some.inj (hlabId.symm.trans hlabId')
        obtain ⟨run, _, hrun, -⟩ := bind_eq_ok.mp hcreate
        exact (createRunRecord_eq_ok hrun).1.lab
    · unfold SchedulerService.settled at hstate
      dsimp only at hstate
      split at hstate <;> cases hstate
  · intro hlab
    obtain ⟨run, s₁, hrun, hdisk⟩ := hiff.mpr hlab
    have hact : SchedulerService.action (App.createJobLab env now) (App.createJobRun env now)
        (SchedulerService.claimed now job) s₀ = .ok ("run", run.id) s₁ := by
      simp [SchedulerService.action, SchedulerService.claimed, haction, hlabId, hcommand, App.createJobRun,
        bind_eq_ok]
      exact ⟨run, hrun, rfl⟩
    have hnextRun := runNext_eq_ok.mpr ⟨job, .ok ("run", run.id), s₁, hnext,
      attempt_eq_ok.mpr (.inl ⟨_, rfl, rollingBack_eq_ok.mpr hact⟩), rfl, rfl⟩
    have hbody : ∃ row s₂, App.dispatchNextSchedulerJob env now s = .ok row s₂ ∧ s₂.disk = s.disk ∧
        row.state = .succeeded := by
      simp only [App.dispatchNextSchedulerJob, App.recordDispatch, bind_eq_ok, orRaise_eq_ok,
        recordEvent_eq_ok,
        pure_eq_ok]
      exact ⟨_, _, ⟨_, _, hnextRun, _, _, ⟨rfl, rfl⟩, (), _, ⟨(), _, rfl, rfl⟩, rfl, rfl⟩, hdisk, rfl⟩
    obtain ⟨row, s₂, hbody, hdisk₂, hstate⟩ := hbody
    obtain ⟨s', h⟩ := withSession_of_ok hbody (by rw [hdisk₂, hfates])
    exact ⟨row, s', map_eq_ok.mpr ⟨row, h, rfl⟩, hstate⟩

/-- What a lab must meet for a lease, beside existing. -/
def LeaseAllowed (env : Environment β) (secretName : String) (ttlMinutes : ℤ) (lab : LabRow) : Prop :=
  (1 ≤ ttlMinutes ∧ ttlMinutes ≤ 24 * 60) ∧ (∃ value, env.secrets secretName = some value) ∧
    ∃ profile, PolicyEngine.profile? env.profiles lab.profileName = some profile ∧
      secretName ∈ profile.allowedSecretNames

theorem respond_createSecretLease_iff {secretName : String} {requester : RequesterType} {ttlMinutes : ℤ}
    (hs : Sound env s.minted s.store) (hfates : s.disk.fates = []) :
    (∃ response s', respond env now (.createSecretLease labId secretName requester ttlMinutes) s =
      .ok response s') ↔
      ∃ lab, s.store.labs.get? labId = some lab ∧ LeaseAllowed env secretName ttlMinutes lab := by
  constructor
  · rintro ⟨response, s', h⟩
    obtain ⟨_, _, hraise, h⟩ := bind_eq_ok.mp h
    obtain ⟨httl, rfl⟩ := raiseIf_eq_ok.mp hraise
    obtain ⟨lease, h, -⟩ := map_eq_ok.mp h
    obtain ⟨s₁, hbody, -⟩ := withSession_eq_ok h
    simp [App.createSecretLease, SecretLeaseService.issueLease, SecretLeaseService.resolve, adaptExcept_eq_ok,
      PolicyEngine.getProfile_eq_ok, bind_eq_ok] at hbody
    obtain ⟨⟨-, lab, hlab, profile, hprofile, hallowed, hsecret, -⟩, -⟩ := hbody
    exact ⟨lab, hlab, by simpa using httl, hsecret, profile, hprofile, hallowed⟩
  · rintro ⟨lab, hlab, httl, hsecret, profile, hprofile, hallowed⟩
    have hbody : ∃ lease s₁,
        App.createSecretLease env now labId secretName requester ttlMinutes s = .ok lease s₁ ∧
        s₁.disk = s.disk := by
      simp [App.createSecretLease, SecretLeaseService.issueLease, SecretLeaseService.resolve,
        adaptExcept_eq_ok,
        PolicyEngine.getProfile_eq_ok, bind_eq_ok, httl.1, hlab, hprofile, hallowed, hsecret,
        fresh_of_taken hs.leases le_rfl]
    obtain ⟨lease, s₁, hbody, hdisk⟩ := hbody
    obtain ⟨s', h⟩ := withSession_of_ok hbody (by rw [hdisk, hfates])
    exact ⟨_, s', bind_eq_ok.mpr
      ⟨(), s, raiseIf_eq_ok.mpr ⟨by simpa using httl, rfl⟩, map_eq_ok.mpr ⟨lease, h, rfl⟩⟩⟩

end Use

/-- The states a lab is ever in. -/
def livedStates : List LabState := [.pendingApproval, .approved, .failed, .destroyed]

theorem lived_of_effect {now : ℤ} {r : Request β} {m m' : ℕ} {st st' : Store}
    (h : Effect env now r m m' st st')
    (hst : ∀ id lab, st.labs.get? id = some lab → lab.state ∈ livedStates) :
    ∀ id lab, st'.labs.get? id = some lab → lab.state ∈ livedStates := by
  intro id lab' hlab'
  rcases lab_of_effect h hlab' with ⟨lab, hlab⟩ | ⟨profileName, requester, storage, -, new⟩
  · obtain ⟨lab₁, hlab₁, hmove⟩ := labMove_of_effect h hlab
    obtain rfl := Option.some.inj (hlab₁.symm.trans hlab')
    cases hmove with
    | same => exact hst id _ hlab
    | destroyed => simp [livedStates]
    | @decided decision => cases decision <;> simp [livedStates, App.decidedLab]
    | swept _ swept =>
      rcases swept.state with hs | ⟨-, hs⟩ | ⟨-, hs⟩
      · exact hs ▸ hst id lab hlab
      · simp [livedStates, hs]
      · simp [livedStates, hs]
  · obtain ⟨profile, -, -, -, hfirst⟩ := new.profile
    rw [hfirst]
    split <;> simp [livedStates]

theorem lived_of_run {s₀ : State β} (h₀ : Initial env s₀) (actions : List (Action β)) :
    ∀ id lab, (runFrom env s₀ actions).store.labs.get? id = some lab → lab.state ∈ livedStates :=
  rows_kept (I := fun st => ∀ id lab, st.labs.get? id = some lab → lab.state ∈ livedStates) lived_of_effect
    (h₀.store ▸ fun _ _ h => by cases h)

/-- **A lab is used without a look at its state.** In every reachable state every lab is in one of four
states, and a run, the dispatch of a job that starts one, and a lease, where the disk does not fail,
succeed exactly when the lab exists, and for a lease when its time and secret are allowed. -/
theorem lab_use (env : Environment β) (s₀ : State β) (h₀ : Initial env s₀) (actions : List (Action β)) :
    (∀ lab ∈ (runFrom env s₀ actions).store.labs.rows, lab.state ∈ livedStates) ∧
    ∀ now labId,
      (∀ command requester,
        Succeeds env (runFrom env s₀ actions) (.createRun labId command requester) now [] ↔
        ∃ lab, (runFrom env s₀ actions).store.labs.get? labId = some lab) ∧
      (∀ job command, SchedulerService.nextJob (runFrom env s₀ actions).store now = some job →
        job.action = .startRun → job.labId = some labId → job.command = some command →
        ((∃ row s', answer env (runFrom env s₀ actions) .dispatchNextSchedulerJob now [] = .ok (.job row) s' ∧
          row.state = .succeeded) ↔ ∃ lab, (runFrom env s₀ actions).store.labs.get? labId = some lab)) ∧
      ∀ secretName requester ttlMinutes,
        (Succeeds env (runFrom env s₀ actions)
          (.createSecretLease labId secretName requester ttlMinutes) now [] ↔
          ∃ lab, (runFrom env s₀ actions).store.labs.get? labId = some lab ∧
            LeaseAllowed env secretName ttlMinutes lab) := by
  have hs := sound_of_run h₀ actions
  refine ⟨fun lab hlab => ?_,
    fun now labId => ⟨fun command requester => ?_, ?_, fun secretName requester ttl => ?_⟩⟩
  · exact lived_of_run h₀ actions lab.id lab (Table.get?_of_mem hlab)
  · exact respond_createRun_iff hs rfl
  · exact fun job command hnext haction hlab hcommand =>
      respond_dispatch_iff hs rfl hnext haction hlab hcommand
  · exact respond_createSecretLease_iff hs rfl

/-- A run is accepted for a lab that is destroyed. -/
theorem lab_use_destroyPending :
    Succeeds (symbolic defaultProfiles) (runFrom (symbolic defaultProfiles) emptyState destroyPending)
      (.createRun "a" "make" .human) 2 [] := by
  refine (((lab_use (symbolic defaultProfiles) emptyState (initial_emptyState _) destroyPending).2 2
    "a").1 "make" .human).mpr ?_
  exact Option.isSome_iff_exists.mp (by decide +kernel)

/-- **A lab that is destroyed, or waits for its approval, is used all the same.** -/
theorem destroyed_lab_used :
    ((runFrom (symbolic defaultProfiles) emptyState destroyPending).store.labs.get? "a").map LabRow.state =
      some .destroyed ∧
    Succeeds (symbolic defaultProfiles) (runFrom (symbolic defaultProfiles) emptyState destroyPending)
      (.createRun "a" "make" .human) 2 [] := by
  decide +kernel

end LabOS
