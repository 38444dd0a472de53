import LabOS.System.Commits
import LabOS.System.PassRows
import LabOS.System.Symbolic

/-!
# The expiry of approvals

Two places find that the time of a pending approval is up: a request that would decide on it, and a pass of
the reconciler. They agree on when. Both write the expiry into the row; but the request raises
after it has, and its session takes the row back.

## What is proved

* `answersExpired_iff` — a request to decide on a pending approval is answered that it has expired exactly
  when a pass at that time would expire it.
* `expiry_recorded_iff` — **and the row then stored is that of an expired approval exactly when** the time
  is not up: never where it matters.

## Where the code parts from itself

`expiry_forgotten`: a request is answered that the approval has expired, and the approval is still pending.
-/

namespace LabOS

open Exceptional ReconciliationService

variable {β : Type} [Content β] {env : Environment β} {decision : App.Decision} {approvalId actor : String}
  {comment : Option String} {t : ℤ} {a : ApprovalRow}

/-- The answer that an approval has expired. -/
def requestExpired : Exc := .conflict "approval_request_expired" "approval"

/-- A request to decide on an approval, at `t`, is answered that it has expired. -/
def AnswersExpired (env : Environment β) (s : State β) (decision : App.Decision) (approvalId actor : String)
    (comment : Option String) (t : ℤ) (fates : List Fate) : Prop :=
  ∃ s', answer env s (decisionRequest decision approvalId actor comment) t fates = .error requestExpired s'

/-- The approval is stored as one that expired at `t`. -/
def StoredExpired (st : Store) (approvalId : String) (t : ℤ) : Prop :=
  ∃ row, st.approvals.get? approvalId = some row ∧ row.state = .expired ∧ row.approved = false ∧
    row.decidedAt = some (DateTime.utc t).column

/-- A pass at `t` expires the approval. -/
def PassExpires (service : Reconciler β) (s : Session β) (approvalId : String) (t : ℤ) : Prop :=
  ∃ report s', reconcile service (.utc t) s = .ok report s' ∧ StoredExpired s'.store approvalId t

/-! ### The pass -/

omit [Content β] in
/-- **A pass expires** a pending approval whose time has come by then, and records when. -/
theorem passExpires_iff {service : Reconciler β} {s : Session β}
    (ha : s.store.approvals.get? approvalId = some a) (hpending : a.state = .requested) :
    PassExpires service s approvalId t ↔ App.isExpired t a = true := by
  have hrun := reconcile_eq service (.utc t) s
  have hexpires : expires (.utc t) a = App.isExpired t a := by
    have hinstant : (DateTime.utc t).instant = t := Int.sub_zero t
    cases hexpiresAt : a.expiresAt with
    | none => simp [expires, isStale, App.isExpired, hexpiresAt]
    | some expiresAt => simp [expires, hpending, isStale, App.isExpired, hexpiresAt, hinstant]
  have hrow := get?_approvals service (DateTime.utc t).normalize s approvalId
  have hnormal : expires (DateTime.utc t).normalize a = expires (.utc t) a := rfl
  rw [ha, Option.map_some, hnormal, hexpires] at hrow
  constructor
  · rintro ⟨_, _, hrun', row, hget, hstate, -⟩
    obtain ⟨rfl, rfl⟩ := EStateM.Result.ok.inj (hrun.symm.trans hrun')
    obtain rfl := Option.some.inj (hrow.symm.trans hget)
    by_contra hnot
    rw [if_neg hnot, hpending] at hstate
    cases hstate
  · intro hexpired
    rw [if_pos hexpired] at hrow
    exact ⟨_, _, hrun, _, hrow, rfl, rfl, rfl⟩

/-! ### The request -/

omit [Content β] in
theorem decideRequest_of_expired {s : Session β} (ha : s.store.approvals.get? approvalId = some a)
    (hpending : a.state = .requested) (hexpired : App.isExpired t a = true) :
    ∃ s₁, App.decideRequest t decision approvalId actor comment s = .error requestExpired s₁ := by
  have hensure : ∃ s₁, App.ensureApprovalPending t a s = .error requestExpired s₁ := by
    unfold App.ensureApprovalPending
    rw [raiseIf, if_neg (by simp [hpending]), hexpired]
    exact ⟨_, rfl⟩
  obtain ⟨s₁, hensure⟩ := hensure
  refine ⟨s₁, bind_eq_error.mpr (.inr ⟨a, s, getOr_eq_ok.mpr ⟨ha, rfl⟩, bind_eq_error.mpr (.inl ?_)⟩)⟩
  exact bind_eq_error.mpr (.inl hensure)

omit [Content β] in
theorem decideResource_raises {s s' : Session β} :
    ¬ App.decideResource a decision comment s = .error requestExpired s' := by
  intro h
  unfold App.decideResource at h
  split at h
  · simp [bind_eq_error, requestExpired] at h
  · split at h
    · simp [bind_eq_error, requestExpired] at h
    · exact pure_eq_error h

omit [Content β] in
/-- What else a decision raises is not that the approval has expired. -/
theorem isExpired_of_decideRequest {s s' : Session β} (ha : s.store.approvals.get? approvalId = some a)
    (h : App.decideRequest t decision approvalId actor comment s = .error requestExpired s') :
    App.isExpired t a = true := by
  by_contra hnot
  unfold App.decideRequest at h
  rcases bind_eq_error.mp h with hget | ⟨_, s₀, hget, hrest⟩
  · rw [getOr_eq_error, ha] at hget
    cases hget.1
  obtain ⟨hrow, rfl⟩ := getOr_eq_ok.mp hget
  obtain rfl := Option.some.inj (ha.symm.trans hrow)
  rcases bind_eq_error.mp hrest with happly | ⟨_, _, -, hlast⟩
  · unfold App.applyApprovalDecision at happly
    rcases bind_eq_error.mp happly with hpending | ⟨_, s₁, -, hdecide⟩
    · simp only [App.ensureApprovalPending, bind_eq_error, raiseIf_eq_error, whenever_eq_error] at hpending
      rcases hpending with ⟨-, hother, -⟩ | ⟨_, _, -, hexpired, -⟩
      · exact absurd hother (by decide)
      · exact hnot hexpired
    · simp only [bind_eq_error, raiseIf_eq_error, raiseIf_eq_ok, setRow_eq_error, setRow_eq_ok, pure_eq_error,
        and_false, exists_false, or_false, false_or] at hdecide
      rcases hdecide with ⟨-, hother, -⟩ | ⟨_, _, -, _, _, -, hresource⟩
      · exact absurd hother (by decide)
      · exact decideResource_raises hresource
  · simp only [bind_eq_error, recordEvent_eq_error, pure_eq_error, and_false, exists_false, or_false] at hlast

/-- **A request is answered that the approval has expired** exactly when a pass at that time would expire
it. -/
theorem answersExpired_iff {s : State β} {fates : List Fate} {service : Reconciler β}
    (ha : s.store.approvals.get? approvalId = some a) (hpending : a.state = .requested) :
    AnswersExpired env s decision approvalId actor comment t fates ↔
      PassExpires service (s.session fates) approvalId t := by
  rw [passExpires_iff (s := s.session fates) ha hpending]
  constructor
  · rintro ⟨s', h⟩
    obtain ⟨-, hother | hother | ⟨s₁, hbody⟩⟩ := decision_eq_error h
    · cases hother
    · cases hother
    · exact isExpired_of_decideRequest (s := s.session fates) ha hbody
  · intro hexpired
    have hbody : ∃ s₁, App.decideRequest t decision approvalId actor comment (s.session fates) =
        .error requestExpired s₁ := decideRequest_of_expired ha hpending hexpired
    obtain ⟨s₁, hbody⟩ := hbody
    have hblock := withSession_of_error hbody
    cases decision
    all_goals exact ⟨_, map_eq_error.mpr hblock⟩

/-- **A request that finds an approval expired** leaves it as it was: what it wrote is rolled back. -/
theorem store_of_answersExpired {s : State β} {fates : List Fate}
    (h : AnswersExpired env s decision approvalId actor comment t fates) :
    (step env s (.request (decisionRequest decision approvalId actor comment) t fates)).store = s.store := by
  obtain ⟨s', hanswer⟩ := h
  have hstep : (step env s (.request (decisionRequest decision approvalId actor comment) t fates)).store =
      s'.store :=
    congrArg (fun x => (endState x).store) hanswer
  rw [hstep, (decision_eq_error hanswer).1]

/-- **The expiry of an approval is found and recorded as a pass would exactly when its time is not up.**
Whatever the state, the pending approval in it and the reconciler: a request at `t` to decide on the
approval is answered that it has expired exactly when a pass at `t` expires it, and then stores what the
pass would, if and only if the approval has no expiry, or a later one. -/
theorem expiry_recorded_iff (env : Environment β) (s : State β) (approvalId : String) (a : ApprovalRow)
    (ha : s.store.approvals.get? approvalId = some a) (hpending : a.state = .requested)
    (service : Reconciler β) (decision : App.Decision) (actor : String) (comment : Option String) (t : ℤ)
    (fates : List Fate) : ((AnswersExpired env s decision approvalId actor comment t fates ↔
        PassExpires service (s.session fates) approvalId t) ∧
      (AnswersExpired env s decision approvalId actor comment t fates →
        StoredExpired (step env s
          (.request (decisionRequest decision approvalId actor comment) t fates)).store
          approvalId t)) ↔
      ∀ expiresAt, a.expiresAt = some expiresAt → t < expiresAt.normalize.instant := by
  have hagree : AnswersExpired env s decision approvalId actor comment t fates ↔
      PassExpires service (s.session fates) approvalId t := answersExpired_iff ha hpending
  have htime : App.isExpired t a = true ↔
      ¬ ∀ expiresAt, a.expiresAt = some expiresAt → t < expiresAt.normalize.instant := by
    unfold App.isExpired
    cases a.expiresAt <;> simp
  have hexpires := hagree.trans (passExpires_iff (s := s.session fates) ha hpending)
  constructor
  · rintro ⟨-, hstored⟩
    by_contra hup
    have hanswer := hexpires.mpr (htime.mpr hup)
    obtain ⟨row, hrow, hstate, -⟩ := hstored hanswer
    rw [store_of_answersExpired hanswer, ha] at hrow
    obtain rfl := Option.some.inj hrow
    exact absurd (hpending.symm.trans hstate) (by decide)
  · intro hlater
    exact ⟨hagree, fun hanswer => absurd hlater (htime.mp (hexpires.mp hanswer))⟩

/-- A lab that awaits an approval. -/
def awaitingRun : List (Action Blob) := [.request (.createLab "red-zone" .human) 0 []]

theorem approval_awaitingRun :
    ∃ a, (runFrom (symbolic defaultProfiles) emptyState awaitingRun).store.approvals.get? "aa" = some a ∧
      a.state = .requested ∧ App.isExpired 1 a = false ∧ App.isExpired 1000000000000 a = true := by
  have hrow : ((runFrom (symbolic defaultProfiles) emptyState awaitingRun).store.approvals.get? "aa").any
      (fun a => a.state = .requested && !App.isExpired 1 a && App.isExpired 1000000000000 a) = true := by
    decide +kernel
  obtain ⟨a, ha, hrow⟩ := (Option.any_eq_true ..).mp hrow
  simp only [Bool.and_eq_true, decide_eq_true_eq, Bool.not_eq_true'] at hrow
  exact ⟨a, ha, hrow.1.1, hrow.1.2, hrow.2⟩

/-- Right after it was asked for, neither the request nor the pass finds the approval expired. -/
theorem expiry_recorded_iff_awaitingRun :
    AnswersExpired (symbolic defaultProfiles)
      (runFrom (symbolic defaultProfiles) emptyState awaitingRun) .approved
        "aa" "alice" none 1 [] ↔
      PassExpires (reconciler (symbolic defaultProfiles) none false 3)
        ((runFrom (symbolic defaultProfiles) emptyState awaitingRun).session []) "aa" 1 := by
  obtain ⟨a, ha, hpending, hearly, -⟩ := approval_awaitingRun
  refine ((expiry_recorded_iff (symbolic defaultProfiles) _ "aa" a ha hpending
    (reconciler (symbolic defaultProfiles) none false 3) .approved "alice" none 1 []).mpr ?_).1
  intro expiresAt hexpiry
  simpa [App.isExpired, hexpiry] using hearly

/-- **The expiry is forgotten**: long after, the request is answered that the approval has expired, as a
pass would find, and the approval is still pending. -/
theorem expiry_forgotten :
    AnswersExpired (symbolic defaultProfiles)
      (runFrom (symbolic defaultProfiles) emptyState awaitingRun) .approved
        "aa" "alice" none 1000000000000 [] ∧
      PassExpires (reconciler (symbolic defaultProfiles) none false 3)
        ((runFrom (symbolic defaultProfiles) emptyState awaitingRun).session []) "aa" 1000000000000 ∧
      ∃ row, (step (symbolic defaultProfiles) (runFrom (symbolic defaultProfiles) emptyState awaitingRun)
          (.request (.approveRequest "aa" "alice" none) 1000000000000 [])).store.approvals.get?
            "aa" = some row ∧
        row.state = .requested := by
  obtain ⟨a, ha, hpending, -, hlate⟩ := approval_awaitingRun
  have hpass : PassExpires (reconciler (symbolic defaultProfiles) none false 3)
      ((runFrom (symbolic defaultProfiles) emptyState awaitingRun).session []) "aa" 1000000000000 :=
    (passExpires_iff (s := (runFrom (symbolic defaultProfiles) emptyState awaitingRun).session []) ha
      hpending).mpr hlate
  have hanswer : AnswersExpired (symbolic defaultProfiles)
      (runFrom (symbolic defaultProfiles) emptyState awaitingRun) .approved "aa" "alice" none
        1000000000000 [] :=
    (answersExpired_iff ha hpending).mpr hpass
  refine ⟨hanswer, hpass, a, ?_, hpending⟩
  rw [show (.approveRequest "aa" "alice" none : Request Blob) =
    decisionRequest .approved "aa" "alice" none from rfl,
    store_of_answersExpired hanswer]
  exact ha

end LabOS
