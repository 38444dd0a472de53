import LabOS.Workers.Reconciler
import Mathlib.Logic.Relation

/-!
# What a reconciliation pass does to the rows

A pass is a sequence of `Sweep`s, each the change one round of one of its loops makes.
The loops run over rows a query selected before them; `foldlM_selected` is the rule for
such a loop: a round leaves the selected rows of the rounds to come as they were.
-/

namespace LabOS

open Exceptional FileOps ReconciliationService

variable {β : Type}

/-- An approval once it has expired. -/
def expiredApproval (now : DateTime) (a : ApprovalRow) : ApprovalRow :=
  { a with state := .expired, approved := false, decidedBy := some "reconciler", decidedAt := some now.column }

/-- An export once its approval has expired. -/
def expiredExport (row : ExportRow) : ExportRow :=
  { row with state := .rejected, denialReason := some "approval request expired", approvalRequired := false }

/-- A lab after a destroy that failed. -/
def retriedLab (e : Exc) (lab : LabRow) : LabRow :=
  { lab with destroyAttempts := lab.destroyAttempts + 1, lastDestroyError := some e.text }

/-- One change a reconciliation pass at a time makes. -/
inductive Sweep (now : DateTime) : Store → Store → Prop where
  | onlyEvents {st evs} : Sweep now st { st with events := evs }
  | leaseRevoked {st lease evs} (h : st.secretLeases.get? lease.id = some lease)
      (unrevoked : lease.revokedAt = none)
      (stale : lease.expiresAt.normalize.instant ≤ now.instant) :
      Sweep now st { st with
        secretLeases := st.secretLeases.put { lease with revokedAt := some now.column }, events := evs }
  | runTimedOut {st run evs} (h : st.runs.get? run.id = some run)
      (waiting : run.state = .queued ∨ run.state = .starting ∨ run.state = .running)
        (overdue : isOverdue now run = true) :
      Sweep now st { st with
        runs := st.runs.put { run with state := .timedOut, finishedAt := some now.column }, events := evs }
  | approvalExpired {st a evs} (h : st.approvals.get? a.id = some a) (requested : a.state = .requested)
      (stale : isStale now a = true)
      (lab : a.resourceType = "lab" → ∀ lab, st.labs.get? a.resourceId = some lab →
        lab.state ≠ .pendingApproval)
      (noExport : a.resourceType = "export" → st.exports.get? a.resourceId = none) :
      Sweep now st { st with approvals := st.approvals.put (expiredApproval now a), events := evs }
  | labApprovalExpired {st a lab evs} (h : st.approvals.get? a.id = some a) (requested : a.state = .requested)
      (stale : isStale now a = true) (type : a.resourceType = "lab")
        (hlab : st.labs.get? a.resourceId = some lab)
      (pending : lab.state = .pendingApproval) :
      Sweep now st { st with
        approvals := st.approvals.put (expiredApproval now a)
        labs := st.labs.put { lab with state := .failed }, events := evs }
  | exportApprovalExpired {st a row evs} (h : st.approvals.get? a.id = some a)
      (requested : a.state = .requested)
      (stale : isStale now a = true) (type : a.resourceType = "export")
      (hrow : st.exports.get? a.resourceId = some row) :
      Sweep now st { st with
        approvals := st.approvals.put (expiredApproval now a)
        exports := st.exports.put (expiredExport row), events := evs }
  /-- A destroy is given up, or a lab has lost its storage. -/
  | labFailed {st lab lab' evs} (h : st.labs.get? lab.id = some lab) (alive : lab.state ≠ .destroyed)
      (id : lab'.id = lab.id) (profile : lab'.profileName = lab.profileName)
      (runtime : lab'.runtimeClass = lab.runtimeClass) (state : lab'.state = .failed) :
      Sweep now st { st with labs := st.labs.put lab', events := evs }
  /-- A destroy is tried again, and fails or succeeds. -/
  | labRetried {st lab lab' evs} (h : st.labs.get? lab.id = some lab) (destroying : lab.state = .destroying)
      (id : lab'.id = lab.id) (profile : lab'.profileName = lab.profileName)
      (runtime : lab'.runtimeClass = lab.runtimeClass)
        (state : lab'.state = .destroying ∨ lab'.state = .destroyed) :
      Sweep now st { st with labs := st.labs.put lab', events := evs }

/-- The changes of a pass, one after another. -/
abbrev Sweeps (now : DateTime) : Store → Store → Prop := Relation.ReflTransGen (Sweep now)

/-! ### Loops -/

section Loops

variable {γ ρ : Type} {key : ρ → String} {now : DateTime}

/-- **A loop over selected rows**: when each round changes no row of the table but its
own, every round finds its row as it was selected. -/
theorem foldlM_selected {R : Store → Store → Prop} (hrefl : ∀ st, R st st)
    (htrans : ∀ {st₁ st₂ st₃}, R st₁ st₂ → R st₂ st₃ → R st₁ st₃) (m : Mapped key) {P : ρ → Prop}
    {round : γ → ρ → SessionM β γ}
    (h : ∀ acc acc' r s s', P r → (m.table s.store).get? (key r) = some r → round acc r s = .ok acc' s' →
      R s.store s'.store ∧ ∀ k, k ≠ key r → (m.table s'.store).get? k = (m.table s.store).get? k)
    {rows : List ρ} (hnodup : (rows.map key).Nodup) {acc acc' : γ} {s s' : Session β}
    (hrows : ∀ r ∈ rows, P r ∧ (m.table s.store).get? (key r) = some r)
    (hrun : rows.foldlM round acc s = .ok acc' s') : R s.store s'.store := by
  refine foldlM_relates_of (R := fun s s' : Session β => R s.store s'.store)
    (Q := fun s r => P r ∧ (m.table s.store).get? (key r) = some r) (D := fun r r' => key r ≠ key r')
    (fun s => hrefl s.store) htrans (fun acc acc' r s s' hr hok => ?_)
      (List.pairwise_map.mp hnodup) hrows hrun
  obtain ⟨hround, hothers⟩ := h acc acc' r s s' hr.1 hr.2 hok
  exact ⟨hround, fun r' hne hr' => ⟨hr'.1, (hothers _ hne.symm).trans hr'.2⟩⟩

/-- The rows of a query pass its test and stand in the table it was made of. -/
theorem get?_of_mem_select {t : Table key} {p : ρ → Bool} {le : ρ → ρ → Prop} [DecidableRel le] {r : ρ}
    (h : r ∈ t.select p le) : p r = true ∧ t.get? (key r) = some r :=
  ⟨(Table.mem_select.mp h).2, Table.get?_of_mem (Table.mem_select.mp h).1⟩

end Loops

/-! ### The rounds -/

variable {now : DateTime} {s s' : Session β} {report report' : ReconciliationReport}

theorem expireApproval_eq_ok {a : ApprovalRow} (hreq : a.state = .requested)
    (ha : s.store.approvals.get? a.id = some a) (h : expireApproval now report a s = .ok report' s') :
    Sweeps now s.store s'.store ∧ ∀ k, k ≠ a.id → s'.store.approvals.get? k = s.store.approvals.get? k := by
  unfold expireApproval at h
  split at h
  · next hstale =>
    simp only [bind_eq_ok, setRow_eq_ok, recordEvent_eq_ok, pure_eq_ok] at h
    obtain ⟨_, _, rfl, _, s₂, h₂, _, _, rfl, -, rfl⟩ := h
    unfold expireResource at h₂
    split at h₂
    · next htype =>
      simp only [bind_eq_ok, getRow_eq_ok] at h₂
      obtain ⟨lab, _, ⟨hlab, rfl⟩, h₂⟩ := h₂
      cases lab with
      | some lab =>
        rcases whenever_eq_ok.mp h₂ with ⟨hp, h₂⟩ | ⟨hp, rfl⟩
        · obtain rfl := setRow_eq_ok.mp h₂
          refine ⟨.single (.labApprovalExpired ha hreq hstale htype hlab (by simpa using hp)), fun k hk => ?_⟩
          exact Table.get?_put_ne hk
        · refine ⟨.single (.approvalExpired ha hreq hstale (fun _ l hl => ?_) (by simp [htype])),
            fun k hk => ?_⟩
          · obtain rfl := Option.some.inj (hlab.symm.trans hl)
            simpa using hp
          · exact Table.get?_put_ne hk
      | none =>
        obtain ⟨-, rfl⟩ := pure_eq_ok.mp h₂
        refine ⟨.single (.approvalExpired ha hreq hstale (fun _ l hl => ?_) (by simp [htype])),
          fun k hk => ?_⟩
        · exact absurd (hlab.symm.trans hl) (by simp)
        · exact Table.get?_put_ne hk
    · next hlab =>
      split at h₂
      · next htype =>
        simp only [bind_eq_ok, getRow_eq_ok] at h₂
        obtain ⟨row, _, ⟨hrow, rfl⟩, h₂⟩ := h₂
        cases row with
        | some row =>
          obtain rfl := setRow_eq_ok.mp h₂
          exact ⟨.single (.exportApprovalExpired ha hreq hstale htype hrow), fun k hk => Table.get?_put_ne hk⟩
        | none =>
          obtain ⟨-, rfl⟩ := pure_eq_ok.mp h₂
          refine ⟨.single (.approvalExpired ha hreq hstale (fun ht => absurd ht hlab) fun _ => hrow),
            fun k hk => ?_⟩
          exact Table.get?_put_ne hk
      · next hexport =>
        obtain ⟨-, rfl⟩ := pure_eq_ok.mp h₂
        refine ⟨.single (.approvalExpired ha hreq hstale (fun ht => absurd ht hlab) fun ht =>
          absurd ht hexport), ?_⟩
        exact fun k hk => Table.get?_put_ne hk
  · obtain ⟨-, rfl⟩ := pure_eq_ok.mp h
    exact ⟨.refl, fun _ _ => rfl⟩

theorem expireStaleApprovals_sweeps (h : expireStaleApprovals now report s = .ok report' s') :
    Sweeps now s.store s'.store := by
  unfold expireStaleApprovals at h
  simp only [bind_eq_ok, get_eq_ok] at h
  obtain ⟨_, _, ⟨rfl, rfl⟩, h⟩ := h
  refine foldlM_selected (fun _ => .refl) .trans .approvals
    (fun _ _ a _ _ hp ha h => expireApproval_eq_ok ?_ ha h)
    (Table.nodup_select _ _ _)
    (fun _ ha => get?_of_mem_select ha) h
  simp only [Bool.and_eq_true, decide_eq_true_eq] at hp
  exact hp.1

theorem revokeExpiredSecretLeases_sweeps (h : revokeExpiredSecretLeases now report s = .ok report' s') :
    Sweeps now s.store s'.store := by
  unfold revokeExpiredSecretLeases at h
  simp only [bind_eq_ok, get_eq_ok] at h
  obtain ⟨_, _, ⟨rfl, rfl⟩, h⟩ := h
  refine foldlM_selected (fun _ => .refl) .trans .secretLeases (fun _ _ lease s s' hp hlease h => ?_)
    (Table.nodup_select _ _ _)
    (fun _ hl => get?_of_mem_select hl) h
  unfold revokeExpired at h
  split at h
  · next hstale =>
    simp only [bind_eq_ok, setRow_eq_ok, recordEvent_eq_ok, pure_eq_ok] at h
    obtain ⟨_, _, rfl, _, _, rfl, -, rfl⟩ := h
    exact ⟨.single (.leaseRevoked hlease (by simpa using hp) hstale), fun k hk => Table.get?_put_ne hk⟩
  · obtain ⟨-, rfl⟩ := pure_eq_ok.mp h
    exact ⟨.refl, fun _ _ => rfl⟩

theorem timeoutOverdueRuns_sweeps (h : timeoutOverdueRuns now report s = .ok report' s') :
    Sweeps now s.store s'.store := by
  unfold timeoutOverdueRuns at h
  simp only [bind_eq_ok, get_eq_ok] at h
  obtain ⟨_, _, ⟨rfl, rfl⟩, h⟩ := h
  refine foldlM_selected (fun _ => .refl) .trans .runs (fun _ _ run s s' hp hrun h => ?_)
    (Table.nodup_select _ _ _)
    (fun _ hr => get?_of_mem_select hr) h
  unfold timeoutRun at h
  split at h
  · next hover =>
    simp only [bind_eq_ok, setRow_eq_ok, recordEvent_eq_ok, pure_eq_ok] at h
    obtain ⟨_, _, rfl, _, _, rfl, -, rfl⟩ := h
    have hwaiting : run.state = .queued ∨ run.state = .starting ∨ run.state = .running := by
      simp only [Bool.and_eq_true, Bool.or_eq_true, decide_eq_true_eq] at hp
      rcases hp.1 with (h | h) | h <;> simp [h]
    exact ⟨.single (.runTimedOut hrun hwaiting hover), fun k hk => Table.get?_put_ne hk⟩
  · obtain ⟨-, rfl⟩ := pure_eq_ok.mp h
    exact ⟨.refl, fun _ _ => rfl⟩

/-- A lab whose destroy is retried is destroying, and afterwards destroying, destroyed or failed. -/
theorem retryDestroy_eq_ok {service : Reconciler β} {destroyer : StorageAllocation → DiskM β Unit}
    {storageOf : String → Option LabStorageRow} {lab : LabRow} (hstate : lab.state = .destroying)
    (hlab : s.store.labs.get? lab.id = some lab)
    (h : retryDestroy service destroyer storageOf report lab s = .ok report' s') :
    Sweeps now s.store s'.store ∧ ∀ k, k ≠ lab.id → s'.store.labs.get? k = s.store.labs.get? k := by
  have halive : lab.state ≠ .destroyed := by simp [hstate]
  unfold retryDestroy at h
  cases hstorage : storageOf lab.id with
  | none =>
    simp only [hstorage, failDestroy, bind_eq_ok, setRow_eq_ok, recordEvent_eq_ok, pure_eq_ok] at h
    obtain ⟨_, _, rfl, _, _, rfl, -, rfl⟩ := h
    exact ⟨.single (.labFailed hlab halive rfl rfl rfl rfl), fun k hk => Table.get?_put_ne hk⟩
  | some storageRow =>
    rw [hstorage] at h
    obtain ⟨outcome, s₁, h₁, h⟩ := bind_eq_ok.mp h
    have hs₁ : s₁.store = s.store := by
      rcases attempt_eq_ok.mp h₁ with ⟨_, -, h₁⟩ | ⟨_, -, h₁⟩
      · obtain ⟨d, -, rfl⟩ := onDisk_eq_ok.mp h₁
        rfl
      · exact store_of_onDisk_error h₁
    rw [← hs₁] at hlab ⊢
    cases outcome with
    | error e =>
      simp only [bind_eq_ok, setRow_eq_ok, recordEvent_eq_ok] at h
      obtain ⟨_, s₂, rfl, _, s₃, hs₃, h⟩ := h
      -- the attempt is written first; when it was the last, the lab is failed on top of it
      have hretry : Sweep now s₁.store s₃.store := by
        rw [← hs₃]
        exact .labRetried hlab hstate rfl rfl rfl (.inl hstate)
      have hrow : s₃.store.labs.get? (retriedLab e lab).id = some (retriedLab e lab) := by
        rw [← hs₃]
        exact Table.get?_put_self _ _
      have hother : ∀ k, k ≠ lab.id → s₃.store.labs.get? k = s₁.store.labs.get? k := by
        rw [← hs₃]
        exact fun k hk => Table.get?_put_ne hk
      split at h
      · simp only [failDestroy, bind_eq_ok, setRow_eq_ok, recordEvent_eq_ok, pure_eq_ok] at h
        obtain ⟨_, _, rfl, _, _, rfl, -, rfl⟩ := h
        refine ⟨.tail (.single hretry) (.labFailed hrow (by simp [retriedLab, hstate]) rfl rfl rfl rfl), ?_⟩
        intro k hk
        rw [← hother k hk]
        exact Table.get?_put_ne hk
      · obtain ⟨-, rfl⟩ := pure_eq_ok.mp h
        exact ⟨.single hretry, hother⟩
    | ok u =>
      simp only [bind_eq_ok, setRow_eq_ok, recordEvent_eq_ok, pure_eq_ok] at h
      obtain ⟨_, _, rfl, _, _, rfl, -, rfl⟩ := h
      exact ⟨.single (.labRetried hlab hstate rfl rfl rfl (.inr rfl)), fun k hk => Table.get?_put_ne hk⟩

theorem retryDestroyingLabs_sweeps {service : Reconciler β} {storageOf : String → Option LabStorageRow}
    (h : retryDestroyingLabs service storageOf report s = .ok report' s') : Sweeps now s.store s'.store := by
  unfold retryDestroyingLabs at h
  cases hd : service.storageDestroyer with
  | none =>
    rw [hd] at h
    obtain ⟨-, rfl⟩ := pure_eq_ok.mp h
    exact .refl
  | some destroyer =>
    simp only [hd, bind_eq_ok, get_eq_ok] at h
    obtain ⟨_, _, ⟨rfl, rfl⟩, h⟩ := h
    exact foldlM_selected (fun _ => .refl) .trans .labs
      (fun _ _ _ _ _ hp hlab h => retryDestroy_eq_ok (by simpa using hp) hlab h)
      (Table.nodup_select _ _ _) (fun _ hl => get?_of_mem_select hl) h

theorem checkStorage_eq_ok {storageOf : String → Option LabStorageRow} {labId : String}
    (h : checkStorage storageOf report labId s = .ok report' s') : Sweeps now s.store s'.store := by
  unfold checkStorage at h
  simp only [bind_eq_ok, getRow_eq_ok] at h
  obtain ⟨lab, _, ⟨hlab, rfl⟩, h⟩ := h
  cases lab with
  | none =>
    obtain ⟨-, rfl⟩ := pure_eq_ok.mp h
    exact .refl
  | some lab =>
    dsimp only at h
    split at h
    · obtain ⟨-, rfl⟩ := pure_eq_ok.mp h
      exact .refl
    · next halive =>
      obtain ⟨reason, s₁, h₁, h⟩ := bind_eq_ok.mp h
      obtain ⟨d, -, rfl⟩ := onDisk_eq_ok.mp h₁
      cases reason with
      | none =>
        obtain ⟨-, rfl⟩ := pure_eq_ok.mp h
        exact .refl
      | some reason =>
        simp only [bind_eq_ok, setRow_eq_ok, recordEvent_eq_ok, pure_eq_ok] at h
        obtain ⟨_, _, rfl, _, _, rfl, -, rfl⟩ := h
        have hid : lab.id = labId := Table.key_of_get? hlab
        exact .single (.labFailed (hid ▸ hlab) halive rfl rfl rfl rfl)

theorem inspect_eq_ok {inspection : LabInspection} (h : inspect report inspection s = .ok report' s') :
    Sweeps now s.store s'.store := by
  unfold inspect at h
  simp only [bind_eq_ok, getRow_eq_ok] at h
  obtain ⟨lab, _, ⟨-, rfl⟩, h⟩ := h
  cases lab with
  | none =>
    simp only [bind_eq_ok, recordEvent_eq_ok, pure_eq_ok] at h
    obtain ⟨_, _, rfl, -, rfl⟩ := h
    exact .single .onlyEvents
  | some lab =>
    dsimp only at h
    split at h
    · simp only [bind_eq_ok, recordEvent_eq_ok, pure_eq_ok] at h
      obtain ⟨_, _, rfl, -, rfl⟩ := h
      exact .single .onlyEvents
    · obtain ⟨-, rfl⟩ := pure_eq_ok.mp h
      exact .refl

/-- **A pass makes sweeps and nothing else.** -/
theorem reconcile_sweeps {service : Reconciler β} (h : reconcile service now s = .ok report s') :
    Sweeps now.normalize s.store s'.store := by
  simp only [reconcile, bind_eq_ok, get_eq_ok, pure_eq_ok] at h
  obtain ⟨_, _, ⟨rfl, rfl⟩, _, s₁, h₁, _, s₂, h₂, _, s₃, h₃, _, s₄, h₄, _, s₅, h₅, _, s₆, h₆, -, rfl⟩ := h
  have hstorage : Sweeps now.normalize s₄.store s₅.store :=
    foldlM_relates (R := fun s s' : Session β => Sweeps now.normalize s.store s'.store)
      (fun _ => .refl) .trans
      (fun _ _ _ _ _ => checkStorage_eq_ok) h₅
  have hruntime : Sweeps now.normalize s₅.store s₆.store :=
    foldlM_relates (R := fun s s' : Session β => Sweeps now.normalize s.store s'.store)
      (fun _ => .refl) .trans
      (fun _ _ _ _ _ => inspect_eq_ok) h₆
  exact (expireStaleApprovals_sweeps h₁).trans <| (revokeExpiredSecretLeases_sweeps h₂).trans <|
    (timeoutOverdueRuns_sweeps h₃).trans <| (retryDestroyingLabs_sweeps h₄).trans <| hstorage.trans hruntime

end LabOS
