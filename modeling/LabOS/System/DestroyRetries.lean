import LabOS.Library.Runs
import LabOS.System.Audit

/-!
# Destroys that are tried again

A pass tries again to destroy the labs that are destroying, and then checks the storage
of every lab that is not destroyed. A destroyer that raises may have removed the root of
its lab all the same; the check then fails a lab that has attempts left, and reports one
that has none a second time.

## What is proved

* `destroy_retries` — when exactly a lab that is destroying has **one outcome in a pass**,
  and that over passes a lab whose destroy always fails is tried as often as the budget
  allows; `vanished_root_fails` is a lab that is failed with attempts left.
-/

namespace LabOS

open Exceptional FileOps FileTree

variable {β : Type}

namespace ReconciliationService

/-! ### One attempt -/

section Attempt

variable {service : Reconciler β} {now : DateTime} {s : Session β}

/-- The attempts of a list of labs, each on the disk the ones before it left. -/
theorem mem_tryAll {destroyer : StorageAllocation → DiskM β Unit} {storageOf : String → Option LabStorageRow}
    {labs : List LabRow} {d : Disk β} {attempt : LabRow × DestroyOutcome}
    (h : attempt ∈ (tryAll destroyer storageOf labs d).1) :
    ∃ d, attempt.2 = (tryDestroy destroyer (storageOf attempt.1.id) attempt.1.id d).1 := by
  induction labs generalizing d with
  | nil => cases h
  | cons lab labs ih =>
    rcases List.mem_cons.mp h with rfl | h
    · exact ⟨d, rfl⟩
    · exact ih h

/-- An attempt finds no storage row exactly when there is none. -/
theorem noStorage_of_mem_attempts {attempt : LabRow × DestroyOutcome}
    (h : attempt ∈ (attempts service now s).1) :
    s.store.labStorage.get? attempt.1.id = none ∧ attempt.2 = .noStorage ∨
      ∃ storage, s.store.labStorage.get? attempt.1.id = some storage ∧
        (attempt.2 = .succeeded ∨ ∃ e, attempt.2 = .raised e) := by
  unfold attempts at h
  cases hd : service.storageDestroyer with
  | none =>
    rw [hd] at h
    cases h
  | some destroyer =>
    rw [hd] at h
    obtain ⟨d, hd⟩ := mem_tryAll h
    cases hstorage : s.store.labStorage.get? attempt.1.id with
    | none =>
      rw [hstorage] at hd
      exact .inl ⟨rfl, hd⟩
    | some storage =>
      rw [hstorage] at hd
      refine .inr ⟨storage, rfl, ?_⟩
      unfold tryDestroy at hd
      cases hrun : destroyStorage destroyer storage attempt.1.id d with
      | ok u d' =>
        simp only [hrun] at hd
        exact .inl hd
      | error e d' =>
        simp only [hrun] at hd
        exact .inr ⟨e, hd⟩

/-- With a destroyer, every lab that is destroying is tried. -/
theorem exists_attempt (now : DateTime) (hd : service.storageDestroyer.isSome = true) {lab : LabRow}
    (hlab : s.store.labs.get? lab.id = some lab) (hstate : lab.state = .destroying) :
    ∃ outcome, (lab, outcome) ∈ (attempts service now s).1 := by
  have hmem : lab ∈ (attempts service now s).1.map Prod.fst := by
    rw [map_fst_attempts, if_pos hd]
    exact mem_destroyingLabs.mpr ⟨hlab, hstate⟩
  obtain ⟨⟨_, outcome⟩, h, rfl⟩ := List.mem_map.mp hmem
  exact ⟨outcome, h⟩

/-- A lab is tried once. -/
theorem attempt_unique {x y : LabRow × DestroyOutcome} (hx : x ∈ (attempts service now s).1)
    (hy : y ∈ (attempts service now s).1) (hid : x.1.id = y.1.id) : x = y :=
  List.inj_on_of_nodup_map nodup_attempts hx hy hid

/-- Is the storage of the lab missing once it was tried? -/
def isLost (service : Reconciler β) (now : DateTime) (s : Session β)
    (attempt : LabRow × DestroyOutcome) : Bool :=
  (lossOf s.store.labStorage.get? (attempts service now s).2.tree
    (settledLab service.maxDestroyAttempts attempt)).isSome

variable {attempt : LabRow × DestroyOutcome} (h : attempt ∈ (attempts service now s).1)
include h

/-- What a pass makes of a lab whose destroy it tries. -/
theorem get?_labs_of_attempt : (pass service now s).store.labs.get? attempt.1.id = some
    (if isLost service now s attempt then failedLab (settledLab service.maxDestroyAttempts attempt)
      else settledLab service.maxDestroyAttempts attempt) := by
  rw [get?_labs, get?_retried_of_mem h]
  rfl

/-- The ids of the attempts of one kind. -/
theorem mem_ids_filter {p : LabRow × DestroyOutcome → Bool} :
    attempt.1.id ∈ ((attempts service now s).1.filter p).map (fun x => x.1.id) ↔ p attempt = true := by
  constructor
  · intro hmem
    obtain ⟨x, hx, hid⟩ := List.mem_map.mp hmem
    obtain ⟨hx, hp⟩ := List.mem_filter.mp hx
    rwa [attempt_unique hx h hid] at hp
  · exact fun hp => List.mem_map.mpr ⟨attempt, List.mem_filter.mpr ⟨h, hp⟩, rfl⟩

theorem mem_destroyedLabIds : attempt.1.id ∈ (passReport service now s).destroyedLabIds ↔
    isDestroyed attempt = true :=
  (List.mem_insertionSort _).trans (mem_ids_filter h)

theorem mem_failedDestroyLabIds : attempt.1.id ∈ (passReport service now s).failedDestroyLabIds ↔
    isGivenUp service.maxDestroyAttempts attempt = true :=
  (List.mem_insertionSort _).trans (mem_ids_filter h)

theorem mem_failedLabIds : attempt.1.id ∈ (passReport service now s).failedLabIds ↔
    isLost service now s attempt = true := by
  have hretried := get?_retried_of_mem h
  refine (List.mem_insertionSort _).trans ?_
  constructor
  · intro hmem
    obtain ⟨x, hx, hid⟩ := List.mem_map.mp hmem
    obtain ⟨-, hlab, hloss⟩ := mem_lostLabs.mp hx
    rw [hid, hretried] at hlab
    unfold isLost
    rw [Option.some.inj hlab, hloss]
    rfl
  · intro hlost
    obtain ⟨reason, hloss⟩ := Option.isSome_iff_exists.mp hlost
    refine List.mem_map.mpr ⟨(settledLab service.maxDestroyAttempts attempt, reason), ?_, settledLab_id _ _⟩
    refine mem_lostLabs.mpr ⟨?_, ?_, hloss⟩
    · rw [settledLab_id, mem_labIds, (destroying_of_mem_attempts h).1]
      rfl
    · rw [settledLab_id]
      exact hretried

end Attempt

/-! ### One outcome -/

/-- What is asked of a pass for a lab whose destroy it tries: the lab ends as the attempt went and the
budget says, and the report names it once at most. -/
structure OneOutcome (maxDestroyAttempts : ℕ) (storage : Option LabStorageRow)
    (attempt : LabRow × DestroyOutcome) (report : ReconciliationReport) (lab' : LabRow) : Prop where
  destroyed : storage.isSome = true → isDestroyed attempt = true → lab'.state = .destroyed
  retried : isRaised attempt = true → attempt.1.destroyAttempts + 1 < maxDestroyAttempts →
    lab'.state = .destroying ∧ lab'.destroyAttempts = attempt.1.destroyAttempts + 1
  failed : isRaised attempt = true ∧ maxDestroyAttempts ≤ attempt.1.destroyAttempts + 1 ∨ storage = none →
    lab'.state = .failed
  once : ¬ (attempt.1.id ∈ report.destroyedLabIds ∧ attempt.1.id ∈ report.failedDestroyLabIds) ∧
    ¬ (attempt.1.id ∈ report.destroyedLabIds ∧ attempt.1.id ∈ report.failedLabIds) ∧
    ¬ (attempt.1.id ∈ report.failedDestroyLabIds ∧ attempt.1.id ∈ report.failedLabIds)

/-- The condition: there is a storage row, and the destroyer returned or left the root where it was. -/
def Accounted (service : Reconciler β) (now : DateTime) (s : Session β)
    (attempt : LabRow × DestroyOutcome) : Prop :=
  ∃ storage, s.store.labStorage.get? attempt.1.id = some storage ∧
    (isDestroyed attempt = true ∨ ((attempts service now s).2.tree.stat storage.rootPath).isSome = true)

section Outcome

variable {service : Reconciler β} {now : DateTime} {s : Session β} {lab : LabRow}

/-- A lab that was not destroyed is lost when its root is not there. -/
theorem isLost_of_raised (service : Reconciler β) (now : DateTime) (e : Exc) {storage : LabStorageRow}
    (hstate : lab.state = .destroying) (hstorage : s.store.labStorage.get? lab.id = some storage) :
    isLost service now s (lab, .raised e) =
      !((attempts service now s).2.tree.stat storage.rootPath).isSome := by
  have halive : (settledLab service.maxDestroyAttempts (lab, .raised e)).state ≠ .destroyed := by
    by_cases hlast : service.maxDestroyAttempts ≤ lab.destroyAttempts + 1 <;>
      simp [settledLab, hlast, retriedLab, hstate]
  unfold isLost lossOf
  rw [if_neg halive, settledLab_id, hstorage]
  cases hroot : ((attempts service now s).2.tree.stat storage.rootPath).isSome <;> simp [hroot]

theorem oneOutcome_iff {outcome : DestroyOutcome} (h : (lab, outcome) ∈ (attempts service now s).1) :
    OneOutcome service.maxDestroyAttempts (s.store.labStorage.get? lab.id) (lab, outcome)
      (passReport service now s)
      (if isLost service now s (lab, outcome)
        then failedLab (settledLab service.maxDestroyAttempts (lab, outcome))
        else settledLab service.maxDestroyAttempts (lab, outcome)) ↔
          Accounted service now s (lab, outcome) := by
  have hstate : lab.state = .destroying := (destroying_of_mem_attempts h).2
  have hdestroyed := mem_destroyedLabIds h
  have hgivenUp := mem_failedDestroyLabIds h
  have hlost := mem_failedLabIds h
  dsimp only at hdestroyed hgivenUp hlost
  rcases noStorage_of_mem_attempts h with ⟨hnone, rfl⟩ | ⟨storage, hstorage, rfl | ⟨e, rfl⟩⟩
  · -- without a storage row both loops report the lab
    have hloss : isLost service now s (lab, .noStorage) = true := by
      simp only at hnone
      simp [isLost, lossOf, settledLab, hnone]
    constructor
    · intro hone
      exact absurd ⟨hgivenUp.mpr rfl, hlost.mpr hloss⟩ hone.once.2.2
    · rintro ⟨storage, hstorage, -⟩
      exact absurd (hnone.symm.trans hstorage) (by simp)
  · -- a lab that was destroyed is not looked at again
    have hloss : isLost service now s (lab, .succeeded) = false := by simp [isLost, lossOf, settledLab]
    have haccounted : Accounted service now s (lab, .succeeded) := ⟨storage, hstorage, .inl rfl⟩
    refine iff_of_true ⟨fun _ _ => ?_, fun hr => ?_, ?_, ?_, ?_, ?_⟩ haccounted
    · rw [hloss]
      rfl
    · cases hr
    · rintro (⟨hr, -⟩ | hnone)
      · cases hr
      · exact absurd (hnone.symm.trans hstorage) (by simp)
    · exact fun hboth => absurd (hgivenUp.mp hboth.2) (by simp [isGivenUp])
    · exact fun hboth => absurd (hlost.mp hboth.2) (by simp [hloss])
    · exact fun hboth => absurd (hlost.mp hboth.2) (by simp [hloss])
  · have hloss := isLost_of_raised service now e hstate hstorage
    have hnot : ¬ lab.id ∈ (passReport service now s).destroyedLabIds :=
      fun hmem => by cases hdestroyed.mp hmem
    cases hroot : ((attempts service now s).2.tree.stat storage.rootPath).isSome with
    | true =>
      rw [hroot] at hloss
      have haccounted : Accounted service now s (lab, .raised e) := ⟨storage, hstorage, .inr hroot⟩
      have hfound : ¬ lab.id ∈ (passReport service now s).failedLabIds := fun hmem => by
        have hmissing := hlost.mp hmem
        rw [hloss] at hmissing
        cases hmissing
      refine iff_of_true ⟨fun _ hd => ?_, fun _ hbelow => ?_, ?_, fun hboth => hnot hboth.1,
        fun hboth => hnot hboth.1,
        fun hboth => hfound hboth.2⟩ haccounted
      · cases hd
      · rw [hloss]
        simp [settledLab, Nat.not_le.mpr hbelow, retriedLab, hstate]
      · rintro (⟨-, hlast⟩ | hnone)
        · rw [hloss]
          simp [settledLab, hlast]
        · exact absurd (hnone.symm.trans hstorage) (by simp)
    | false =>
      rw [hroot] at hloss
      refine iff_of_false (fun hone => ?_) ?_
      · -- below the budget the lab is failed; at the budget it is reported twice
        by_cases hlast : service.maxDestroyAttempts ≤ lab.destroyAttempts + 1
        · exact hone.once.2.2 ⟨hgivenUp.mpr (by simp [isGivenUp, hlast]), hlost.mpr hloss⟩
        · have hkept := (hone.retried rfl (Nat.lt_of_not_le hlast)).1
          rw [hloss] at hkept
          cases hkept
      · rintro ⟨storage', hstorage', hd | hroot'⟩
        · cases hd
        · obtain rfl := Option.some.inj (hstorage'.symm.trans hstorage)
          rw [hroot'] at hroot
          cases hroot

end Outcome

/-! ### Passes -/

/-- The session a pass leaves behind. -/
def afterPass (service : Reconciler β) (s : Session β) (now : DateTime) : Session β :=
  endState (reconcile service now s)

theorem afterPass_eq (service : Reconciler β) (s : Session β) (now : DateTime) :
    afterPass service s now = pass service now.normalize s := by
  rw [afterPass, reconcile_eq, endState_ok]

/-- The destroy of the lab fails where it is tried, and leaves the root where it was. -/
def FailsIn (service : Reconciler β) (labId : String) (s : Session β) (now : DateTime) : Prop :=
  ∀ attempt ∈ (attempts service now.normalize s).1, attempt.1.id = labId →
    isRaised attempt = true ∧ Accounted service now.normalize s attempt

/-- How often the destroy of a lab was tried and failed, by the events. -/
def failedAttempts (labId : String) (st : Store) : ℕ :=
    (resourceIds "lab.destroy_retry_failed" st.events).count labId

section Passes

variable {service : Reconciler β} {now : DateTime} {s : Session β} {lab : LabRow}

theorem failedAttempts_pass (labId : String) : failedAttempts labId (pass service now s).store =
    failedAttempts labId s.store +
      (((attempts service now s).1.filter isRaised).map fun attempt => attempt.1.id).count labId := by
  unfold failedAttempts
  rw [events_pass, resourceIds_append, List.count_append]
  exact congrArg _ (congrArg _ (resourceIds_passEvents _))

/-- One more failed attempt: it is counted, and the lab is failed when it was the last. -/
theorem pass_of_raised {attempt : LabRow × DestroyOutcome} (h : attempt ∈ (attempts service now s).1)
    (hraised : isRaised attempt = true) (haccounted : Accounted service now s attempt) :
    ∃ lab', (pass service now s).store.labs.get? attempt.1.id = some lab' ∧
      lab'.destroyAttempts = attempt.1.destroyAttempts + 1 ∧
      lab'.state = (if attempt.1.destroyAttempts + 1 < service.maxDestroyAttempts
        then .destroying else .failed) ∧
      failedAttempts attempt.1.id (pass service now s).store = failedAttempts attempt.1.id s.store + 1 := by
  have hnodup : (((attempts service now s).1.filter isRaised).map fun x => x.1.id).Nodup :=
    (List.filter_sublist.map _).nodup nodup_attempts
  have hcount : (((attempts service now s).1.filter isRaised).map fun x => x.1.id).count attempt.1.id = 1 :=
    List.count_eq_one_of_mem hnodup ((mem_ids_filter h).mpr hraised)
  have hfails : failedAttempts attempt.1.id (pass service now s).store =
      failedAttempts attempt.1.id s.store + 1 := by
    rw [failedAttempts_pass, hcount]
  have hone := (oneOutcome_iff h).mpr haccounted
  refine ⟨_, get?_labs_of_attempt h, ?_, ?_, hfails⟩
  · obtain ⟨lab, outcome⟩ := attempt
    cases outcome with
    | raised e =>
      by_cases hlast : service.maxDestroyAttempts ≤ lab.destroyAttempts + 1 <;>
        by_cases hloss : isLost service now s (lab, .raised e) = true <;>
          simp [settledLab, hlast, hloss, retriedLab, failedLab]
    | _ => cases hraised
  · by_cases hbelow : attempt.1.destroyAttempts + 1 < service.maxDestroyAttempts
    · rw [if_pos hbelow]
      exact (hone.retried hraised hbelow).1
    · rw [if_neg hbelow]
      exact hone.failed (.inl ⟨hraised, Nat.le_of_not_lt hbelow⟩)

/-- A lab that is failed is not tried again. -/
theorem pass_of_failed (service : Reconciler β) (now : DateTime) (hlab : s.store.labs.get? lab.id = some lab)
    (hfailed : lab.state = .failed) : (pass service now s).store.labs.get? lab.id = some lab ∧
      failedAttempts lab.id (pass service now s).store = failedAttempts lab.id s.store := by
  have hnot : lab.id ∉ (attempts service now s).1.map fun attempt => attempt.1.id := by
    intro hmem
    obtain ⟨attempt, hattempt, hid⟩ := List.mem_map.mp hmem
    obtain ⟨hrow, hdestroying⟩ := destroying_of_mem_attempts hattempt
    rw [hid, hlab] at hrow
    rw [← Option.some.inj hrow, hfailed] at hdestroying
    cases hdestroying
  have hkept : expiredLab (staleApprovals now s.store) lab = lab := by simp [expiredLab, hfailed]
  have hsame : failedLab lab = lab := by
    rw [failedLab, ← hfailed]
  constructor
  · rw [get?_labs, get?_retried_of_notMem hnot, hlab, Option.map_some, Option.map_some, hkept,
      hsame, ite_self]
  · have hnone : lab.id ∉ ((attempts service now s).1.filter isRaised).map fun attempt => attempt.1.id :=
      fun hmem => hnot ((List.filter_sublist.map _).subset hmem)
    rw [failedAttempts_pass, List.count_eq_zero_of_not_mem hnone, Nat.add_zero]

theorem passes_of_failed (service : Reconciler β) (nows : List DateTime) {s : Session β}
    (hlab : s.store.labs.get? lab.id = some lab) (hfailed : lab.state = .failed) :
    (Runs.after (afterPass service) s nows).store.labs.get? lab.id = some lab ∧
      failedAttempts lab.id (Runs.after (afterPass service) s nows).store =
        failedAttempts lab.id s.store := by
  induction nows generalizing s with
  | nil => exact ⟨hlab, rfl⟩
  | cons now nows ih =>
    obtain ⟨hkept, hcount⟩ := pass_of_failed service now.normalize hlab hfailed
    rw [Runs.after_cons, afterPass_eq]
    obtain ⟨hlab', hcount'⟩ := ih hkept
    exact ⟨hlab', hcount'.trans hcount⟩

/-- **Over passes** a lab whose destroy always fails is tried as often as the budget allows, and then
failed. -/
theorem passes_of_raised (hd : service.storageDestroyer.isSome = true) (nows : List DateTime) {s : Session β}
    {lab : LabRow} (hlab : s.store.labs.get? lab.id = some lab) (hstate : lab.state = .destroying)
    (hbudget : lab.destroyAttempts < service.maxDestroyAttempts)
    (hfails : Runs.Allowed (afterPass service) (FailsIn service lab.id) s nows) :
    ∃ lab', (Runs.after (afterPass service) s nows).store.labs.get? lab.id = some lab' ∧
      lab'.destroyAttempts = min (lab.destroyAttempts + nows.length) service.maxDestroyAttempts ∧
      lab'.state =
        (if lab.destroyAttempts + nows.length < service.maxDestroyAttempts then .destroying else .failed) ∧
      failedAttempts lab.id (Runs.after (afterPass service) s nows).store =
        failedAttempts lab.id s.store + min nows.length
          (service.maxDestroyAttempts - lab.destroyAttempts) := by
  induction nows generalizing s lab with
  | nil => exact ⟨lab, hlab, by simp; omega, by simp [hstate, hbudget], by simp⟩
  | cons now nows ih =>
    obtain ⟨outcome, hattempt⟩ := exists_attempt now.normalize hd hlab hstate
    obtain ⟨hraised, haccounted⟩ := hfails.1 _ hattempt rfl
    obtain ⟨lab₁, hlab₁, hattempts₁, hstate₁, hcount₁⟩ := pass_of_raised hattempt hraised haccounted
    dsimp only at hlab₁ hattempts₁ hstate₁ hcount₁
    have hid : lab₁.id = lab.id := Table.key_of_get? hlab₁
    have hrest := hfails.2
    rw [afterPass_eq, ← hid] at hrest
    rw [← hid] at hlab₁ hcount₁
    rw [Runs.after_cons, afterPass_eq, ← hid, List.length_cons]
    by_cases hbelow : lab.destroyAttempts + 1 < service.maxDestroyAttempts
    · rw [if_pos hbelow] at hstate₁
      obtain ⟨lab', hlab', hattempts', hstate', hcount'⟩ := ih hlab₁ hstate₁ (by omega) hrest
      refine ⟨lab', hlab', by omega, ?_, by omega⟩
      rw [hstate', hattempts₁, Nat.add_right_comm, Nat.add_assoc]
    · rw [if_neg hbelow] at hstate₁
      obtain ⟨hlab', hcount'⟩ := passes_of_failed service nows hlab₁ hstate₁
      refine ⟨lab₁, hlab', by omega, ?_, by omega⟩
      rw [hstate₁, if_neg (by omega)]

end Passes

/-- **Destroys that are tried again**, for every storage destroyer and budget. In a pass over any store and
disk, a lab that is destroying has one outcome, within the budget and reported once at most, exactly when it
has a storage row and its destroyer returned or its root is still there once the destroyers have run. Over
passes in which its destroyer always raises and leaves its root, the lab is tried again until its attempts
are used up, and then failed: as often as the budget allows, and no more. -/
theorem destroy_retries (inventory : Option (List LabInspection))
    (destroyer : StorageAllocation → DiskM β Unit) (maxDestroyAttempts : ℕ) :
    (∀ now (s : Session β), ∀ lab ∈ s.store.labs.rows, lab.state = .destroying →
      ∃ report s' outcome lab',
        reconcile ⟨inventory, some destroyer, maxDestroyAttempts⟩ now s = .ok report s' ∧
        (lab, outcome) ∈ (attempts ⟨inventory, some destroyer, maxDestroyAttempts⟩ now.normalize s).1 ∧
        s'.store.labs.get? lab.id = some lab' ∧
        (OneOutcome maxDestroyAttempts (s.store.labStorage.get? lab.id) (lab, outcome) report lab' ↔
          Accounted ⟨inventory, some destroyer, maxDestroyAttempts⟩ now.normalize s (lab, outcome))) ∧
    ∀ nows (s : Session β), ∀ lab ∈ s.store.labs.rows, lab.state = .destroying →
      lab.destroyAttempts < maxDestroyAttempts →
      Runs.Allowed (afterPass ⟨inventory, some destroyer, maxDestroyAttempts⟩)
        (FailsIn ⟨inventory, some destroyer, maxDestroyAttempts⟩ lab.id) s nows →
      ∃ lab', (Runs.after (afterPass ⟨inventory, some destroyer, maxDestroyAttempts⟩) s
        nows).store.labs.get? lab.id =
          some lab' ∧
        lab'.destroyAttempts = min (lab.destroyAttempts + nows.length) maxDestroyAttempts ∧
        lab'.state = (if lab.destroyAttempts + nows.length < maxDestroyAttempts
          then .destroying else .failed) ∧
        failedAttempts lab.id
          (Runs.after (afterPass ⟨inventory, some destroyer, maxDestroyAttempts⟩) s nows).store =
          failedAttempts lab.id s.store + min nows.length (maxDestroyAttempts - lab.destroyAttempts) := by
  have hd : (Reconciler.mk inventory (some destroyer) maxDestroyAttempts).storageDestroyer.isSome = true :=
    rfl
  refine ⟨fun now s lab hlab hstate => ?_, fun nows s lab hlab hstate hbudget hfails => ?_⟩
  · obtain ⟨outcome, hattempt⟩ := exists_attempt now.normalize hd (Table.get?_of_mem hlab) hstate
    exact ⟨_, _, outcome, _, reconcile_eq _ now s, hattempt, get?_labs_of_attempt hattempt,
      oneOutcome_iff hattempt⟩
  · exact passes_of_raised hd nows (Table.get?_of_mem hlab) hstate hbudget hfails

/-- A lab that is destroying, with a storage row but no root on the disk. -/
def vanishedRoot : Session Unit :=
  ⟨{ Store.empty with
      labs := (∅ : Table LabRow.id).put {
        id := "a", profileName := "safe-dev", state := .destroying, runtimeClass :=
          .container, createdAt := .utc 0 }
      labStorage := (∅ : Table LabStorageRow.labId).put {
        labId := "a", persistenceMode := "ephemeral", rootPath := ["srv", "labs", "a"]
        workspacePath := ["srv", "labs", "a", "workspace"], exportsPath := ["srv", "labs", "a", "exports"]
        quarantinePath := ["srv", "labs", "a", "quarantine"], snapshotsPath :=
          ["srv", "labs", "a", "snapshots"]
        workspaceMountTarget := "/lab/workspace" } },
    ⟨∅, []⟩, 0⟩

/-- A destroyer that raises. -/
def busyDestroyer (_ : StorageAllocation) : DiskM Unit Unit := throw (.value "storage backend busy")

/-- The lab has its root. -/
def standingRoot : Session Unit :=
  { vanishedRoot with
    disk := ⟨((FileTree.set ∅ ["srv"] .dir).set ["srv", "labs"] .dir).set ["srv", "labs", "a"] .dir, []⟩ }

/-- Its destroyer raises in two passes, and the third attempt is still to come. -/
theorem destroy_retries_standingRoot :
    ∃ lab lab', standingRoot.store.labs.get? "a" = some lab ∧
      (Runs.after (afterPass ⟨none, some busyDestroyer, 3⟩) standingRoot
        [.utc 0, .utc 1]).store.labs.get? lab.id = some lab' ∧
      lab'.destroyAttempts = 2 ∧ lab'.state = .destroying := by
  have hfails : ∀ s : Session Unit, ∀ now attempt storage,
      (attempts ⟨none, some busyDestroyer, 3⟩ now s).1 = [attempt] → isRaised attempt = true →
      s.store.labStorage.get? attempt.1.id = some storage →
      ((attempts ⟨none, some busyDestroyer, 3⟩ now s).2.tree.stat storage.rootPath).isSome = true →
      ∀ x ∈ (attempts ⟨none, some busyDestroyer, 3⟩ now s).1, x.1.id = "a" →
        isRaised x = true ∧ Accounted ⟨none, some busyDestroyer, 3⟩ now s x := by
    intro s now attempt storage hone hraised hstorage hroot x hx _
    rw [hone] at hx
    obtain rfl := List.mem_singleton.mp hx
    exact ⟨hraised, storage, hstorage, .inr hroot⟩
  obtain ⟨lab', hlab', hattempts, hstate, -⟩ := (destroy_retries none busyDestroyer 3).2 [.utc 0, .utc 1]
    standingRoot _ (List.mem_singleton.mpr rfl) rfl (by decide)
    ⟨hfails _ _ _ _ rfl rfl rfl rfl, hfails _ _ _ _ rfl rfl rfl rfl, trivial⟩
  exact ⟨_, lab', rfl, hlab', hattempts, hstate⟩

/-- **Failed with attempts left**: the first of three attempts raised, and the lab is failed for its missing
root. -/
theorem vanished_root_fails :
    ∃ report s' lab lab', reconcile ⟨none, some busyDestroyer, 3⟩ (.utc 0) vanishedRoot = .ok report s' ∧
      vanishedRoot.store.labs.get? "a" = some lab ∧ lab.state = .destroying ∧
      (lab, .raised (.value "storage backend busy")) ∈
        (attempts ⟨none, some busyDestroyer, 3⟩ (DateTime.utc 0).normalize vanishedRoot).1 ∧
      lab.destroyAttempts + 1 < 3 ∧ s'.store.labs.get? "a" = some lab' ∧ lab'.state = .failed :=
  ⟨_, _, _, _, reconcile_eq _ _ _, rfl, rfl, List.mem_singleton.mpr rfl, by decide, rfl, rfl⟩

end ReconciliationService

end LabOS
