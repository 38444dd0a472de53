import LabOS.System.PassRows

/-!
# The report of a pass and its events

A pass fills its report and writes its events in different places. Both are read off
`pass`: for each type of event, the ids of the resources its events are about are the
ids of one list of the report, and the list is sorted.

## What is proved

* `audit_of_reconcile` — **the report and the audit trail agree**, for any store, any
  destroyer and any inventory, and each inspection has its finding.
-/

namespace LabOS

open Exceptional FileOps

variable {β γ : Type}

namespace ReconciliationService

/-! ### Events by type -/

/-- The resources that the events of one type are about. -/
def resourceIds (eventType : String) (evs : List EventRow) : List String :=
  (evs.filter fun e => e.eventType = eventType).filterMap EventRow.resourceId

@[simp] theorem resourceIds_append (eventType : String) (evs evs' : List EventRow) :
    resourceIds eventType (evs ++ evs') = resourceIds eventType evs ++ resourceIds eventType evs' := by
  simp [resourceIds]

theorem resourceIds_flatMap (eventType : String) (xs : List γ) (f : γ → List EventRow) :
    resourceIds eventType (xs.flatMap f) = xs.flatMap fun x => resourceIds eventType (f x) := by
  induction xs with
  | nil => rfl
  | cons x xs ih => simp [ih]

/-- Events of one type, each about its own resource. -/
theorem resourceIds_map {written : String} {f : γ → EventRow} {g : γ → String}
    (htype : ∀ x, (f x).eventType = written) (hid : ∀ x, (f x).resourceId = some (g x))
    (eventType : String) (xs : List γ) :
    resourceIds eventType (xs.map f) = if written = eventType then xs.map g else [] := by
  induction xs with
  | nil => simp [resourceIds]
  | cons x xs ih =>
    unfold resourceIds at ih ⊢
    by_cases h : written = eventType
    · simp only [h, if_true] at ih ⊢
      rw [List.map_cons, List.filter_cons_of_pos (by simp [htype, h]), List.filterMap_cons, hid, ih]
      rfl
    · simp only [h, if_false] at ih ⊢
      rw [List.map_cons, List.filter_cons_of_neg (by simp [htype, h]), ih]

theorem flatMap_ite (xs : List γ) (p : γ → Bool) (g : γ → String) :
    (xs.flatMap fun x => if p x then [g x] else []) = (xs.filter p).map g := by
  induction xs with
  | nil => rfl
  | cons x xs ih => cases hp : p x <;> simp [hp, ih]

theorem flatMap_const_nil (xs : List γ) : (xs.flatMap fun _ => ([] : List String)) = [] :=
  List.flatMap_eq_nil_iff.mpr fun _ _ => rfl

/-- Did the destroyer raise, or the building of its allocation? -/
def isRaised (attempt : LabRow × DestroyOutcome) : Bool :=
  match attempt.2 with
  | .raised _ => true
  | _ => false

theorem resourceIds_singleton {e : EventRow} {id : String} (hid : e.resourceId = some id)
    (eventType : String) :
    resourceIds eventType [e] = if eventType = e.eventType then [id] else [] := by
  unfold resourceIds
  by_cases h : e.eventType = eventType
  · rw [List.filter_cons_of_pos (by simp [h]), List.filterMap_cons, hid, if_pos h.symm]
    rfl
  · rw [List.filter_cons_of_neg (by simp [h]), if_neg (Ne.symm h)]
    rfl

/-- The types of the events of an attempt. -/
theorem resourceIds_destroyEvents (service : Reconciler β) (eventType : String)
    (attempt : LabRow × DestroyOutcome) :
    resourceIds eventType (destroyEvents service attempt) =
      if eventType = "lab.destroyed" then if isDestroyed attempt then [attempt.1.id] else []
      else if eventType = "lab.destroy_failed" then
        if isGivenUp service.maxDestroyAttempts attempt then [attempt.1.id] else []
      else if eventType = "lab.destroy_retry_failed" then if isRaised attempt then [attempt.1.id] else []
      else [] := by
  obtain ⟨lab, outcome⟩ := attempt
  set settled := settledLab service.maxDestroyAttempts (lab, outcome) with hsettled
  have hid : settled.id = lab.id := settledLab_id _ _
  have hwritten : ∀ written, resourceIds eventType [attemptEvent service written settled] =
      if eventType = written then [lab.id] else [] :=
    fun written => resourceIds_singleton (congrArg some hid) eventType
  cases outcome with
  | noStorage =>
    refine (hwritten "lab.destroy_failed").trans ?_
    simp only [isDestroyed, isGivenUp, isRaised]
    grind
  | succeeded =>
    refine (resourceIds_singleton (congrArg some hid) eventType).trans ?_
    simp only [isDestroyed, isGivenUp, isRaised]
    grind [event]
  | raised e =>
    have hevents : destroyEvents service (lab, .raised e) =
        [attemptEvent service "lab.destroy_retry_failed" settled] ++
          if isGivenUp service.maxDestroyAttempts (lab, .raised e)
            then [attemptEvent service "lab.destroy_failed" settled] else [] := by
      cases h : isGivenUp service.maxDestroyAttempts (lab, .raised e) <;> simp [destroyEvents, h, hsettled]
    rw [hevents, resourceIds_append, hwritten]
    cases h : isGivenUp service.maxDestroyAttempts (lab, .raised e)
    · simp only [isDestroyed, isRaised]
      grind [resourceIds]
    · rw [if_pos rfl, hwritten]
      simp only [isDestroyed, isRaised]
      grind

/-- The types of the events of an inspection. -/
theorem resourceIds_findings (labs : Table LabRow.id) (eventType : String) (inspection : LabInspection) :
    resourceIds eventType (findings labs inspection) =
      if eventType = "runtime_lab.orphan_detected" then
        if isOrphan labs inspection then [inspection.labId] else []
      else if eventType = "runtime_lab.zombie_detected" then
        if isZombie labs inspection then [inspection.labId] else []
      else [] := by
  unfold findings isOrphan isZombie
  cases labs.get? inspection.labId with
  | none =>
    refine (resourceIds_singleton rfl eventType).trans ?_
    simp only [event]
    grind
  | some lab =>
    show resourceIds eventType (if _ then _ else _) = _
    cases hz : isZombieLab lab.state inspection.status
    · simp [hz, resourceIds]
    · rw [if_pos rfl]
      refine (resourceIds_singleton rfl eventType).trans ?_
      simp only [event]
      grind

/-! ### The events of a pass -/

/-- The events a pass appends. -/
def passEvents (service : Reconciler β) (now : DateTime) (s : Session β) : List EventRow :=
  (staleApprovals now s.store).map expiryEvent ++ (expiredLeases now s.store).map leaseEvent ++
    (overdueRuns now s.store).map timeoutEvent ++
    (attempts service now s).1.flatMap (destroyEvents service) ++ (lost service now s).map lossEvent ++
    (inspected service).flatMap (findings (pass service now s).store.labs)

theorem events_pass (service : Reconciler β) (now : DateTime) (s : Session β) :
    (pass service now s).store.events = s.store.events ++ passEvents service now s := by
  unfold passEvents
  simp only [← List.append_assoc]
  rfl

variable {service : Reconciler β} {now : DateTime} {s : Session β}

/-- **The resources of the events of a pass, by type.** -/
theorem resourceIds_passEvents (eventType : String) : resourceIds eventType (passEvents service now s) =
    if eventType = "approval.expired" then (staleApprovals now s.store).map ApprovalRow.id
    else if eventType = "secret_lease.expired" then (expiredLeases now s.store).map SecretLeaseRow.id
    else if eventType = "run.timed_out" then (overdueRuns now s.store).map RunRow.id
    else if eventType = "lab.destroyed"
      then ((attempts service now s).1.filter isDestroyed).map fun x => x.1.id
    else if eventType = "lab.destroy_failed" then
      ((attempts service now s).1.filter (isGivenUp service.maxDestroyAttempts)).map fun x => x.1.id
    else if eventType = "lab.destroy_retry_failed" then
      ((attempts service now s).1.filter isRaised).map fun x => x.1.id
    else if eventType = "lab.reconciliation_failed" then (lost service now s).map fun x => x.1.id
    else if eventType = "runtime_lab.orphan_detected" then
      ((inspected service).filter (isOrphan (pass service now s).store.labs)).map LabInspection.labId
    else if eventType = "runtime_lab.zombie_detected" then
      ((inspected service).filter (isZombie (pass service now s).store.labs)).map LabInspection.labId
    else [] := by
  have happroval : ∀ xs : List ApprovalRow, resourceIds eventType (xs.map expiryEvent) =
      if "approval.expired" = eventType then xs.map ApprovalRow.id else [] :=
    resourceIds_map (f := expiryEvent) (g := ApprovalRow.id) (fun _ => rfl) (fun _ => rfl) eventType
  have hlease : ∀ xs : List SecretLeaseRow, resourceIds eventType (xs.map leaseEvent) =
      if "secret_lease.expired" = eventType then xs.map SecretLeaseRow.id else [] :=
    resourceIds_map (f := leaseEvent) (g := SecretLeaseRow.id) (fun _ => rfl) (fun _ => rfl) eventType
  have hrun : ∀ xs : List RunRow, resourceIds eventType (xs.map timeoutEvent) =
      if "run.timed_out" = eventType then xs.map RunRow.id else [] :=
    resourceIds_map (f := timeoutEvent) (g := RunRow.id) (fun _ => rfl) (fun _ => rfl) eventType
  have hloss : ∀ xs : List (LabRow × String), resourceIds eventType (xs.map lossEvent) =
      if "lab.reconciliation_failed" = eventType then xs.map fun x => x.1.id else [] :=
    resourceIds_map (f := lossEvent) (g := fun x => x.1.id) (fun _ => rfl) (fun _ => rfl) eventType
  simp only [passEvents, resourceIds_append, resourceIds_flatMap, happroval, hlease, hrun, hloss,
    resourceIds_destroyEvents, resourceIds_findings]
  by_cases h₁ : eventType = "approval.expired"
  · simp [h₁]
  by_cases h₂ : eventType = "secret_lease.expired"
  · simp [h₂]
  by_cases h₃ : eventType = "run.timed_out"
  · simp [h₃]
  by_cases h₄ : eventType = "lab.destroyed"
  · simp [h₄, flatMap_ite]
  by_cases h₅ : eventType = "lab.destroy_failed"
  · simp [h₅, flatMap_ite]
  by_cases h₆ : eventType = "lab.destroy_retry_failed"
  · simp [h₆, flatMap_ite]
  by_cases h₇ : eventType = "lab.reconciliation_failed"
  · simp [h₇, flatMap_const_nil]
  by_cases h₈ : eventType = "runtime_lab.orphan_detected"
  · simp [h₈, flatMap_ite]
  by_cases h₉ : eventType = "runtime_lab.zombie_detected"
  · simp [h₉, flatMap_ite]
  simp [h₁, h₂, h₃, h₄, h₅, h₆, h₇, h₈, h₉, Ne.symm h₁, Ne.symm h₂, Ne.symm h₃, Ne.symm h₇]

/-- Every event of a pass is about a resource. -/
theorem resourceId_of_mem_passEvents {e : EventRow} (he : e ∈ passEvents service now s) :
    ∃ id, e.resourceId = some id := by
  simp only [passEvents, List.mem_append, List.mem_map, List.mem_flatMap] at he
  rcases he with ((((⟨x, -, rfl⟩ | ⟨x, -, rfl⟩) | ⟨x, -, rfl⟩) | ⟨x, -, he⟩) | ⟨x, -, rfl⟩) | ⟨x, -, he⟩
  · exact ⟨_, rfl⟩
  · exact ⟨_, rfl⟩
  · exact ⟨_, rfl⟩
  · obtain ⟨lab, outcome⟩ := x
    cases outcome with
    | raised e =>
      by_cases hlast : isGivenUp service.maxDestroyAttempts (lab, .raised e) = true
      · simp only [destroyEvents, hlast, if_true, List.mem_cons, List.not_mem_nil, or_false] at he
        rcases he with rfl | rfl <;> exact ⟨_, rfl⟩
      · simp only [destroyEvents, hlast, List.mem_cons] at he
        rcases he with rfl | he
        · exact ⟨_, rfl⟩
        · cases he
    | _ =>
      obtain rfl := List.mem_singleton.mp he
      exact ⟨_, rfl⟩
  · exact ⟨_, rfl⟩
  · unfold findings at he
    split at he
    · obtain rfl := List.mem_singleton.mp he
      exact ⟨_, rfl⟩
    · split at he
      · obtain rfl := List.mem_singleton.mp he
        exact ⟨_, rfl⟩
      · cases he

/-- The lists of a report, each with the type of the events it agrees with. -/
def reported (report : ReconciliationReport) : List (String × List String) :=
  [("lab.reconciliation_failed", report.failedLabIds), ("lab.destroyed", report.destroyedLabIds),
   ("lab.destroy_failed", report.failedDestroyLabIds),
     ("runtime_lab.orphan_detected", report.orphanedRuntimeLabIds),
   ("runtime_lab.zombie_detected", report.zombieLabIds), ("approval.expired", report.expiredApprovalIds),
   ("secret_lease.expired", report.revokedSecretLeaseIds), ("run.timed_out", report.timedOutRunIds)]

theorem resourceIds_ne_nil {evs : List EventRow} {e : EventRow} (he : e ∈ evs)
    (hid : ∃ id, e.resourceId = some id) :
    resourceIds e.eventType evs ≠ [] := by
  obtain ⟨id, hid⟩ := hid
  have hmem : id ∈ resourceIds e.eventType evs :=
    List.mem_filterMap.mpr ⟨e, List.mem_filter.mpr ⟨he, by simp⟩, hid⟩
  exact List.ne_nil_of_mem hmem

/-- **The report of a pass and its events agree**, for every store, disk, inventory and storage destroyer.
Each list of the report is sorted, and has the resources of the events of its type, as often as they occur;
there is one event for each destroy that raised, and no other event. Each inspection for which no lab has
its id is an orphan; another is a zombie when its container is active and its lab, as the pass leaves it,
admits no runtime. -/
theorem audit_of_reconcile (service : Reconciler β) (now : DateTime) (s : Session β) :
    ∃ report s' evs, reconcile service now s = .ok report s' ∧ s'.store.events = s.store.events ++ evs ∧
      (∀ x ∈ reported report, x.2.Pairwise (· ≤ ·) ∧ (resourceIds x.1 evs).Perm x.2) ∧
      resourceIds "lab.destroy_retry_failed" evs =
        ((attempts service now.normalize s).1.filter isRaised).map (fun attempt => attempt.1.id) ∧
      (∀ e ∈ evs, e.eventType = "lab.destroy_retry_failed" ∨ e.eventType ∈ (reported report).map Prod.fst) ∧
      resourceIds "runtime_lab.orphan_detected" evs =
        ((service.runtimeInventory.getD []).filter (isOrphan s'.store.labs)).map LabInspection.labId ∧
      resourceIds "runtime_lab.zombie_detected" evs =
        ((service.runtimeInventory.getD []).filter (isZombie s'.store.labs)).map LabInspection.labId := by
  refine ⟨_, _, passEvents service now.normalize s, reconcile_eq service now s,
    events_pass _ _ _, fun x hx => ?_,
    resourceIds_passEvents _, fun e he => ?_, resourceIds_passEvents _, resourceIds_passEvents _⟩
  · have hsorted : ∀ ids : List String, (ids.insertionSort (· ≤ ·)).Pairwise (· ≤ ·) :=
      fun ids => List.pairwise_insertionSort (· ≤ ·) ids
    have hperm : ∀ ids : List String, ids.Perm (ids.insertionSort (· ≤ ·)) :=
      fun ids => (List.perm_insertionSort (· ≤ ·) ids).symm
    simp only [reported, List.mem_cons, List.not_mem_nil, or_false] at hx
    rcases hx with rfl | rfl | rfl | rfl | rfl | rfl | rfl | rfl <;>
      exact ⟨hsorted _, by rw [resourceIds_passEvents]; exact hperm _⟩
  · have hne := resourceIds_ne_nil he (resourceId_of_mem_passEvents he)
    rw [resourceIds_passEvents] at hne
    simp only [reported, List.map_cons, List.map_nil, List.mem_cons, List.not_mem_nil, or_false]
    by_contra hother
    simp only [not_or] at hother
    obtain ⟨h₁, h₂, h₃, h₄, h₅, h₆, h₇, h₈, h₉⟩ := hother
    simp [h₁, h₂, h₃, h₄, h₅, h₆, h₇, h₈, h₉] at hne

end ReconciliationService

end LabOS
