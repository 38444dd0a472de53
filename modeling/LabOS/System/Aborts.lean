import LabOS.System.Commits
import LabOS.System.Labs
import LabOS.System.Layout
import LabOS.System.Symbolic

/-!
# A deletion that fails midway

`DELETE` removes the tree of a lab first and stores the new state of its row last, in one
block. When the removal fails, what it removed is gone and the row is taken back: it is in the
state it was in, and not in `destroying`, the only state from which a pass takes a deletion up
again. No request ever stores `destroying`, so the retries of a pass have nothing to do.

## What is proved

* `aborted_destroy_resumable_iff` — after a deletion that failed midway **the lab is in a state
  that a pass resumes or that says it failed exactly when** it was failed before.

## Where the code parts from its documentation

`aborted_destroy_forgotten`: a removal that fails after a file leaves the lab approved, and a
pass with a storage destroyer does not take it up.
-/

namespace LabOS

open Exceptional

variable {β : Type} [Content β] {env : Environment β}

/-- The lab is in a state in which a pass removes it or in which it counts as failed. -/
def Resumable (s : State β) (labId : String) : Prop :=
  ∃ lab, s.store.labs.get? labId = some lab ∧ (lab.state = .destroying ∨ lab.state = .failed)

/-- **A deletion whose removal raises** keeps what the removal did to the tree, and the rows as they were. -/
theorem step_of_destroy_error {s : State β} {lab : LabRow} {storage : LabStorageRow}
    {allocation : StorageAllocation} {now : ℤ} {fates : List Fate} {e : Exc} {d : Disk β}
    (hlab : s.store.labs.get? lab.id = some lab) (hstorage : s.store.labStorage.get? lab.id = some storage)
    (halive : lab.state ≠ .destroyed) (hallocation : storageAllocationFromRow storage = .ok allocation)
    (hraises : ManagedStorageAllocator.destroy env.root allocation ⟨s.tree, fates⟩ = .error e d) :
    (step env s (.request (.destroyLab lab.id) now fates)).tree = d.tree ∧
      (step env s (.request (.destroyLab lab.id) now fates)).store = s.store := by
  have hbody : ∃ s₁, App.destroyLab env lab.id (s.session fates) = .error e s₁ ∧ s₁.disk = d := by
    unfold App.destroyLab
    rw [bind_run_of_ok (getOr_eq_ok.mpr ⟨hlab, rfl⟩), bind_run_of_ok (getOr_eq_ok.mpr ⟨hstorage, rfl⟩),
      bind_run_of_ok (raiseIf_eq_ok (u := ()).mpr ⟨halive, rfl⟩),
      bind_run_of_ok (fromExcept_eq_ok.mpr ⟨hallocation, rfl⟩)]
    exact ⟨_, bind_eq_error.mpr (.inl (onDisk_eq_error.mpr ⟨d, hraises, rfl⟩)), rfl⟩
  obtain ⟨s₁, hbody, hdisk⟩ := hbody
  have hanswer : answer env s (.destroyLab lab.id) now fates = .error e { s₁ with store := s.store } :=
    map_eq_error.mpr (withSession_of_error hbody)
  constructor
  · show (endState (answer env s (.destroyLab lab.id) now fates)).disk.tree = d.tree
    rw [hanswer, ← hdisk]
    rfl
  · show (endState (answer env s (.destroyLab lab.id) now fates)).store = s.store
    rw [hanswer]
    rfl

/-- **After a deletion that failed midway** a lab of a run is in a state that a pass resumes or that says it
failed exactly when it was failed before: the state of its row is what it was, whatever part of its tree is
left. -/
theorem aborted_destroy_resumable_iff (env : Environment β) (s₀ : State β) (h₀ : Initial env s₀)
    (actions : List (Action β)) (now : ℤ) (fates : List Fate) (lab : LabRow) (storage : LabStorageRow)
    (allocation : StorageAllocation) (e : Exc) (d : Disk β)
    (hlab : (runFrom env s₀ actions).store.labs.get? lab.id = some lab)
    (hstorage : (runFrom env s₀ actions).store.labStorage.get? lab.id = some storage)
    (halive : lab.state ≠ .destroyed) (hallocation : storageAllocationFromRow storage = .ok allocation)
    (hraises : ManagedStorageAllocator.destroy env.root allocation ⟨(runFrom env s₀ actions).tree, fates⟩ =
      .error e d) :
    (step env (runFrom env s₀ actions) (.request (.destroyLab lab.id) now fates)).tree = d.tree ∧
      (Resumable (step env (runFrom env s₀ actions) (.request (.destroyLab lab.id) now fates)) lab.id ↔
        lab.state = .failed) := by
  have hstep := @step_of_destroy_error β _ env _ lab storage allocation now fates e d hlab hstorage halive
    hallocation hraises
  obtain ⟨htree, hstore⟩ := hstep
  refine ⟨htree, ?_⟩
  constructor
  · rintro ⟨lab', hlab', hstate⟩
    rw [hstore] at hlab'
    obtain rfl := Option.some.inj (hlab.symm.trans hlab')
    rcases hstate with hdestroying | hfailed
    · -- no lab of a run is ever destroying
      have hlived := lived_of_run h₀ actions lab.id lab hlab
      simp [hdestroying, livedStates] at hlived
    · exact hfailed
  · intro hfailed
    exact ⟨lab, by rw [hstore]; exact hlab, .inr hfailed⟩

/-- A lab with a file in its workspace. -/
def filledRun : List (Action Blob) :=
  [.request (.createLab "safe-dev" .human) 0 [],
   .guest "a" [(["srv", "labs", "a", "workspace", "w.txt"], .file (.data "a" ['x']))]]

/-- Its deletion, which fails when all but the workspace directory is removed. -/
def cutRun : List (Action Blob) :=
  [.request (.destroyLab "a") 1 [.failed (fun p => p = ["srv", "labs", "a", "workspace"]) none]]

/-- After it, the lab is in no state that a pass resumes. -/
theorem aborted_destroy_resumable_iff_filledRun :
    ¬ Resumable (step (symbolic defaultProfiles) (runFrom (symbolic defaultProfiles) emptyState filledRun)
      (.request (.destroyLab "a") 1
        [.failed (fun p => p = ["srv", "labs", "a", "workspace"]) none])) "a" := by
  have hrow : ((runFrom (symbolic defaultProfiles) emptyState filledRun).store.labs.get? "a").any
      (fun lab => lab.id = "a" && lab.state = .approved) = true := by decide +kernel
  have hremoval : ((runFrom (symbolic defaultProfiles) emptyState filledRun).store.labStorage.get? "a").any
      (fun storage => match storageAllocationFromRow storage with
        | .ok allocation =>
          raises (fun _ _ => true) (ManagedStorageAllocator.destroy (symbolic defaultProfiles).root allocation
            ⟨(runFrom (symbolic defaultProfiles) emptyState filledRun).tree,
              [.failed (fun p => p = ["srv", "labs", "a", "workspace"]) none]⟩)
        | .error _ => false) = true := by decide +kernel
  obtain ⟨lab, hlab, hrow⟩ := (Option.any_eq_true ..).mp hrow
  obtain ⟨storage, hstorage, hremoval⟩ := (Option.any_eq_true ..).mp hremoval
  obtain ⟨hid, hstate⟩ := (Bool.and_eq_true ..).mp hrow
  replace hid := of_decide_eq_true hid
  replace hstate := of_decide_eq_true hstate
  split at hremoval
  · rename_i allocation hallocation
    obtain ⟨e, d, hraises, -⟩ := raises_eq_true.mp hremoval
    rw [← hid] at hlab hstorage
    have hiff := (aborted_destroy_resumable_iff (symbolic defaultProfiles) emptyState (initial_emptyState _)
      filledRun 1 _ lab storage allocation e d hlab hstorage (by rw [hstate]; decide) hallocation hraises).2
    rw [hid, hstate] at hiff
    exact fun h => absurd (hiff.mp h) (by decide)
  · cases hremoval

/-- **The deletion is forgotten**: the file is gone, the lab is approved, and a pass with a destroyer
leaves both so. -/
theorem aborted_destroy_forgotten :
    ((runFrom (symbolic defaultProfiles) emptyState filledRun).tree.lookup
      (inLab ["srv"] "a" ["workspace", "w.txt"])).isSome = true ∧
    ((runFrom (symbolic defaultProfiles) emptyState (filledRun ++ cutRun)).store.labs.get? "a").any
      (fun lab => lab.state = .approved) = true ∧
    ((runFrom (symbolic defaultProfiles) emptyState (filledRun ++ cutRun)).tree.lookup
      (inLab ["srv"] "a" ["workspace", "w.txt"])).isNone = true ∧
    ((runFrom (symbolic defaultProfiles) emptyState (filledRun ++ cutRun)).tree.lookup
      (inLab ["srv"] "a" ["workspace"])).isSome = true ∧
    ((runFrom (symbolic defaultProfiles) emptyState
      (filledRun ++ cutRun ++ [.request (.reconcile none true 3 (.utc 2)) 2 []])).store.labs.get? "a").any
      (fun lab => lab.state = .approved) = true ∧
    ((runFrom (symbolic defaultProfiles) emptyState
      (filledRun ++ cutRun ++ [.request (.reconcile none true 3 (.utc 2)) 2 []])).tree.lookup
      (inLab ["srv"] "a" ["workspace"])).isSome = true := by
  decide +kernel

end LabOS
