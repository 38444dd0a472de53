import LabOS.Config.Environment
import LabOS.Db.Session

/-!
# The storage allocator

`allocate` makes the directories of a lab under the managed root, `destroy` removes the
whole tree of a lab after checking that it is under that root.
-/

namespace LabOS

open Exceptional FileOps

variable {β : Type}

structure StoragePolicy where
  filesystemMode : FilesystemMode
  persistenceMode : PersistenceMode
  diskMb : ℤ
  retentionDays : ℤ
  workspaceMountTarget : String := "/workspace"

structure StorageAllocation where
  labId : String
  rootPath : PosixPath
  workspacePath : PosixPath
  exportsPath : PosixPath
  quarantinePath : PosixPath
  snapshotsPath : PosixPath
  persistenceMode : PersistenceMode
  retentionDays : ℤ
  workspaceMountTarget : String := "/workspace"

namespace ManagedStorageAllocator

/-- `self.root / "labs" / lab_id`. -/
def labRoot (root : PosixPath) (labId : String) : PosixPath := root ++ ["labs", labId]

/-- The allocation of a lab: its paths, and what its policy says. -/
def allocationFor (root : PosixPath) (labId : String) (policy : StoragePolicy) : StorageAllocation where
  labId := labId
  rootPath := labRoot root labId
  workspacePath := labRoot root labId ++ ["workspace"]
  exportsPath := labRoot root labId ++ ["exports"]
  quarantinePath := labRoot root labId ++ ["quarantine"]
  snapshotsPath := labRoot root labId ++ ["snapshots"]
  persistenceMode := policy.persistenceMode
  retentionDays := policy.retentionDays
  workspaceMountTarget := policy.workspaceMountTarget

def allocate (root : PosixPath) (labId : String) (policy : StoragePolicy) : DiskM β StorageAllocation := do
  let allocation := allocationFor root labId policy
  [allocation.workspacePath, allocation.exportsPath, allocation.quarantinePath, allocation.snapshotsPath].forM
    fun path => files (makeDirs path)
  return allocation

theorem allocate_eq_ok {root : PosixPath} {labId : String} {policy : StoragePolicy}
    {allocation : StorageAllocation} {d d' : Disk β} (h : allocate root labId policy d = .ok allocation d') :
    allocation = allocationFor root labId policy := by
  obtain ⟨_, _, -, h⟩ := bind_eq_ok.mp h
  exact (pure_eq_ok.mp h).1.symm

def assertManagedPath (root path : PosixPath) : DiskM β Unit := do
  let resolved ← files (resolve path)
  raiseIf (¬ root <+: resolved) (.value "path must stay under the managed storage root")

def destroy (root : PosixPath) (allocation : StorageAllocation) : DiskM β Unit := do
  assertManagedPath root allocation.rootPath
  let there ← files (pathExists allocation.rootPath)
  whenever there (files (rmtree allocation.rootPath))

end ManagedStorageAllocator

/-- `_storage_allocation_from_row`, which raises for a persistence mode that is none. -/
def storageAllocationFromRow (row : LabStorageRow) : Except Exc StorageAllocation :=
  match PersistenceMode.ofValue row.persistenceMode with
  | none => .error (.value s!"'{row.persistenceMode}' is not a valid PersistenceMode")
  | some persistenceMode => .ok {
      labId := row.labId
      rootPath := row.rootPath
      workspacePath := row.workspacePath
      exportsPath := row.exportsPath
      quarantinePath := row.quarantinePath
      snapshotsPath := row.snapshotsPath
      persistenceMode := persistenceMode
      retentionDays := 0
      workspaceMountTarget := row.workspaceMountTarget
    }

/-- An allocation is for the root of its row. -/
theorem storageAllocationFromRow_eq_ok {row : LabStorageRow} {allocation : StorageAllocation}
    (h : storageAllocationFromRow row = .ok allocation) : allocation.rootPath = row.rootPath := by
  unfold storageAllocationFromRow at h
  split at h
  · cases h
  · obtain rfl := Except.ok.inj h
    rfl

end LabOS
