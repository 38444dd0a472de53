import LabOS.Config.Environment
import LabOS.Db.Session

/-!
# The snapshot manager

A snapshot is an archive of a lab's workspace and a manifest beside it, both in the
lab's snapshots directory. A restore clears the workspace of the target lab, extracts
the archive over it, and rewrites the manifest.
-/

namespace LabOS

open Exceptional FileOps

variable {β : Type} [Content β]

namespace SnapshotManager

/-- `_ensure_runtime_supported`. -/
def ensureRuntimeSupported (runtimeClass : String) : DiskM β Unit :=
  raiseIf (runtimeClass ≠ RuntimeClass.container.value)
    (.unsupportedSnapshotRuntime "only container snapshots are supported in Phase 1")

/-- The archive of a snapshot in a snapshots directory. -/
def archivePath (snapshotsRoot : PosixPath) (snapshotId : String) : PosixPath :=
  snapshotsRoot ++ [snapshotId ++ ".tar.gz"]

/-- The manifest of a snapshot in a snapshots directory. -/
def manifestPath (snapshotsRoot : PosixPath) (snapshotId : String) : PosixPath :=
  snapshotsRoot ++ [snapshotId ++ ".json"]

def createSnapshot (env : Environment β) (now : ℤ) (snapshotId : String) (lab : LabRow)
    (storage : LabStorageRow) (runId : Option String) : DiskM β SnapshotMetadata := do
  ensureRuntimeSupported lab.runtimeClass.value
  let snapshotsRoot := storage.snapshotsPath
  files (makeDirs snapshotsRoot)
  let archivePath := archivePath snapshotsRoot snapshotId
  let manifestPath := manifestPath snapshotsRoot snapshotId
  let workspacePath := storage.workspacePath
  -- the archive is opened, and so created, before anything is added to it
  files (writeBytes archivePath (Content.truncate 0 (env.codec.tarGz [])))
  let members ← files (TarFile.add workspacePath "workspace")
  files (writeBytes archivePath (env.codec.tarGz members))
  let archive ← files (readBytes archivePath)
  let metadata : SnapshotMetadata := {
    snapshotId := snapshotId
    labId := lab.id
    runId := runId
    profileName := lab.profileName
    runtimeClass := lab.runtimeClass.value
    state := "created"
    backendRef := archivePath
    manifestPath := manifestPath
    sha256 := env.codec.sha256 archive
    sizeBytes := env.codec.size archive
    workspacePath := workspacePath
    createdAt := .utc now
  }
  files (writeBytes manifestPath (env.codec.dumps metadata.toDict))
  return metadata

/-- A snapshot that is created is of a container lab, and names its archive. -/
theorem createSnapshot_eq_ok {env : Environment β} {now : ℤ} {snapshotId : String} {lab : LabRow}
    {storage : LabStorageRow} {runId : Option String} {metadata : SnapshotMetadata} {d d' : Disk β}
    (h : createSnapshot env now snapshotId lab storage runId d = .ok metadata d') :
    lab.runtimeClass = .container ∧ metadata.backendRef = archivePath storage.snapshotsPath snapshotId := by
  unfold createSnapshot ensureRuntimeSupported at h
  simp only [bind_eq_ok, raiseIf_eq_ok, pure_eq_ok] at h
  obtain ⟨_, _, ⟨hruntime, -⟩, _, _, -, _, _, -, _, _, -, _, _, -, _, _, -, _, _, -, rfl, -⟩ := h
  refine ⟨?_, rfl⟩
  cases hr : lab.runtimeClass with
  | container => rfl
  | microvm => exact absurd (by rw [hr]; decide) hruntime

/-- `_manifest_path_for`. -/
def manifestPathFor (row : SnapshotRow) : PosixPath :=
  let name := PosixPath.name row.backendRef
  let suffixes := PosixPath.suffixes name
  if suffixes.drop (suffixes.length - 2) = [".tar", ".gz"] then
    PosixPath.withName row.backendRef (PosixPath.withSuffix (PosixPath.withSuffix name "") ".json")
  else PosixPath.withName row.backendRef (PosixPath.withSuffix name ".json")

/-- Read a manifest: `json.loads` and `SnapshotMetadata.from_dict`. -/
def parseManifest (env : Environment β) (text : β) : Except Exc SnapshotMetadata :=
  match env.codec.loads text with
  | .error .jsonDecode => .error (.snapshotMetadata "snapshot manifest is not valid JSON")
  | .error .malformed => .error .manifest
  | .ok payload =>
    match SnapshotMetadata.fromDict payload with
    | .error _ => .error .manifest
    | .ok metadata => .ok metadata

/-- **A manifest is read as it was written.** -/
theorem parseManifest_dumps (env : Environment β) (metadata : SnapshotMetadata) :
    parseManifest env (env.codec.dumps metadata.toDict) = .ok metadata := by
  simp only [parseManifest, env.codec.loads_dumps, SnapshotMetadata.fromDict_toDict]

def loadMetadata (env : Environment β) (row : SnapshotRow) : DiskM β (Option SnapshotMetadata) := do
  let there ← files (pathExists (manifestPathFor row))
  if there then do
    let text ← files (readBytes (manifestPathFor row))
    let metadata ← fromExcept (parseManifest env text)
    pure (some metadata)
  else pure none

/-- `_clear_directory`. -/
def clearDirectory (path : PosixPath) : DiskM β Unit := do
  let children ← files (iterdir path)
  children.forM fun child => do
    let directory ← files (isDir (path ++ [child]))
    if directory then files (rmtree (path ++ [child])) else files (unlink (path ++ [child]))

/-- Where a member would go: `extract_root / Path(member.name)`. -/
def memberPath (extractRoot : PosixPath) (name : PathText) : PosixPath :=
  if name.isAbsolute then name.parts else extractRoot ++ name.parts

/-- The manager's own check of the members of an archive. -/
def checkMembers (extractRoot : PosixPath) (members : List (Member β)) : DiskM β Unit :=
  members.forM fun member => do
    let resolved ← files (resolve (memberPath extractRoot member.name))
    raiseIf (¬ extractRoot <+: resolved) (.snapshotMetadata "snapshot archive contains an unsafe path")

/-- Move what was extracted under `workspace` to where the workspace is, unless it is there; which files then
have which names. -/
def moveExtracted (shared : Sharing) (extractedWorkspace workspacePath : PosixPath) : DiskM β Sharing :=
  if extractedWorkspace = workspacePath then return shared
  else do
    let there ← files (pathExists extractedWorkspace)
    if there then do
      clearDirectory workspacePath
      let shared ← files (look (fun t => some (shared.present t)) .osError)
      let children ← files (iterdir extractedWorkspace)
      let shared ← children.foldlM (fun shared child =>
        files (renameShared shared (extractedWorkspace ++ [child]) (workspacePath ++ [child]))) shared
      files (rmdir extractedWorkspace)
      return shared
    else return shared

def restoreSnapshot (env : Environment β) (now : ℤ) (row : SnapshotRow) (targetLab : LabRow)
    (targetStorage : LabStorageRow) : DiskM β SnapshotMetadata := do
  let loaded ← loadMetadata env row
  let metadata ← orRaise loaded (.snapshotMetadata "snapshot manifest is missing")
  ensureRuntimeSupported metadata.runtimeClass
  ensureRuntimeSupported targetLab.runtimeClass.value
  let archivePath := metadata.backendRef
  let there ← files (pathExists archivePath)
  raiseIf (there = false) (.snapshotMetadata "snapshot archive is missing")
  let workspacePath := targetStorage.workspacePath
  files (makeDirs workspacePath)
  clearDirectory workspacePath
  let extractRoot ← files (resolve (PosixPath.parent workspacePath))
  let archive ← files (readBytes archivePath)
  let members ← orRaise (env.codec.getmembers archive) (.file .tarError)
  checkMembers extractRoot members
  let shared ← files (TarFile.extractall extractRoot members)
  let extractedWorkspace := PosixPath.parent workspacePath ++ ["workspace"]
  let shared ← moveExtracted shared extractedWorkspace workspacePath
  let restored : SnapshotMetadata := {
    metadata with
    state := "restored"
    restoredAt := some (.utc now)
    restoredLabId := some targetLab.id
  }
  -- a hard link of the archive may have made the manifest another name of a file
  files (writeThrough shared metadata.manifestPath (env.codec.dumps restored.toDict))
  return restored

end SnapshotManager

end LabOS
