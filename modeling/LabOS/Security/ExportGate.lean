import LabOS.Config.Environment
import LabOS.Db.Session
import LabOS.Library.Strings

/-!
# The export gate

An artifact leaves a lab in two steps. `stageExport` copies a file of the lab's exports
directory into quarantine, under a directory of its own; `releaseExport` copies it from
there to the released area, unless the export was rejected or released before or still
requires an approval. `denyExport` rejects an export.
-/

namespace LabOS

open Exceptional FileOps

variable {β : Type} [Content β]

structure ExportProvenance where
  labId : String
  runId : Option String
  sourcePath : String
  quarantinePath : PosixPath
  releasedPath : Option PosixPath
  sizeBytes : ℕ
  sha256 : String

structure ExportStageResult where
  provenance : ExportProvenance
  approvalRequired : Bool
  state : ExportState
  denialReason : Option String := none

namespace ExportGate

/-- `GUEST_EXPORT_ROOT`. -/
def guestExportRoot : PurePath := ⟨.slash, ["lab", "exports"]⟩

/-- `RELEASED_DIRNAME`. -/
def releasedDirname : String := "released"

/-- `_resolve_managed_source`. -/
def resolveManagedSource (storage : LabStorageRow) (sourcePath : String) : DiskM β PosixPath := do
  let relative ← orRaise ((PurePath.parse sourcePath).relativeTo guestExportRoot)
    (.exportPolicy "exports must use a managed guest export path")
  let exportsRoot ← files (resolve storage.exportsPath)
  let source ← files (resolve (exportsRoot ++ relative))
  raiseIf (¬ exportsRoot <+: source) (.exportPolicy "export path escapes managed exports root")
  return source

def stageExport (env : Environment β) (exportId : String) (lab : LabRow) (storage : LabStorageRow)
    (sourcePath : String) (runId : Option String) : DiskM β ExportStageResult := do
  let decision ← fromExcept
    ((PolicyEngine.validateExport env.profiles lab.profileName sourcePath).mapError Exc.policy)
  raiseIf (decision.allowed = false) (.exportPolicy decision.reason)
  let source ← resolveManagedSource storage sourcePath
  let there ← files (pathExists source)
  let regular ← files (isFile source)
  raiseIf (there = false ∨ regular = false) (.exportSourceNotFound sourcePath)
  let quarantineDir := storage.quarantinePath ++ [exportId]
  files (makeDirs quarantineDir)
  let quarantinePath := quarantineDir ++ [PosixPath.name source]
  files (copy2 source quarantinePath)
  let artifact ← files (readBytes quarantinePath)
  return {
    provenance := {
      labId := lab.id
      runId := runId
      sourcePath := sourcePath
      quarantinePath := quarantinePath
      releasedPath := none
      sizeBytes := env.codec.size artifact
      sha256 := env.codec.sha256 artifact
    }
    approvalRequired := decision.approvalRequired
    state := .quarantined
  }

/-- Where an export is released to. -/
def releasedDir (storage : LabStorageRow) (exportId : String) : PosixPath :=
  storage.rootPath ++ [releasedDirname, exportId]

def releaseExport (row : ExportRow) (storage : LabStorageRow) : DiskM β ExportStageResult := do
  raiseIf (row.state = .rejected) (.exportState "export_already_rejected")
  raiseIf (row.state = .released) (.exportState "export_already_released")
  raiseIf (row.approvalRequired = true) (.exportPolicy "export_approval_required")
  let quarantinePath := row.quarantinePath
  let there ← files (pathExists quarantinePath)
  let regular ← files (isFile quarantinePath)
  raiseIf (there = false ∨ regular = false) (.exportSourceNotFound row.sourcePath)
  files (makeDirs (releasedDir storage row.id))
  let releasedPath := releasedDir storage row.id ++ [PosixPath.name quarantinePath]
  files (copy2 quarantinePath releasedPath)
  return {
    provenance := {
      labId := row.labId
      runId := row.runId
      sourcePath := row.sourcePath
      quarantinePath := row.quarantinePath
      releasedPath := some releasedPath
      sizeBytes := row.sizeBytes
      sha256 := row.sha256
    }
    approvalRequired := row.approvalRequired
    state := .released
  }

def denyExport (row : ExportRow) (reason : String) : Except Exc ExportStageResult :=
  if row.state = .released then .error (.exportState "export_already_released")
  else if row.state = .rejected then .error (.exportState "export_already_rejected")
  else if Strings.isBlank reason then .error (.exportState "export_denial_reason_required")
  else .ok {
    provenance := {
      labId := row.labId
      runId := row.runId
      sourcePath := row.sourcePath
      quarantinePath := row.quarantinePath
      releasedPath := none
      sizeBytes := row.sizeBytes
      sha256 := row.sha256
    }
    approvalRequired := row.approvalRequired
    state := .rejected
    denialReason := some reason
  }

/-! ### What the gate does -/

/-- **A staged export** asks for an approval as the profile of its lab does, and says
where its artifact is, of what size and with what hash. -/
theorem stageExport_eq_ok {env : Environment β} {exportId : String} {lab : LabRow} {storage : LabStorageRow}
    {sourcePath : String} {runId : Option String} {staged : ExportStageResult} {d d' : Disk β}
    (h : stageExport env exportId lab storage sourcePath runId d = .ok staged d') :
    (∃ profile, PolicyEngine.profile? env.profiles lab.profileName = some profile ∧
      staged.approvalRequired = profile.approvalOnExport) ∧
    staged.state = .quarantined ∧ staged.provenance.releasedPath = none ∧
    (∃ name, staged.provenance.quarantinePath = storage.quarantinePath ++ [exportId, name]) ∧
    ∃ b, d'.tree.stat staged.provenance.quarantinePath = some (.file b) ∧
      staged.provenance.sizeBytes = env.codec.size b ∧ staged.provenance.sha256 = env.codec.sha256 b := by
  unfold stageExport at h
  simp only [bind_eq_ok, raiseIf_eq_ok, fromExcept_eq_ok, mapError_eq_ok, files_eq_ok, pure_eq_ok] at h
  obtain ⟨decision, _, ⟨hdecision, rfl⟩, _, _, ⟨hallowed, rfl⟩, source, _, -, _, _, -, _, _,
      -, _, _, ⟨-, rfl⟩,
    _, _, -, _, d₁, -, artifact, d₂, hread, rfl, rfl⟩ := h
  obtain ⟨hb, rfl⟩ := readBytes_eq_ok hread
  obtain ⟨profile, hp, happroval⟩ := PolicyEngine.validateExport_eq_ok hdecision (by simpa using hallowed)
  exact ⟨⟨profile, hp, happroval⟩, rfl, rfl, ⟨PosixPath.name source, by simp⟩, artifact, hb, rfl, rfl⟩

/-- **A released export** was neither rejected nor released nor waiting, and its artifact
has been copied to the released area. -/
theorem releaseExport_eq_ok {row : ExportRow} {storage : LabStorageRow}
    {released : ExportStageResult} {d d' : Disk β} (h : releaseExport row storage d = .ok released d') :
    row.state ≠ .rejected ∧ row.state ≠ .released ∧ row.approvalRequired = false ∧
      released.state = .released ∧
    released.provenance.releasedPath = some
      (releasedDir storage row.id ++ [PosixPath.name row.quarantinePath]) ∧
    ∃ u d₁, makeDirs (releasedDir storage row.id) d = .ok u d₁ ∧
      copy2 row.quarantinePath
        (releasedDir storage row.id ++ [PosixPath.name row.quarantinePath]) d₁ = .ok u d' := by
  unfold releaseExport at h
  simp only [bind_eq_ok, raiseIf_eq_ok, files_eq_ok, pure_eq_ok] at h
  obtain ⟨_, _, ⟨hrejected, rfl⟩, _, _, ⟨hreleased, rfl⟩, _, _, ⟨happroval, rfl⟩, _, _, hthere, _,
      _, hregular, _, _,
    ⟨-, rfl⟩, _, d₁, hdirs, u, d₂, hcopy, rfl, rfl⟩ := h
  obtain ⟨-, rfl⟩ := look_eq_ok.mp hthere
  obtain ⟨-, rfl⟩ := look_eq_ok.mp hregular
  exact ⟨hrejected, hreleased, by simpa using happroval, rfl, rfl, (), d₁, hdirs, hcopy⟩

/-- A denied export was neither released nor rejected, and the reason is not blank. -/
theorem denyExport_eq_ok {row : ExportRow} {reason : String} {denied : ExportStageResult}
    (h : denyExport row reason = .ok denied) :
    row.state ≠ .rejected ∧ row.state ≠ .released ∧ Strings.isBlank reason = false ∧
      denied.state = .rejected ∧
      denied.denialReason = some reason := by
  unfold denyExport at h
  split at h
  · cases h
  · next hreleased =>
    split at h
    · cases h
    · next hrejected =>
      split at h
      · cases h
      · next hblank =>
        obtain rfl := Except.ok.inj h
        exact ⟨hrejected, hreleased, by simpa using hblank, rfl, rfl⟩

end ExportGate

end LabOS
