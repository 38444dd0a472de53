import LabOS.Db.Schema
import LabOS.Library.TarFile

/-!
# Manifests, archives and hashes

What the storage layer takes from the standard library: `tarfile` and `gzip`, `json`,
`hashlib`. A `Codec` is any such library over a type `β` of file contents, with what is
relied on as laws: an archive and a manifest read back as they were written, and what an
interrupted write left of one reads as no more than was written.

`SnapshotMetadata` is written to a manifest through `toDict` and read through
`fromDict`; `fromDict_toDict` is the round trip.
-/

namespace LabOS

/-- A value in a manifest. The texts of paths and times are kept apart from other texts. -/
inductive Scalar where
  | null
  | int (n : ℕ)
  | str (s : String)
  | path (p : PosixPath)
  | time (d : DateTime)
  deriving DecidableEq, Repr

/-- A decoded manifest. -/
abbrev Manifest := List (String × Scalar)

/-- Why a manifest cannot be loaded: it is not JSON, or not a manifest. -/
inductive LoadError where
  | jsonDecode
  | malformed
  deriving DecidableEq, Repr

structure SnapshotMetadata where
  snapshotId : String
  labId : String
  runId : Option String
  profileName : String
  runtimeClass : String
  state : String
  backendRef : PosixPath
  manifestPath : PosixPath
  sha256 : String
  sizeBytes : ℕ
  workspacePath : PosixPath
  createdAt : DateTime
  restoredAt : Option DateTime := none
  restoredLabId : Option String := none
  deriving DecidableEq, Repr

namespace SnapshotMetadata

/-- `to_dict`. -/
def toDict (m : SnapshotMetadata) : Manifest :=
  [("snapshot_id", .str m.snapshotId),
   ("lab_id", .str m.labId),
   ("run_id", m.runId.elim .null .str),
   ("profile_name", .str m.profileName),
   ("runtime_class", .str m.runtimeClass),
   ("state", .str m.state),
   ("backend_ref", .path m.backendRef),
   ("manifest_path", .path m.manifestPath),
   ("sha256", .str m.sha256),
   ("size_bytes", .int m.sizeBytes),
   ("workspace_path", .path m.workspacePath),
   ("created_at", .time m.createdAt),
   ("restored_at", m.restoredAt.elim .null .time),
   ("restored_lab_id", m.restoredLabId.elim .null .str)]

/-- `payload[key]`. -/
def field (payload : Manifest) (key : String) : Except LoadError Scalar :=
  match payload.find? fun f => f.1 = key with
  | some f => .ok f.2
  | none => .error .malformed

def strField (payload : Manifest) (key : String) : Except LoadError String :=
  match field payload key with
  | .ok (.str s) => .ok s
  | _ => .error .malformed

def pathField (payload : Manifest) (key : String) : Except LoadError PosixPath :=
  match field payload key with
  | .ok (.path p) => .ok p
  | _ => .error .malformed

def intField (payload : Manifest) (key : String) : Except LoadError ℕ :=
  match field payload key with
  | .ok (.int n) => .ok n
  | _ => .error .malformed

def timeField (payload : Manifest) (key : String) : Except LoadError DateTime :=
  match field payload key with
  | .ok (.time d) => .ok d
  | _ => .error .malformed

/-- `_optional_string(payload.get(key))`. -/
def optionalString (payload : Manifest) (key : String) : Except LoadError (Option String) :=
  match field payload key with
  | .ok .null | .error _ => .ok none
  | .ok (.str s) => .ok (some s)
  | _ => .error .malformed

def optionalTime (payload : Manifest) (key : String) : Except LoadError (Option DateTime) :=
  match field payload key with
  | .ok .null | .error _ => .ok none
  | .ok (.time d) => .ok (some d)
  | _ => .error .malformed

/-- `from_dict`. -/
def fromDict (payload : Manifest) : Except LoadError SnapshotMetadata := do
  let snapshotId ← strField payload "snapshot_id"
  let labId ← strField payload "lab_id"
  let runId ← optionalString payload "run_id"
  let profileName ← strField payload "profile_name"
  let runtimeClass ← strField payload "runtime_class"
  let state ← strField payload "state"
  let backendRef ← pathField payload "backend_ref"
  let manifestPath ← pathField payload "manifest_path"
  let sha256 ← strField payload "sha256"
  let sizeBytes ← intField payload "size_bytes"
  let workspacePath ← pathField payload "workspace_path"
  let createdAt ← timeField payload "created_at"
  let restoredAt ← optionalTime payload "restored_at"
  let restoredLabId ← optionalString payload "restored_lab_id"
  return { snapshotId, labId, runId, profileName, runtimeClass, state, backendRef, manifestPath, sha256, sizeBytes,
           workspacePath, createdAt, restoredAt, restoredLabId }

/-- **Metadata survives its manifest.** -/
theorem fromDict_toDict (m : SnapshotMetadata) : fromDict m.toDict = .ok m := by
  obtain ⟨a, b, runId, c, d, e, f, g, h, i, j, k, restoredAt, restoredLabId⟩ := m
  cases runId <;> cases restoredAt <;> cases restoredLabId <;> rfl

end SnapshotMetadata

/-- The archive, manifest and hash functions over file contents `β`. -/
structure Codec (β : Type) [Content β] where
  /-- A gzipped tar file. -/
  tarGz : List (Member β) → β
  /-- `getmembers` of a file opened as a gzipped tar file; nothing where it is none. -/
  getmembers : β → Option (List (Member β))
  /-- `json.dumps`. -/
  dumps : Manifest → β
  /-- `json.loads` of the text of a file. -/
  loads : β → Except LoadError Manifest
  /-- The number of bytes. -/
  size : β → ℕ
  /-- `hashlib.sha256`. -/
  sha256 : β → String
  getmembers_tarGz : ∀ ms, getmembers (tarGz ms) = some ms
  /-- Of a truncated archive no more than its first members can be read. -/
  getmembers_truncate : ∀ n ms ms', getmembers (Content.truncate n (tarGz ms)) = some ms' → ms' <+: ms
  loads_dumps : ∀ o, loads (dumps o) = .ok o
  /-- A truncated JSON object is no other JSON object. -/
  loads_truncate : ∀ n o o', loads (Content.truncate n (dumps o)) = .ok o' → o' = o

end LabOS
