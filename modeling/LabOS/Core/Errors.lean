import LabOS.Core.PolicyEngine
import LabOS.Library.FileOps

/-!
# Exceptions

What the code raises, from all layers: the API's own errors and the HTTP errors the
handlers answer with, the export gate's and the snapshot manager's, and what policy
evaluation, the file system and the database raise.
-/

namespace LabOS

inductive Exc where
  /-- `ResourceNotFoundError`. -/
  | resourceNotFound (resource : String)
  /-- `ConflictError`. -/
  | conflict (detail : String) (resource : Option String)
  /-- `HTTPException`. -/
  | http (status : ℕ) (detail : String)
  /-- `RequestValidationError`. -/
  | requestValidation
  | policy (e : PolicyError)
  | exportSourceNotFound (sourcePath : String)
  | exportPolicy (message : String)
  | exportState (message : String)
  | unsupportedSnapshotRuntime (message : String)
  | snapshotMetadata (message : String)
  | manifest
  | secretNotFound (secretName : String)
  | secretLeaseState (message : String)
  | schedulerQuotaExceeded
  /-- `LookupError`. -/
  | lookup (message : String)
  /-- `ValueError`. -/
  | value (message : String)
  | assertion
  | file (e : FileError)
  | integrity
  | database
  deriving DecidableEq, Repr

/-- `str(exc)`. The texts of the operating system and of the database are not modelled. -/
def Exc.text : Exc → String
  | .resourceNotFound resource => resource
  | .conflict detail _ => detail
  | .http status detail => s!"{status}: {detail}"
  | .policy (.keyError message) => s!"'{message}'"
  | .policy (.valueError message) => message
  | .exportSourceNotFound sourcePath => sourcePath
  | .exportPolicy message => message
  | .exportState message => message
  | .unsupportedSnapshotRuntime message => message
  | .snapshotMetadata message => message
  | .secretNotFound secretName => s!"'{secretName}'"
  | .secretLeaseState message => message
  | .lookup message => message
  | .value message => message
  | _ => ""

end LabOS
