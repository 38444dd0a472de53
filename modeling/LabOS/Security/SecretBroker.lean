import LabOS.Config.Environment
import LabOS.Db.Session

/-!
# Secret leases

A lease grants a lab the use of a secret its profile allows, for some minutes. The
broker resolves the secret when the lease is issued; the value is not kept, and resolved
again for each runtime that is given the leases of its lab.
-/

namespace LabOS

open Exceptional

variable {β : Type} [Content β]

/-- A lease as a runtime is given it. -/
structure SecretLease where
  name : String
  value : String
  approved : Bool
  expiresAt : DateTime
  deriving DecidableEq, Repr

namespace SecretLeaseService

/-- `EnvSecretBroker.resolve`. -/
def resolve (env : Environment β) (secretName : String) : SessionM β String :=
  orRaise (env.secrets secretName) (.secretNotFound secretName)

def issueLease (env : Environment β) (now : ℤ) (labId secretName : String) (ttlMinutes : ℤ) :
    SessionM β SecretLeaseRow := do
  raiseIf (ttlMinutes < 1) (.value "ttl_minutes must be at least 1")
  let lab ← getOr .labs labId (.lookup "lab")
  let profile ← fromExcept ((PolicyEngine.getProfile env.profiles lab.profileName).mapError Exc.policy)
  raiseIf (secretName ∉ profile.allowedSecretNames) (.value "secret_name is not allowed by profile")
  let _ ← resolve env secretName
  let id ← newId env.uuid4
  let lease : SecretLeaseRow := {
    id := id
    labId := labId
    secretName := secretName
    approved := true
    expiresAt := ((DateTime.utc now).addMinutes ttlMinutes).column
    revokedAt := none
    createdAt := (DateTime.utc now).column
  }
  addRow .secretLeases lease
  return lease

def revokeLease (now : ℤ) (leaseId : String) : SessionM β SecretLeaseRow := do
  let lease ← getOr .secretLeases leaseId (.lookup "secret_lease")
  raiseIf (lease.revokedAt.isSome = true) (.secretLeaseState "secret lease already revoked")
  let lease := { lease with revokedAt := some (DateTime.utc now).column }
  setRow .secretLeases lease
  return lease

/-- The order of a query for leases: `created_at`, then `id`. -/
def before (a b : SecretLeaseRow) : Prop :=
  a.createdAt.wall < b.createdAt.wall ∨ a.createdAt.wall = b.createdAt.wall ∧ a.id ≤ b.id

instance : DecidableRel before := fun a b => by unfold before; infer_instance

/-- Is the lease one a runtime of the lab is given? -/
def isLive (now : ℤ) (labId : String) (row : SecretLeaseRow) : Bool :=
  row.labId = labId && row.approved && row.revokedAt.isNone && now < row.expiresAt.wall

/-- The rows `materialize_runtime_leases` selects. -/
def liveLeases (store : Store) (now : ℤ) (labId : String) : List SecretLeaseRow :=
  store.secretLeases.select (isLive now labId) before

def materializeRuntimeLeases (env : Environment β) (now : ℤ) (labId : String) :
    SessionM β (List SecretLease) := do
  let s ← get
  (liveLeases s.store now labId).mapM fun row => do
    let value ← resolve env row.secretName
    return { name := row.secretName, value := value, approved := row.approved, expiresAt := row.expiresAt.normalize }

end SecretLeaseService

end LabOS
