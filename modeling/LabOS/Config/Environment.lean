import LabOS.Config.Profiles
import LabOS.Storage.Codec

/-!
# The environment of the application

What `create_app` is given and what it takes from outside: the resolved managed storage
root, the profile table, the secrets of the process environment, the settings, the
library over file contents, and the identifiers `uuid4` gives, one after another. An
identifier is never given twice and is a plain name without dots.
-/

namespace LabOS

/-- A name that can be an identifier: plain, and without a suffix. -/
def isIdentifier (s : String) : Bool := PosixPath.isPlain s && !s.toList.contains '.'

structure Environment (β : Type) [Content β] where
  /-- The root of the storage allocator, as `resolve` gave it. -/
  root : PosixPath
  profiles : Profiles
  /-- The value of `LABOS_SECRET_<name>`. -/
  secrets : String → Option String := fun _ => none
  defaultRunTimeoutMinutes : ℤ := 60
  maxPendingJobsPerRequester : ℕ := 5
  codec : Codec β
  /-- The identifier that is taken when `n` have been taken before. -/
  uuid4 : ℕ → String
  rootPlain : ∀ n ∈ root, PosixPath.isPlain n = true
  uuid4_injective : Function.Injective uuid4
  uuid4_isIdentifier : ∀ n, isIdentifier (uuid4 n) = true

end LabOS
