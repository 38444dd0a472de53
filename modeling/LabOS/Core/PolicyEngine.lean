import LabOS.Core.PolicyModels
import LabOS.Library.Exceptional
import LabOS.Library.Json
import LabOS.Library.Paths
import Mathlib.Data.List.Sort

/-!
# The policy engine

`validateRequest` turns a profile and the overrides of a request into a decision, or
says why it does not; `validateExport` decides whether a path may be exported and
whether that takes an approval. A Python exception is an error of the model with the
exception's class, since the callers tell them apart.

## What is proved

* `validateRequest_eq_ok` — the decision repeats the profile, and asks for an approval
  exactly when the profile does at start or a requester that is not human asks for a
  high-risk profile.
* `validateExport_eq_ok` — an allowed export asks for an approval exactly when its
  profile does.
-/

namespace LabOS

/-- What policy evaluation raises. -/
inductive PolicyError where
  | keyError (message : String)
  | valueError (message : String)
  | typeError
  deriving DecidableEq, Repr

/-- `MANAGED_EXPORT_PREFIXES`. -/
def managedExportPrefixes : List String := ["/lab/exports/", "/artifacts/approved/"]

/-- `FORBIDDEN_HOST_MOUNT_PATHS`. -/
def forbiddenHostMountPaths : List PurePath :=
  [⟨.slash, ["var", "run", "docker.sock"]⟩, ⟨.slash, ["run", "docker.sock"]⟩]

/-- `FORBIDDEN_HOST_MOUNT_PREFIXES`. -/
def forbiddenHostMountPrefixes : List PurePath :=
    [⟨.slash, ["home"]⟩, ⟨.slash, ["root"]⟩, ⟨.slash, ["Users"]⟩]

/-- The plan a request is granted. -/
structure RequestDecision where
  profileName : String
  runtimeClass : RuntimeClass
  networkMode : NetworkMode
  filesystemMode : FilesystemMode
  persistenceMode : PersistenceMode
  exportMode : ExportMode
  cpuLimit : ℤ
  memoryMb : ℤ
  diskMb : ℤ
  maxRuntimeMinutes : ℤ
  approvalRequired : Bool
  approvalReasons : List String
  riskClass : RiskClass
  injectedSecrets : List Json
  hostMountsAllowed : Bool
  auditLevel : AuditLevel
  retentionDays : ℤ

structure ExportDecision where
  allowed : Bool
  approvalRequired : Bool
  quarantineRequired : Bool
  reason : String
  deriving DecidableEq, Repr

/-- The table of profiles, under their names. -/
abbrev Profiles := List (String × Profile)

namespace PolicyEngine

open Exceptional

/-- `self.profiles[name]`. -/
def profile? (profiles : Profiles) (name : String) : Option Profile :=
  (profiles.find? fun entry => entry.1 = name).map Prod.snd

/-- `get_profile`. -/
def getProfile (profiles : Profiles) (name : String) : Except PolicyError Profile :=
  match profile? profiles name with
  | some profile => .ok profile
  | none => .error (.keyError s!"unknown profile: {name}")

/-- The value a profile fixes for a field. -/
inductive Locked where
  | text (s : String)
  | number (n : ℤ)

/-- Does a requested value differ from the one the profile fixes? -/
def Locked.differs : Locked → Json → Bool
  | .text s, v => !v.eqStr s
  | .number n, v => !v.eqInt n

/-- `_enforce_profile_locked_field`. -/
def enforceProfileLockedField (fieldName : String) (requestedOverrides : List (String × Json))
    (expected : Locked) :
    Except PolicyError Unit :=
  match Json.get? requestedOverrides fieldName with
  | none => .ok ()
  | some v => if expected.differs v then .error (.valueError s!"{fieldName} is fixed by profile") else .ok ()

/-- The checks on one entry of `host_mounts`. -/
def validateMountEntry : Json → Except PolicyError Unit
  | .str entry =>
    if ':' ∉ entry.toList then .error (.valueError "host_mounts entries must use SOURCE:TARGET format")
    else
      let hostPath := PurePath.parse (String.ofList (entry.toList.takeWhile (· ≠ ':')))
      if hostPath ∈ forbiddenHostMountPaths then .error (.valueError "Docker socket mounts are forbidden")
      else if forbiddenHostMountPrefixes.any fun pre => hostPath.selfAndParents.contains pre then
        .error (.valueError "host mounts under home directories are forbidden")
      else .ok ()
  | _ => .error (.valueError "host_mounts entries must use SOURCE:TARGET format")

/-- `RequesterType(requester_type)`. -/
def requesterOf (requesterType : String) : Except PolicyError RequesterType :=
  match RequesterType.ofValue requesterType with
  | some requester => .ok requester
  | none => .error (.valueError s!"'{requesterType}' is not a valid RequesterType")

/-- The check of `inherit_host_env`. -/
def forbidHostEnv (requestedOverrides : List (String × Json)) : Except PolicyError Unit :=
  if ((Json.get? requestedOverrides "inherit_host_env").getD .null).truthy then
    .error (.valueError "host environment inheritance is forbidden")
  else .ok ()

/-- `_validate_host_mounts`. -/
def validateHostMounts (hostMounts : Json) (hostMountsAllowed : Bool) : Except PolicyError Unit :=
  match hostMounts with
  | .null | .arr [] => .ok ()
  | .arr entries =>
    if hostMountsAllowed = false then
      .error (.valueError "host mounts are forbidden unless the profile explicitly allows them")
    else entries.forM validateMountEntry
  | _ => .error (.valueError "host_mounts must be a list of SOURCE:TARGET entries")

/-- The nine fields a profile fixes, with its values. -/
def lockedFields (profile : Profile) : List (String × Locked) :=
  [("network_mode", .text profile.networkMode.value),
   ("runtime_class", .text profile.runtimeClass.value),
   ("filesystem_mode", .text profile.filesystemMode.value),
   ("persistence_mode", .text profile.persistenceMode.value),
   ("export_mode", .text profile.exportMode.value),
   ("cpu_limit", .number profile.cpuLimit),
   ("memory_mb", .number profile.memoryMb),
   ("disk_mb", .number profile.diskMb),
   ("max_runtime_minutes", .number profile.maxRuntimeMinutes)]

/-- The names of the fields are those of the overrides that are compared, whatever the profile. -/
theorem names_lockedFields (profile : Profile) :
    (lockedFields profile).map Prod.fst =
    ["network_mode", "runtime_class", "filesystem_mode", "persistence_mode",
      "export_mode", "cpu_limit", "memory_mb", "disk_mb", "max_runtime_minutes"] :=
  rfl

/-- `set(requested) - set(allowed)` where every value can be put in a set. -/
def unknownSecrets (requested : List Json) (allowed : List String) : List Json :=
  requested.filter fun v => !allowed.any fun s => v.eqStr s

/-- The texts of values that are all strings. -/
def texts? : List Json → Option (List String)
  | [] => some []
  | .str s :: vs => (texts? vs).map (s :: ·)
  | _ :: _ => none

/-- The check of the requested secrets, which gives the list of them. -/
def validateSecrets (requested : Json) (allowed : List String) : Except PolicyError (List Json) :=
  match requested with
  | .arr secrets =>
    if secrets.any (fun v => !v.hashable) then .error .typeError
    else match unknownSecrets secrets allowed with
      | [] => .ok secrets
      | unknown =>
        match texts? unknown with
        | some names =>
          let secretList := ", ".intercalate (names.dedup.insertionSort (· ≤ ·))
          .error (.valueError s!"requested secrets are not allowed by profile: {secretList}")
        | none => .error .typeError
  | _ => .error (.valueError "requested secrets must be a list of names")

/-- Why a request needs an approval. -/
def approvalReasons (profile : Profile) (requester : RequesterType) : List String :=
  (if profile.approvalOnStart then ["profile requires start approval"] else []) ++
    if requester ≠ .human ∧ profile.riskClass.isHigh then
      ["non-human requesters need approval for high-risk profiles"]
    else []

/-- `validate_request`. -/
def validateRequest (profiles : Profiles) (profileName : String) (requestedOverrides : List (String × Json))
    (requesterType : String) : Except PolicyError RequestDecision := do
  let profile ← getProfile profiles profileName
  let requester ← requesterOf requesterType
  forbidHostEnv requestedOverrides
  validateHostMounts ((Json.get? requestedOverrides "host_mounts").getD (.arr [])) profile.allowHostMounts
  (lockedFields profile).forM fun field => enforceProfileLockedField field.1 requestedOverrides field.2
  let requestedSecrets ← validateSecrets ((Json.get? requestedOverrides "secrets").getD (.arr []))
    profile.allowedSecretNames
  return {
    profileName := profile.name
    runtimeClass := profile.runtimeClass
    networkMode := profile.networkMode
    filesystemMode := profile.filesystemMode
    persistenceMode := profile.persistenceMode
    exportMode := profile.exportMode
    cpuLimit := profile.cpuLimit
    memoryMb := profile.memoryMb
    diskMb := profile.diskMb
    maxRuntimeMinutes := profile.maxRuntimeMinutes
    approvalRequired := !(approvalReasons profile requester).isEmpty
    approvalReasons := approvalReasons profile requester
    riskClass := profile.riskClass
    injectedSecrets := requestedSecrets
    hostMountsAllowed := profile.allowHostMounts
    auditLevel := profile.auditLevel
    retentionDays := profile.retentionDays
  }

/-- What `validate_export` answers for a profile. -/
def exportDecision (profile : Profile) (exportPath : String) : ExportDecision :=
  if managedExportPrefixes.any fun pre => pre.toList.isPrefixOf exportPath.toList then
    { allowed := true
      approvalRequired := profile.approvalOnExport
      quarantineRequired := profile.riskClass.isHigh
      reason := "managed export path accepted" }
  else
    { allowed := false
      approvalRequired := true
      quarantineRequired := true
      reason := "exports must originate from managed LabOS paths" }

/-- `validate_export`. -/
def validateExport (profiles : Profiles) (profileName exportPath : String) :
    Except PolicyError ExportDecision := do
  let profile ← getProfile profiles profileName
  return exportDecision profile exportPath

/-! ### What a decision says -/

theorem getProfile_eq_ok {profiles : Profiles} {name : String} {profile : Profile} :
    getProfile profiles name = .ok profile ↔ profile? profiles name = some profile := by
  unfold getProfile
  cases profile? profiles name <;> simp

theorem requesterOf_value (requester : RequesterType) : requesterOf requester.value = .ok requester := by
  cases requester <;> rfl

/-- Does a profile ask for an approval before a lab of it starts? -/
def demandsApproval (profile : Profile) (requester : RequesterType) : Bool :=
  profile.approvalOnStart || requester ≠ .human && profile.riskClass.isHigh

theorem isEmpty_approvalReasons (profile : Profile) (requester : RequesterType) :
    (approvalReasons profile requester).isEmpty = !demandsApproval profile requester := by
  unfold approvalReasons demandsApproval
  cases profile.approvalOnStart <;> cases profile.riskClass.isHigh <;> by_cases h :
    requester = .human <;> simp [h]

/-- **A decision repeats its profile**, and asks for an approval as the profile does. -/
theorem validateRequest_eq_ok {profiles : Profiles} {profileName : String} {overrides : List (String × Json)}
    {requester : RequesterType} {decision : RequestDecision}
    (h : validateRequest profiles profileName overrides requester.value = .ok decision) :
    ∃ profile, profile? profiles profileName = some profile ∧ decision.profileName = profile.name ∧
      decision.runtimeClass = profile.runtimeClass ∧ decision.persistenceMode = profile.persistenceMode ∧
      decision.approvalRequired = demandsApproval profile requester := by
  obtain ⟨profile, hp, h⟩ := except_bind_eq_ok.mp h
  obtain ⟨requester', hr, h⟩ := except_bind_eq_ok.mp h
  obtain ⟨_, -, h⟩ := except_bind_eq_ok.mp h
  obtain ⟨_, -, h⟩ := except_bind_eq_ok.mp h
  obtain ⟨_, -, h⟩ := except_bind_eq_ok.mp h
  obtain ⟨_, -, h⟩ := except_bind_eq_ok.mp h
  obtain rfl := Except.ok.inj h
  rw [requesterOf_value] at hr
  obtain rfl := Except.ok.inj hr
  exact ⟨profile, getProfile_eq_ok.mp hp, rfl, rfl, rfl, by simp [isEmpty_approvalReasons]⟩

/-- A request without overrides is refused only for an unknown profile. -/
theorem validateRequest_of_profile {profiles : Profiles} {profileName : String} {requester : RequesterType}
    {profile : Profile} (h : profile? profiles profileName = some profile) :
    ∃ decision, validateRequest profiles profileName [] requester.value = .ok decision := by
  unfold validateRequest
  rw [getProfile_eq_ok.mpr h, requesterOf_value]
  exact ⟨_, rfl⟩

/-- **An allowed export** is of a known profile and asks for an approval as the profile does. -/
theorem validateExport_eq_ok {profiles : Profiles} {profileName exportPath : String}
    {decision : ExportDecision} (h : validateExport profiles profileName exportPath = .ok decision)
    (hallowed : decision.allowed = true) :
    ∃ profile, profile? profiles profileName = some profile ∧
      decision.approvalRequired = profile.approvalOnExport := by
  obtain ⟨profile, hp, h⟩ := except_bind_eq_ok.mp h
  obtain rfl := Except.ok.inj h
  refine ⟨profile, getProfile_eq_ok.mp hp, ?_⟩
  unfold exportDecision at hallowed ⊢
  split at hallowed
  · rw [if_pos ‹_›]
  · cases hallowed

end PolicyEngine

end LabOS
