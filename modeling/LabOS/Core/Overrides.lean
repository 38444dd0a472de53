import LabOS.Config.Profiles

/-!
# What the overrides of a request can do

A request may carry overrides: values for fields that its profile fixes, host mounts, names of
secrets. They are decoded JSON of any shape. The engine compares, never copies, all but the names
of secrets, so that the plan a request is granted is the plan of its profile.

## What is proved

* `validateRequest_eq_ok_iff` — the requests that are accepted, and the plan they are granted.
* `plan_fixed_by_profile` — **two accepted requests for a profile are granted the same plan**, but
  for their own secrets, and a value for a fixed field that is not the profile's is rejected.
* `validateRequest_eq_typeError_iff` — the requests that fail in a way no caller handles.
* `rejected_as_handled_iff` — **a request fails only as its callers expect exactly when** the
  secrets that get as far as being compared are all strings.

## Where the code parts from its callers

`rejected_unhandled`: a list of secrets with a number in it raises a `TypeError`.
-/

namespace LabOS

open Exceptional

namespace PolicyEngine

variable {profiles : Profiles} {profileName requesterType : String} {overrides : List (String × Json)}
  {profile : Profile} {decision : RequestDecision}

/-- `requested_overrides.get("secrets", [])`. -/
def requestedSecrets (overrides : List (String × Json)) : Json :=
    (Json.get? overrides "secrets").getD (.arr [])

/-- The plan of a profile, with the secrets of a request. -/
def plan (profile : Profile) (requester : RequesterType) (secrets : List Json) : RequestDecision where
  profileName := profile.name
  runtimeClass := profile.runtimeClass
  networkMode := profile.networkMode
  filesystemMode := profile.filesystemMode
  persistenceMode := profile.persistenceMode
  exportMode := profile.exportMode
  cpuLimit := profile.cpuLimit
  memoryMb := profile.memoryMb
  diskMb := profile.diskMb
  maxRuntimeMinutes := profile.maxRuntimeMinutes
  approvalRequired := !(approvalReasons profile requester).isEmpty
  approvalReasons := approvalReasons profile requester
  riskClass := profile.riskClass
  injectedSecrets := secrets
  hostMountsAllowed := profile.allowHostMounts
  auditLevel := profile.auditLevel
  retentionDays := profile.retentionDays

/-! ### The checks -/

theorem requesterOf_eq_ok {requester : RequesterType} :
    requesterOf requesterType = .ok requester ↔ RequesterType.ofValue requesterType = some requester := by
  unfold requesterOf
  cases RequesterType.ofValue requesterType <;> simp

theorem forbidHostEnv_eq_ok {u : Unit} : forbidHostEnv overrides = .ok u ↔
    ((Json.get? overrides "inherit_host_env").getD .null).truthy = false := by
  unfold forbidHostEnv
  split <;> simp [*]

theorem enforceProfileLockedField_eq_ok {fieldName : String} {expected : Locked} :
    enforceProfileLockedField fieldName overrides expected = .ok () ↔
      ∀ v, Json.get? overrides fieldName = some v → expected.differs v = false := by
  unfold enforceProfileLockedField
  cases hv : Json.get? overrides fieldName with
  | none => simp
  | some v => cases hdiffers : expected.differs v <;> simp [hdiffers]

/-- The request passes every check before that of its secrets. -/
structure Unobjectionable (profile : Profile) (overrides : List (String × Json))
    (requesterType : String) : Prop where
  requester : ∃ requester, RequesterType.ofValue requesterType = some requester
  hostEnv : ((Json.get? overrides "inherit_host_env").getD .null).truthy = false
  mounts : validateHostMounts
    ((Json.get? overrides "host_mounts").getD (.arr [])) profile.allowHostMounts = .ok ()
  locked : ∀ field ∈ lockedFields profile, ∀ v, Json.get? overrides field.1 = some v →
    field.2.differs v = false

/-! ### Secrets -/

theorem eqStr_iff {v : Json} {s : String} : v.eqStr s = true ↔ v = .str s := by
  cases v <;> simp [Json.eqStr]

theorem mem_unknownSecrets {requested : List Json} {allowed : List String} {v : Json} :
    v ∈ unknownSecrets requested allowed ↔ v ∈ requested ∧ ∀ name ∈ allowed, v ≠ .str name := by
  simp [unknownSecrets, eqStr_iff]

theorem texts?_eq_none {vs : List Json} : texts? vs = none ↔ ∃ v ∈ vs, ∀ s, v ≠ .str s := by
  induction vs with
  | nil => simp [texts?]
  | cons v vs ih => cases v <;> simp [texts?, ih]

theorem validateSecrets_eq_ok {requested : Json} {allowed : List String} {secrets : List Json} :
    validateSecrets requested allowed = .ok secrets ↔
      requested = .arr secrets ∧ ∀ v ∈ secrets, ∃ name ∈ allowed, v = .str name := by
  cases requested with
  | arr vs =>
    rw [validateSecrets]
    split
    · next hset =>
      refine iff_of_false nofun fun ⟨he, hall⟩ => ?_
      obtain ⟨v, hv, hhash⟩ := List.any_eq_true.mp hset
      obtain ⟨name, -, rfl⟩ := hall v (Json.arr.inj he ▸ hv)
      cases hhash
    · cases hunknown : unknownSecrets vs allowed with
      | nil =>
        constructor
        · intro he
          obtain rfl := Except.ok.inj he
          refine ⟨rfl, fun v hv => ?_⟩
          have hknown : v ∉ unknownSecrets vs allowed := by
            rw [hunknown]
            exact List.not_mem_nil
          simpa [mem_unknownSecrets, hv] using hknown
        · rintro ⟨he, -⟩
          rw [Json.arr.inj he]
      | cons v unknown =>
        have hmem : v ∈ unknownSecrets vs allowed := by
          rw [hunknown]
          exact List.mem_cons_self
        obtain ⟨hv, hnone⟩ := mem_unknownSecrets.mp hmem
        refine iff_of_false ?_ fun ⟨he, hall⟩ => ?_
        · dsimp only
          split <;> nofun
        · obtain ⟨name, hname, hv⟩ := hall v (Json.arr.inj he ▸ hv)
          exact hnone name hname hv
  | _ => simp [validateSecrets]

/-- The values that no set can take and no text can be made of. -/
theorem validateSecrets_eq_typeError {requested : Json} {allowed : List String} :
    validateSecrets requested allowed = .error .typeError ↔
      ∃ secrets, requested = .arr secrets ∧ ∃ v ∈ secrets, ∀ s, v ≠ .str s := by
  cases requested with
  | arr vs =>
    have hreads : (∃ secrets, Json.arr vs = .arr secrets ∧ ∃ v ∈ secrets, ∀ s, v ≠ .str s) ↔
        texts? vs = none := by
      rw [texts?_eq_none]
      constructor
      · rintro ⟨_, he, hv⟩
        exact Json.arr.inj he ▸ hv
      · exact fun hv => ⟨vs, rfl, hv⟩
    rw [hreads, texts?_eq_none, validateSecrets]
    split
    · next hset =>
      obtain ⟨v, hv, hhash⟩ := List.any_eq_true.mp hset
      refine iff_of_true rfl ⟨v, hv, ?_⟩
      rintro s rfl
      cases hhash
    · -- the strings among the values are the profile's, or named in the message
      have hunknown : texts? (unknownSecrets vs allowed) = none ↔ ∃ v ∈ vs, ∀ s, v ≠ .str s := by
        rw [texts?_eq_none]
        constructor
        · rintro ⟨v, hv, hs⟩
          exact ⟨v, (mem_unknownSecrets.mp hv).1, hs⟩
        · rintro ⟨v, hv, hs⟩
          exact ⟨v, mem_unknownSecrets.mpr ⟨hv, fun name _ => hs name⟩, hs⟩
      rw [← hunknown]
      split
      · next hnil => simp [hnil, texts?]
      · split
        · next hnames => simp [hnames]
        · next hnone => exact iff_of_true rfl hnone
  | _ => simp [validateSecrets]

/-! ### Requests -/

/-- **The accepted requests** pass every check, and are granted the plan of their profile. -/
theorem validateRequest_eq_ok_iff :
    validateRequest profiles profileName overrides requesterType = .ok decision ↔
      ∃ profile requester, profile? profiles profileName = some profile ∧
        RequesterType.ofValue requesterType = some requester ∧
        Unobjectionable profile overrides requesterType ∧
        requestedSecrets overrides = .arr decision.injectedSecrets ∧
        (∀ v ∈ decision.injectedSecrets, ∃ name ∈ profile.allowedSecretNames, v = .str name) ∧
        decision = plan profile requester decision.injectedSecrets := by
  unfold validateRequest
  simp only [except_bind_eq_ok, getProfile_eq_ok, requesterOf_eq_ok, forbidHostEnv_eq_ok, except_forM_eq_ok,
    enforceProfileLockedField_eq_ok, validateSecrets_eq_ok]
  constructor
  · rintro ⟨profile, hprofile, requester, hrequester, _, henv, _, hmounts, _, hlocked, secrets,
      ⟨hsecrets, hnames⟩, he⟩
    obtain rfl := Except.ok.inj he
    exact ⟨profile, requester, hprofile, hrequester,
      ⟨⟨requester, hrequester⟩, henv, hmounts, hlocked⟩, hsecrets,
      hnames, rfl⟩
  · rintro ⟨profile, requester, hprofile, hrequester, hpasses, hsecrets, hnames, hplan⟩
    refine ⟨profile, hprofile, requester, hrequester, (), hpasses.hostEnv, (), hpasses.mounts, (),
      hpasses.locked, _,
      ⟨hsecrets, hnames⟩, ?_⟩
    exact congrArg Except.ok hplan.symm

theorem getProfile_ne_typeError : getProfile profiles profileName ≠ .error .typeError := by
  unfold getProfile
  split <;> nofun

theorem requesterOf_ne_typeError : requesterOf requesterType ≠ .error .typeError := by
  unfold requesterOf
  split <;> nofun

theorem forbidHostEnv_ne_typeError : forbidHostEnv overrides ≠ .error .typeError := by
  unfold forbidHostEnv
  split <;> nofun

theorem validateMountEntry_ne_typeError (v : Json) : validateMountEntry v ≠ .error .typeError := by
  unfold validateMountEntry
  dsimp only
  split <;> (try split) <;> (try split) <;> (try split) <;> nofun

theorem validateHostMounts_ne_typeError {hostMounts : Json} {allowed : Bool} :
    validateHostMounts hostMounts allowed ≠ .error .typeError := by
  intro h
  unfold validateHostMounts at h
  split at h
  · cases h
  · cases h
  · split at h
    · cases h
    · obtain ⟨entry, -, hentry⟩ := except_forM_eq_error h
      exact validateMountEntry_ne_typeError entry hentry
  · cases h

theorem enforceProfileLockedField_ne_typeError {fieldName : String} {expected : Locked} :
    enforceProfileLockedField fieldName overrides expected ≠ .error .typeError := by
  unfold enforceProfileLockedField
  split
  · nofun
  · split <;> nofun

/-- **The requests that fail otherwise than as rejected**: nothing but a secret that is no string stops
them. -/
theorem validateRequest_eq_typeError_iff :
    validateRequest profiles profileName overrides requesterType = .error .typeError ↔
      ∃ profile, profile? profiles profileName = some profile ∧
        Unobjectionable profile overrides requesterType ∧
        ∃ secrets, requestedSecrets overrides = .arr secrets ∧ ∃ v ∈ secrets, ∀ s, v ≠ .str s := by
  have hlocked : ∀ profile, (lockedFields profile).forM (fun field =>
      enforceProfileLockedField field.1 overrides field.2) ≠ .error .typeError := by
    intro profile h
    obtain ⟨field, -, hfield⟩ := except_forM_eq_error h
    exact enforceProfileLockedField_ne_typeError hfield
  unfold validateRequest
  simp only [except_bind_eq_error, getProfile_ne_typeError, requesterOf_ne_typeError,
    forbidHostEnv_ne_typeError,
    validateHostMounts_ne_typeError, hlocked, false_or, getProfile_eq_ok, requesterOf_eq_ok,
      forbidHostEnv_eq_ok,
    except_forM_eq_ok, enforceProfileLockedField_eq_ok, validateSecrets_eq_typeError]
  constructor
  · rintro ⟨profile, hprofile, requester, hrequester, _, henv, _, hmounts, _, hlocked,
      hsecrets | ⟨_, -, hreturn⟩⟩
    · exact ⟨profile, hprofile, ⟨⟨requester, hrequester⟩, henv, hmounts, hlocked⟩, hsecrets⟩
    · cases hreturn
  · rintro ⟨profile, hprofile, hpasses, hsecrets⟩
    obtain ⟨requester, hrequester⟩ := hpasses.requester
    exact ⟨profile, hprofile, requester, hrequester, (), hpasses.hostEnv, (), hpasses.mounts,
      (), hpasses.locked,
      .inl hsecrets⟩

/-! ### Main results -/

/-- **A profile fixes the plan of its requests.** Two accepted requests for it, from one kind of requester,
are granted the same plan but for the secrets, which are those each asks for and names that the profile
allows; and a request with a value for a fixed field that differs from the profile's is rejected. -/
theorem plan_fixed_by_profile (profiles : Profiles) (profileName requesterType : String) :
    (∀ overrides overrides' decision decision',
      validateRequest profiles profileName overrides requesterType = .ok decision →
      validateRequest profiles profileName overrides' requesterType = .ok decision' →
      { decision with injectedSecrets := decision'.injectedSecrets } = decision') ∧
    (∀ overrides decision, validateRequest profiles profileName overrides requesterType = .ok decision →
      requestedSecrets overrides = .arr decision.injectedSecrets ∧
      ∃ profile, profile? profiles profileName = some profile ∧
        ∀ v ∈ decision.injectedSecrets, ∃ name ∈ profile.allowedSecretNames, v = .str name) ∧
    ∀ overrides profile field v, profile? profiles profileName = some profile → field ∈ lockedFields profile →
      Json.get? overrides field.1 = some v → field.2.differs v = true →
      ∃ e, validateRequest profiles profileName overrides requesterType = .error e ∧ e ≠ .typeError := by
  refine ⟨fun overrides overrides' decision decision' h h' => ?_, fun overrides decision h => ?_,
    fun overrides profile field v hprofile hfield hv hdiffers => ?_⟩
  · obtain ⟨profile, requester, hprofile, hrequester, -, -, -, hplan⟩ := validateRequest_eq_ok_iff.mp h
    obtain ⟨profile', requester', hprofile', hrequester', -, -, -, hplan'⟩ := validateRequest_eq_ok_iff.mp h'
    obtain rfl := Option.some.inj (hprofile.symm.trans hprofile')
    obtain rfl := Option.some.inj (hrequester.symm.trans hrequester')
    rw [hplan, hplan']
    rfl
  · obtain ⟨profile, -, hprofile, -, -, hsecrets, hnames, -⟩ := validateRequest_eq_ok_iff.mp h
    exact ⟨hsecrets, profile, hprofile, hnames⟩
  · -- the fields are compared before the secrets are looked at
    have hobjected : ¬ ∃ profile, profile? profiles profileName = some profile ∧
        Unobjectionable profile overrides requesterType := by
      rintro ⟨profile', hprofile', hpasses⟩
      obtain rfl := Option.some.inj (hprofile'.symm.trans hprofile)
      rw [hpasses.locked field hfield v hv] at hdiffers
      cases hdiffers
    cases h : validateRequest profiles profileName overrides requesterType with
    | ok decision =>
      obtain ⟨profile', -, hprofile', -, hpasses, -⟩ := validateRequest_eq_ok_iff.mp h
      exact absurd ⟨profile', hprofile', hpasses⟩ hobjected
    | error e =>
      refine ⟨e, rfl, ?_⟩
      rintro rfl
      obtain ⟨profile', hprofile', hpasses, -⟩ := validateRequest_eq_typeError_iff.mp h
      exact hobjected ⟨profile', hprofile', hpasses⟩

/-- Overrides that repeat their profile change nothing, and another value is rejected for each of its fields. -/
theorem plan_fixed_by_profile_safeDev :
    ∃ decision decision', validateRequest defaultProfiles "safe-dev" [] "human" = .ok decision ∧
      validateRequest defaultProfiles "safe-dev"
        [("cpu_limit", .int 2), ("network_mode", .str "restricted")] "human" =
        .ok decision' ∧
      { decision with injectedSecrets := decision'.injectedSecrets } = decision' ∧
      ∀ field ∈ lockedFields safeDev, ∃ e,
        validateRequest defaultProfiles "safe-dev" [(field.1, .str "deny")] "human" = .error e ∧
        e ≠ .typeError := by
  obtain ⟨hsame, -, hfixed⟩ := plan_fixed_by_profile defaultProfiles "safe-dev" "human"
  have hplain : validateRequest defaultProfiles "safe-dev" [] "human" = .ok (plan safeDev .human []) := rfl
  have hrepeats : validateRequest defaultProfiles "safe-dev"
      [("cpu_limit", .int 2), ("network_mode", .str "restricted")] "human" =
        .ok (plan safeDev .human []) := by
    rfl
  have hdiffers : ∀ field ∈ lockedFields safeDev, field.2.differs (.str "deny") = true := by
    decide
  exact ⟨_, _, hplain, hrepeats, hsame _ _ _ _ hplain hrepeats, fun field hfield =>
    hfixed _ safeDev field (.str "deny") rfl hfield (by simp [Json.get?]) (hdiffers field hfield)⟩

/-- **A request fails only as its callers expect exactly when** the secrets that are looked at are strings:
where the profile is known and the request passes every check before that of its secrets, a list of secrets
has only strings in it. -/
theorem rejected_as_handled_iff (profiles : Profiles) (profileName : String)
    (overrides : List (String × Json)) (requesterType : String) :
    ((∃ decision, validateRequest profiles profileName overrides requesterType = .ok decision) ∨
      (∃ message, validateRequest profiles profileName overrides requesterType = .error (.keyError message)) ∨
      ∃ message, validateRequest profiles profileName overrides requesterType = .error
        (.valueError message)) ↔
    ∀ profile, profile? profiles profileName = some profile →
      Unobjectionable profile overrides requesterType →
      ∀ secrets, requestedSecrets overrides = .arr secrets → ∀ v ∈ secrets, ∃ s, v = .str s := by
  have hhandled : ((∃ decision, validateRequest profiles profileName overrides requesterType = .ok decision) ∨
      (∃ message, validateRequest profiles profileName overrides requesterType = .error (.keyError message)) ∨
      ∃ message, validateRequest profiles profileName overrides requesterType =
        .error (.valueError message)) ↔
      validateRequest profiles profileName overrides requesterType ≠ .error .typeError := by
    cases validateRequest profiles profileName overrides requesterType with
    | ok decision => simp
    | error e => cases e <;> simp
  rw [hhandled, ne_eq, validateRequest_eq_typeError_iff]
  push Not
  rfl

/-- A list of secrets with a number in it raises a `TypeError`. -/
theorem rejected_unhandled :
    validateRequest defaultProfiles "safe-dev" [("secrets", .arr [.int 1])] "human" = .error .typeError := by
  rfl

end PolicyEngine

end LabOS
