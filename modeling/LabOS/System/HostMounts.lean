import LabOS.Config.Profiles

/-!
# Host mounts

A profile may let its labs mount directories of the host, but never the users' homes
and never the socket of the Docker daemon. The policy engine compares the source of a
mount as it is written with the forbidden paths, so that what it lets pass depends on
how a source is spelled. This module says what a mount exposes, by the place its
source leads to, and compares the two.

## What is proved

* `validateMountEntry_eq_ok` — an entry is accepted exactly when its source, as written,
  is not refused.
* `host_mounts_hidden_iff` — **the accepted mounts expose no forbidden location exactly
  when** no source leads to an ancestor of one or below a socket, and no source with `..`
  or two leading slashes is refused once it is written without them.

## Where the code parts from its documentation

`host_mounts_not_hidden`: a detour over `..` mounts a directory below `/home` under a
profile that allows mounts. The same holds of `//home`, of `/` and of `/var/run`.
-/

namespace LabOS

open PolicyEngine Exceptional

/-- The host source of an entry: what stands before its first colon. -/
def hostSource (entry : String) : String := String.ofList (entry.toList.takeWhile (· ≠ ':'))

/-- Does the engine refuse a source written so? -/
def Refused (p : PurePath) : Prop :=
  p ∈ forbiddenHostMountPaths ∨ ∃ pre ∈ forbiddenHostMountPrefixes, pre ∈ p.selfAndParents

instance (p : PurePath) : Decidable (Refused p) := inferInstanceAs (Decidable (_ ∨ _))

/-- **What the check of an entry says**: it looks at the source as it is written. -/
theorem validateMountEntry_eq_ok {entry : String} :
    validateMountEntry (.str entry) = .ok () ↔
      ':' ∈ entry.toList ∧ ¬ Refused (PurePath.parse (hostSource entry)) := by
  have hany : ∀ p : PurePath,
      (forbiddenHostMountPrefixes.any fun pre => p.selfAndParents.contains pre) = true ↔
      ∃ pre ∈ forbiddenHostMountPrefixes, pre ∈ p.selfAndParents := by
    intro p
    simp only [List.any_eq_true, List.contains_iff_mem]
  rw [validateMountEntry]
  split
  case isTrue hcolon => exact iff_of_false nofun fun h => hcolon h.1
  case isFalse hcolon =>
    dsimp only
    split
    case isTrue hsocket => exact iff_of_false nofun fun h => h.2 (.inl hsocket)
    case isFalse hsocket =>
      split
      case isTrue hhome => exact iff_of_false nofun fun h => h.2 (.inr ((hany _).mp hhome))
      case isFalse hhome =>
        exact iff_of_true rfl ⟨not_not.mp hcolon, fun h => h.elim hsocket fun h => hhome ((hany _).mpr h)⟩

/-! ### What a mount exposes -/

/-- The locations of the host that no lab may see. -/
def forbiddenLocations : List PosixPath :=
  (forbiddenHostMountPrefixes ++ forbiddenHostMountPaths).map PurePath.parts

/-- A mount of one path shows another that it lies below, that it is or that is below it. -/
def Exposes (source location : PosixPath) : Prop := location <+: source ∨ source <+: location

instance (p q : PosixPath) : Decidable (Exposes p q) := inferInstanceAs (Decidable (_ ∨ _))

/-- No entry with an absolute source exposes a forbidden location. -/
def Hidden (entries : List Json) : Prop :=
  ∀ entry, .str entry ∈ entries → (hostSource entry).toList.head? = some '/' →
    ∀ location ∈ forbiddenLocations, ¬ Exposes (PurePath.parse (hostSource entry)).normal location

/-- The directories above a forbidden location. -/
def bareAncestors : List PosixPath := [[], ["var"], ["var", "run"], ["run"]]

/-- Is the source spelled in a way the engine does not see through? -/
def Disguised (p : PurePath) : Prop := p.anchor = .doubled ∨ ".." ∈ p.parts

instance (p : PurePath) : Decidable (Disguised p) := inferInstanceAs (Decidable (_ ∨ _))

/-- What the engine leaves to whoever writes a source: to name no directory above a
forbidden location and nothing below a socket, and to spell out no refused path in
disguise. -/
structure Candid (p : PurePath) : Prop where
  ancestor : p.normal ∉ bareAncestors
  socket : ∀ sock ∈ forbiddenHostMountPaths, sock.parts <+: p.normal → p.normal = sock.parts
  plain : Disguised p → ¬ Refused ⟨.slash, p.normal⟩

theorem ancestor_of_exposes : ∀ location ∈ forbiddenLocations, ∀ source ∈ location.inits,
    source = location ∨ source ∈ bareAncestors := by decide

theorem exposes_of_ancestor :
    ∀ source ∈ bareAncestors, ∃ location ∈ forbiddenLocations, source <+: location := by
  decide

theorem anchor_of_forbidden :
    ∀ pre ∈ forbiddenHostMountPrefixes ++ forbiddenHostMountPaths, pre.anchor = .slash := by
  decide

theorem mem_forbiddenLocations {pre : PurePath}
    (h : pre ∈ forbiddenHostMountPrefixes ++ forbiddenHostMountPaths) : pre.parts ∈ forbiddenLocations :=
  List.mem_map_of_mem h

/-- A refused path in its plain spelling is at or below a forbidden location. -/
theorem exposes_of_refused {p : PurePath} (h : Refused p) :
    ∃ location ∈ forbiddenLocations, location <+: p.parts := by
  rcases h with hsocket | ⟨pre, hpre, hmem⟩
  · exact ⟨p.parts, mem_forbiddenLocations (List.mem_append_right _ hsocket), List.prefix_rfl⟩
  · exact ⟨pre.parts, mem_forbiddenLocations (List.mem_append_left _ hpre),
      (PurePath.mem_selfAndParents.mp hmem).2⟩

/-- What a candid source shows of a forbidden location, the plain spelling of it would be
refused for. -/
theorem refused_of_exposes {p : PurePath} {location : PosixPath} (hp : Candid p)
    (hlocation : location ∈ forbiddenLocations) (h : Exposes p.normal location) :
    Refused ⟨.slash, p.normal⟩ := by
  obtain ⟨pre, hpre, rfl⟩ := List.mem_map.mp hlocation
  have hanchor := anchor_of_forbidden pre hpre
  have hbelow : pre.parts <+: p.normal := by
    rcases h with h | h
    · exact h
    · rcases ancestor_of_exposes _ hlocation _ ((List.mem_inits _ _).mpr h) with heq | hbare
      · exact heq ▸ List.prefix_rfl
      · exact absurd hbare hp.ancestor
  rcases List.mem_append.mp hpre with hhome | hsocket
  · exact .inr ⟨pre, hhome, PurePath.mem_selfAndParents.mpr ⟨hanchor, hbelow⟩⟩
  · refine .inl ?_
    have heq : (⟨.slash, p.normal⟩ : PurePath) = pre := by
      rw [hp.socket pre hsocket hbelow, ← hanchor]
    exact heq ▸ hsocket

/-- An absolute source that is not in disguise is its own plain spelling. -/
theorem plain_of_not_disguised {p : PurePath} (habsolute : p.anchor ≠ .relative) (h : ¬ Disguised p) :
    (⟨.slash, p.normal⟩ : PurePath) = p := by
  obtain ⟨hdoubled, hdots⟩ := not_or.mp h
  rw [PurePath.normal_of_plain hdots]
  obtain ⟨anchor, parts⟩ := p
  cases anchor with
  | relative => exact absurd rfl habsolute
  | slash => rfl
  | doubled => exact absurd rfl hdoubled

/-- **What the engine's check leaves open**: a source it accepts exposes nothing forbidden
exactly when it is candid. -/
theorem hidden_iff_candid {p : PurePath} (habsolute : p.anchor ≠ .relative) (haccepted : ¬ Refused p) :
    (∀ location ∈ forbiddenLocations, ¬ Exposes p.normal location) ↔ Candid p := by
  constructor
  · intro h
    refine ⟨fun hbare => ?_, fun sock hsock hbelow => ?_, fun _ hrefused => ?_⟩
    · obtain ⟨location, hlocation, habove⟩ := exposes_of_ancestor _ hbare
      exact h location hlocation (.inr habove)
    · exact absurd (.inl hbelow) (h _ (mem_forbiddenLocations (List.mem_append_right _ hsock)))
    · obtain ⟨location, hlocation, hbelow⟩ := exposes_of_refused hrefused
      exact h location hlocation (.inl hbelow)
  · intro hcandid location hlocation hexposes
    have hrefused := refused_of_exposes hcandid hlocation hexposes
    by_cases hdisguised : Disguised p
    · exact hcandid.plain hdisguised hrefused
    · exact haccepted (plain_of_not_disguised habsolute hdisguised ▸ hrefused)

/-- Every entry of an accepted list of mounts passed the check of its own. -/
theorem validateMountEntry_of_request {profiles : Profiles} {profileName requesterType : String}
    {overrides : List (String × Json)} {decision : RequestDecision} {entries : List Json}
    (h : validateRequest profiles profileName overrides requesterType = .ok decision)
    (hmounts : Json.get? overrides "host_mounts" = some (.arr entries)) :
    ∀ entry ∈ entries, validateMountEntry entry = .ok () := by
  obtain ⟨profile, -, h⟩ := except_bind_eq_ok.mp h
  obtain ⟨_, -, h⟩ := except_bind_eq_ok.mp h
  obtain ⟨_, -, h⟩ := except_bind_eq_ok.mp h
  obtain ⟨_, hvalid, -⟩ := except_bind_eq_ok.mp h
  rw [hmounts, Option.getD_some] at hvalid
  cases entries with
  | nil => exact fun entry hentry => nomatch hentry
  | cons entry rest =>
    change (if profile.allowHostMounts = false then _
      else (entry :: rest).forM validateMountEntry) = _ at hvalid
    split at hvalid
    · cases hvalid
    · exact except_forM_eq_ok.mp hvalid

/-- **The mounts of an accepted request expose no forbidden location exactly when** every
absolute source is candid. -/
theorem host_mounts_hidden_iff {profiles : Profiles} {profileName requesterType : String}
    {overrides : List (String × Json)} {decision : RequestDecision} {entries : List Json}
    (h : validateRequest profiles profileName overrides requesterType = .ok decision)
    (hmounts : Json.get? overrides "host_mounts" = some (.arr entries)) :
    Hidden entries ↔ ∀ entry, .str entry ∈ entries → (hostSource entry).toList.head? = some '/' →
      Candid (PurePath.parse (hostSource entry)) := by
  refine forall_congr' fun entry => forall_congr' fun hentry => forall_congr' fun hslash => ?_
  have haccepted := validateMountEntry_eq_ok.mp (validateMountEntry_of_request h hmounts _ hentry)
  exact hidden_iff_candid (PurePath.isAbsolute_parse hslash) haccepted.2

/-- A profile that lets its labs mount directories of the host. -/
def mountEnabled : Profile where
  name := "mount-enabled"
  runtimeClass := .container
  riskClass := .low
  networkMode := .restricted
  filesystemMode := .managed
  persistenceMode := .ephemeral
  exportMode := .request
  cpuLimit := 2
  memoryMb := 2048
  diskMb := 8192
  maxRuntimeMinutes := 60
  retentionDays := 3
  allowHostMounts := true
  valid := by decide

theorem host_mounts_hidden_iff_tmp :
    ∃ decision, validateRequest [("mount-enabled", mountEnabled)] "mount-enabled"
        [("host_mounts", .arr [.str "/tmp/build:/lab/build"])] "human" = .ok decision ∧
      Hidden [.str "/tmp/build:/lab/build"] := by
  have haccepted : ∃ decision, validateRequest [("mount-enabled", mountEnabled)] "mount-enabled"
      [("host_mounts", .arr [.str "/tmp/build:/lab/build"])] "human" = .ok decision := ⟨_, rfl⟩
  obtain ⟨decision, h⟩ := haccepted
  refine ⟨decision, h, (host_mounts_hidden_iff h rfl).mpr ?_⟩
  intro entry hentry _
  obtain rfl := Json.str.inj (List.mem_singleton.mp hentry)
  exact ⟨by decide, by decide, by decide⟩

/-- A detour over `..` is accepted and mounts a directory below `/home`. -/
theorem host_mounts_not_hidden :
    mountEnabled.allowHostMounts = true ∧
      (∃ decision, validateRequest [("mount-enabled", mountEnabled)] "mount-enabled"
        [("host_mounts", .arr [.str "/tmp/../home/ubuntu/.ssh:/lab/secrets"])] "human" = .ok decision) ∧
      ¬ Hidden [.str "/tmp/../home/ubuntu/.ssh:/lab/secrets"] := by
  refine ⟨rfl, ⟨_, rfl⟩, fun h => ?_⟩
  exact h "/tmp/../home/ubuntu/.ssh:/lab/secrets" (List.mem_singleton.mpr rfl) (by decide)
    ["home"] (by decide)
    (by decide)

end LabOS
