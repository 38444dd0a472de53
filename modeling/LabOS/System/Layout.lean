import LabOS.System.Invariants

/-!
# What stands where

The policy for the file tree: links stand outside the managed root or strictly inside
what a guest may write, a file below the root of a lab has a content that is `good` for
that lab, an artifact's place holds no directory, and the snapshots directories hold
archives as `add` makes them and manifests that name the files beside them.

Every path the code itself makes, `labRoot root labId` with a few fixed names behind it,
is firm under this policy, so no link of a guest redirects a call on it.
-/

namespace LabOS

open Exceptional FileOps FileTree ManagedStorageAllocator

variable {β : Type} [Content β] {env : Environment β}

/-! ### Paths below the roots of labs -/

/-- A path in the tree of a lab. -/
abbrev inLab (root : PosixPath) (labId : String) (p : List String) : PosixPath := labRoot root labId ++ p

@[simp] theorem inLab_prefix_iff {root : PosixPath} {labId labId' : String} {p q : List String} :
    inLab root labId p <+: inLab root labId' q ↔ labId = labId' ∧ p <+: q := by
  simp [inLab, labRoot]

@[simp] theorem inLab_inj {root : PosixPath} {labId labId' : String} {p q : List String} :
    inLab root labId p = inLab root labId' q ↔ labId = labId' ∧ p = q := by
  simp [inLab, labRoot]

@[simp] theorem labRoot_prefix_inLab {root : PosixPath} {labId labId' : String} {q : List String} :
    labRoot root labId <+: inLab root labId' q ↔ labId = labId' := by
  simp [inLab, labRoot]

@[simp] theorem inLab_prefix_labRoot {root : PosixPath} {labId labId' : String} {p : List String} :
    inLab root labId p <+: labRoot root labId' ↔ labId = labId' ∧ p = [] := by
  rw [show labRoot root labId' = inLab root labId' [] from (List.append_nil _).symm, inLab_prefix_iff,
    List.prefix_nil]

theorem root_prefix_inLab (root : PosixPath) (labId : String) (p : List String) :
    root <+: inLab root labId p := by
  simp [inLab, labRoot]

/-- One of two paths is above the other, or they are one. -/
def Comparable (p q : PosixPath) : Prop := p <+: q ∨ q <+: p

@[simp] theorem comparable_inLab_iff {root : PosixPath} {labId labId' : String} {p q : List String} :
    Comparable (inLab root labId p) (inLab root labId' q) ↔ labId = labId' ∧ (p <+: q ∨ q <+: p) := by
  simp only [Comparable, inLab_prefix_iff]
  constructor
  · rintro (⟨rfl, h⟩ | ⟨rfl, h⟩)
    · exact ⟨rfl, .inl h⟩
    · exact ⟨rfl, .inr h⟩
  · rintro ⟨rfl, h⟩
    exact h.imp (fun h => ⟨rfl, h⟩) fun h => ⟨rfl, h⟩

@[simp] theorem comparable_labRoot_iff {root : PosixPath} {labId labId' : String} {q : List String} :
    Comparable (labRoot root labId) (inLab root labId' q) ↔ labId = labId' := by
  rw [show labRoot root labId = inLab root labId [] from (List.append_nil _).symm, comparable_inLab_iff]
  simp

theorem manifest_inj {sid sid' : String} (h : sid ++ ".json" = sid' ++ ".json") : sid = sid' := by
  have := congrArg String.toList h
  simp only [String.toList_append] at this
  exact String.toList_inj.mp (List.append_cancel_right this)

theorem archive_ne_manifest (sid sid' : String) : sid ++ ".tar.gz" ≠ sid' ++ ".json" := by
  intro h
  have := congrArg (fun s => s.toList.getLast?) h
  simp [String.toList_append] at this

theorem isPlain_of_isIdentifier {s : String} (h : isIdentifier s = true) : PosixPath.isPlain s = true := by
  simp only [isIdentifier, Bool.and_eq_true] at h
  exact h.1

/-- An identifier with an extension is a plain name. -/
theorem isPlain_append {s ext : String} (h : isIdentifier s = true) (hext : '/' ∉ ext.toList) :
    PosixPath.isPlain (s ++ ext) = true := by
  obtain ⟨c, cs, hs⟩ : ∃ c cs, s.toList = c :: cs := by
    cases hs : s.toList with
    | nil =>
      have : s = "" := by rw [← String.toList_inj, hs]; rfl
      subst this
      exact absurd h (by decide)
    | cons c cs => exact ⟨c, cs, rfl⟩
  simp only [isIdentifier, PosixPath.isPlain, Bool.and_eq_true, Bool.not_eq_true', decide_eq_true_eq,
    List.contains_eq_mem, decide_eq_false_iff_not] at h ⊢
  obtain ⟨⟨-, hslash⟩, hdot⟩ := h
  have hc : c ≠ '.' := fun hc => hdot (by simp [hs, hc])
  have hne : ∀ t : String, t.toList.head? ≠ some c → s ++ ext ≠ t := by
    rintro t ht rfl
    exact ht (by simp [String.toList_append, hs])
  refine ⟨⟨⟨hne "" (by simp), hne "." (by simpa using hc.symm)⟩, hne ".." (by simpa using hc.symm)⟩, ?_⟩
  simp [String.toList_append, hslash, hext]

/-! ### The policy -/

/-- What an archive in a snapshots directory lists: a directory `workspace`, as `add` makes members of it. -/
structure Archived (ms : List (Member β)) : Prop where
  treeLike : TarFile.TreeLike "workspace" ms
  base : ∀ m ∈ ms, m.name = ["workspace"] → ∀ tgt, m.kind ≠ .symlink tgt

omit [Content β] in
theorem Archived.mono {ms ms' : List (Member β)} (h : Archived ms) (hsub : ms'.Sublist ms) : Archived ms' :=
  ⟨h.treeLike.mono hsub, fun m hm => h.base m (hsub.subset hm)⟩

/-- The contents a file below the root of a lab may have are closed under what is made of contents. -/
structure Carries (env : Environment β) (good : String → β → Prop) : Prop where
  truncate : ∀ {labId b} n, good labId b → good labId (Content.truncate n b)
  tarGz : ∀ {labId ms}, (∀ m ∈ ms, ∀ b, m.kind = .file b → good labId b) → good labId (env.codec.tarGz ms)
  getmembers : ∀ {labId b ms}, good labId b → env.codec.getmembers b = some ms →
    ∀ m ∈ ms, ∀ c, m.kind = .file c → good labId c
  dumps : ∀ {labId} o, good labId (env.codec.dumps o)

/-- The manifest of a snapshot names the files beside it, and is of a container. -/
def NamesFiles (env : Environment β) (snapshotsRoot : PosixPath) (snapshotId : String) (b : β) : Prop :=
  ∀ metadata, SnapshotManager.parseManifest env b = .ok metadata →
    metadata.backendRef = SnapshotManager.archivePath snapshotsRoot snapshotId ∧
      metadata.manifestPath = SnapshotManager.manifestPath snapshotsRoot snapshotId ∧
      metadata.runtimeClass = RuntimeClass.container.value

/-- What may stand where. -/
def Managed (env : Environment β) (good : String → β → Prop) (p : PosixPath) : Entry β → Prop
  | .dir => ∀ labId x id name, x = "quarantine" ∨ x = "released" → p ≠ inLab env.root labId [x, id, name]
  | .symlink _ => ¬ Comparable env.root p ∨ ∃ labId, guestArea env.root labId p = true
  | .file b =>
    (∀ labId q, p = inLab env.root labId q → good labId b) ∧
    (∀ labId sid, p = SnapshotManager.archivePath (inLab env.root labId ["snapshots"]) sid →
      ∀ ms, env.codec.getmembers b = some ms → Archived ms) ∧
    ∀ labId sid, p = SnapshotManager.manifestPath (inLab env.root labId ["snapshots"]) sid →
      NamesFiles env (inLab env.root labId ["snapshots"]) sid b

variable {good : String → β → Prop}

/-- A place in the tree of a lab that no guest can write. -/
structure Ours (labId : String) (q : List String) : Prop where
  identifier : isIdentifier labId = true
  plain : ∀ n ∈ q, PosixPath.isPlain n = true
  outside : q.length ≤ 1 ∨ ∃ x r, q = x :: r ∧ x ≠ "workspace" ∧ x ≠ "exports"

theorem guestArea_iff {root : PosixPath} {labId : String} {p : PosixPath} : guestArea root labId p = true ↔
    ∃ x r, (x = "workspace" ∨ x = "exports") ∧ r ≠ [] ∧ p = inLab root labId (x :: r) := by
  simp only [guestArea, strictlyBelow, Bool.or_eq_true, Bool.and_eq_true, List.isPrefixOf_iff_prefix,
    decide_eq_true_eq]
  constructor
  · rintro (⟨⟨r, rfl⟩, hne⟩ | ⟨⟨r, rfl⟩, hne⟩)
    · exact ⟨"workspace", r, .inl rfl, by rintro rfl; simp at hne, by simp [inLab]⟩
    · exact ⟨"exports", r, .inr rfl, by rintro rfl; simp at hne, by simp [inLab]⟩
  · rintro ⟨x, r, rfl | rfl, hr, rfl⟩
    · exact .inl ⟨⟨r, by simp [inLab]⟩, by simpa [inLab] using fun h => hr h⟩
    · exact .inr ⟨⟨r, by simp [inLab]⟩, by simpa [inLab] using fun h => hr h⟩

theorem plain_inLab {labId : String} {q : List String} (h : isIdentifier labId = true)
    (hq : ∀ n ∈ q, PosixPath.isPlain n = true) :
    ∀ n ∈ inLab env.root labId q, PosixPath.isPlain n = true := by
  intro n hn
  simp only [inLab, labRoot, List.mem_append, List.mem_cons, List.not_mem_nil, or_false] at hn
  rcases hn with (hn | rfl | rfl) | hn
  · exact env.rootPlain n hn
  · decide
  · exact isPlain_of_isIdentifier h
  · exact hq n hn

/-- **A place that is ours is firm**: no link of a guest is on the way to it. -/
theorem firm_of_ours {labId : String} {q : List String} (h : Ours labId q) :
    Firm (Managed env good) (inLab env.root labId q) where
  plain := plain_inLab h.identifier h.plain
  noLink := by
    intro p hp tgt hmay
    rcases hmay with hcomp | ⟨labId', hguest⟩
    · exact hcomp ((List.prefix_or_prefix_of_prefix (root_prefix_inLab _ _ _) hp))
    · obtain ⟨x, r, hx, hr, rfl⟩ := guestArea_iff.mp hguest
      obtain ⟨rfl, t, rfl⟩ := inLab_prefix_iff.mp hp
      rcases h.outside with hlen | ⟨y, s, hy, hw, he⟩
      · cases r with
        | nil => exact hr rfl
        | cons a r => simp at hlen
      · obtain ⟨rfl, -⟩ := List.cons.inj hy
        rcases hx with rfl | rfl
        · exact hw rfl
        · exact he rfl

/-- Directories may stand anywhere but at the places of artifacts. -/
theorem managed_dir {labId : String} {p : PosixPath} {q : List String} (hp : p <+: inLab env.root labId q)
    (hq : q.length ≤ 2 ∨ ∃ r, q = "workspace" :: r) : Managed env good p .dir := by
  rintro labId' x id name hx rfl
  obtain ⟨-, hpre⟩ := inLab_prefix_iff.mp hp
  rcases hq with hlen | ⟨r, rfl⟩
  · have := hpre.length_le
    simp at this
    omega
  · obtain ⟨rfl, -⟩ := List.cons_prefix_cons.mp hpre
    rcases hx with hx | hx <;> exact absurd hx (by decide)

/-- A file in the tree of a lab, anywhere but among the snapshots, must only have a good content. -/
theorem managed_file {labId : String} {x : String} {q : List String} {b : β} (hx : x ≠ "snapshots")
    (hgood : good labId b) : Managed env good (inLab env.root labId (x :: q)) (.file b) := by
  refine ⟨fun labId' q' he => ?_, fun labId' sid he => ?_, fun labId' sid he => ?_⟩
  · obtain ⟨rfl, -⟩ := inLab_inj.mp he
    exact hgood
  · simp only [SnapshotManager.archivePath, inLab, List.append_assoc] at he
    obtain ⟨-, he⟩ := inLab_inj.mp he
    exact absurd (List.cons.inj he).1 hx
  · simp only [SnapshotManager.manifestPath, inLab, List.append_assoc] at he
    obtain ⟨-, he⟩ := inLab_inj.mp he
    exact absurd (List.cons.inj he).1 hx

/-- An archive among the snapshots. -/
theorem managed_archive {labId sid : String} {b : β} (hgood : good labId b)
    (h : ∀ ms, env.codec.getmembers b = some ms → Archived ms) :
    Managed env good (SnapshotManager.archivePath (inLab env.root labId ["snapshots"]) sid) (.file b) := by
  refine ⟨fun labId' q' he => ?_, fun _ _ _ => h, fun labId' sid' he => ?_⟩
  · simp only [SnapshotManager.archivePath, inLab, List.append_assoc] at he
    obtain ⟨rfl, -⟩ := inLab_inj.mp he
    exact hgood
  · simp only [SnapshotManager.archivePath, SnapshotManager.manifestPath, inLab, List.append_assoc] at he
    obtain ⟨-, he⟩ := inLab_inj.mp he
    exact absurd (by simpa using he) (archive_ne_manifest sid sid')

/-- A manifest among the snapshots. -/
theorem managed_manifest {labId sid : String} {b : β} (hgood : good labId b)
    (h : NamesFiles env (inLab env.root labId ["snapshots"]) sid b) :
    Managed env good (SnapshotManager.manifestPath (inLab env.root labId ["snapshots"]) sid) (.file b) := by
  refine ⟨fun labId' q' he => ?_, fun labId' sid' he => ?_, fun labId' sid' he => ?_⟩
  · simp only [SnapshotManager.manifestPath, inLab, List.append_assoc] at he
    obtain ⟨rfl, -⟩ := inLab_inj.mp he
    exact hgood
  · simp only [SnapshotManager.archivePath, SnapshotManager.manifestPath, inLab, List.append_assoc] at he
    obtain ⟨-, he⟩ := inLab_inj.mp he
    exact absurd (by simpa using he.symm) (archive_ne_manifest sid' sid)
  · simp only [SnapshotManager.manifestPath, inLab, List.append_assoc] at he
    obtain ⟨rfl, he⟩ := inLab_inj.mp he
    obtain rfl := manifest_inj (by simpa using he)
    exact h

end LabOS
