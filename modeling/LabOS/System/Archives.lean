import LabOS.System.Confined

/-!
# Where snapshots work

A snapshot is made in the snapshots directory of its lab. A restore clears the workspace
of the target lab and extracts the archive there: once the workspace is empty no link
stands in it, and of an archive that `add` made no member is below another that is a
link, so every member is written where its name says.

## What is proved

* `SnapshotManager.within_createSnapshot` — a snapshot changes only its archive and its
  manifest.
* `SnapshotManager.confines_extractWorkspace` — extracting an archive over the empty workspace of a
  lab changes only the workspace.
-/

namespace LabOS

open Exceptional FileOps FileTree ManagedStorageAllocator

variable {β : Type} [Content β] {env : Environment β} {good : String → β → Prop} {d : Disk β}

namespace SnapshotManager

/-! ### Paths -/

/-- The manifest of a snapshot is beside its archive. -/
theorem manifestPathFor_eq {row : SnapshotRow} {snapshotsRoot : PosixPath} (hid : isIdentifier row.id = true)
    (href : row.backendRef = archivePath snapshotsRoot row.id) :
    manifestPathFor row = manifestPath snapshotsRoot row.id := by
  have hstem : row.id.toList ≠ [] := by
    intro h
    rw [String.toList_eq_nil_iff.mp h] at hid
    exact absurd hid (by decide)
  have hdot : '.' ∉ row.id.toList := by
    simp only [isIdentifier, Bool.and_eq_true, Bool.not_eq_true', List.contains_eq_mem,
      decide_eq_false_iff_not] at hid
    exact hid.2
  have hname : row.id ++ ".tar.gz" = String.ofList (row.id.toList ++ '.' :: "tar.gz".toList) := by
    rw [← String.toList_inj]
    simp
  have hname' : row.id ++ ".tar.gz" = String.ofList ((row.id ++ ".tar").toList ++ '.' :: "gz".toList) := by
    rw [← String.toList_inj]
    simp
  have htar : row.id ++ ".tar" = String.ofList (row.id.toList ++ '.' :: "tar".toList) := by
    rw [← String.toList_inj]
    simp
  have hsuffixes : PosixPath.suffixes (row.id ++ ".tar.gz") = [".tar", ".gz"] := by
    rw [hname, PosixPath.suffixes_append hstem hdot (by decide) (by decide)]
    decide
  have hfirst : PosixPath.withSuffix (row.id ++ ".tar.gz") "" = row.id ++ ".tar" := by
    rw [hname', PosixPath.withSuffix_append (by simp) (by decide) (by decide)]
    simp
  have hsecond : PosixPath.withSuffix (row.id ++ ".tar") ".json" = row.id ++ ".json" := by
    rw [htar, PosixPath.withSuffix_append hstem (by decide) (by decide)]
    simp
  simp [manifestPathFor, href, archivePath, manifestPath, PosixPath.name, PosixPath.withName, hsuffixes,
    hfirst, hsecond]

/-! ### Places among the snapshots -/

section Places

variable {labId sid : String}

theorem archivePath_inLab (root : PosixPath) (labId sid : String) :
    archivePath (inLab root labId ["snapshots"]) sid = inLab root labId ["snapshots", sid ++ ".tar.gz"] := by
  simp [archivePath, inLab]

theorem manifestPath_inLab (root : PosixPath) (labId sid : String) :
    manifestPath (inLab root labId ["snapshots"]) sid = inLab root labId ["snapshots", sid ++ ".json"] := by
  simp [manifestPath, inLab]

theorem ours_snapshots {n : String} (h : isIdentifier labId = true) (hn : PosixPath.isPlain n = true) :
    Ours labId ["snapshots", n] :=
  ⟨h, by simpa [hn] using (by decide : PosixPath.isPlain "snapshots" = true),
    .inr ⟨_, _, rfl, by decide, by decide⟩⟩

theorem firm_archivePath (h : isIdentifier labId = true) (hsid : isIdentifier sid = true) :
    Firm (Managed env good) (archivePath (inLab env.root labId ["snapshots"]) sid) :=
  archivePath_inLab env.root labId sid ▸ firm_of_ours (ours_snapshots h (isPlain_append hsid (by decide)))

theorem firm_manifestPath (h : isIdentifier labId = true) (hsid : isIdentifier sid = true) :
    Firm (Managed env good) (manifestPath (inLab env.root labId ["snapshots"]) sid) :=
  manifestPath_inLab env.root labId sid ▸ firm_of_ours (ours_snapshots h (isPlain_append hsid (by decide)))

/-- A manifest, whole or cut short, names the files its metadata names. -/
theorem namesFiles_of_dumps {snapshotsRoot : PosixPath} {metadata : SnapshotMetadata}
    (hbackend : metadata.backendRef = archivePath snapshotsRoot sid)
    (hmanifest : metadata.manifestPath = manifestPath snapshotsRoot sid)
    (hruntime : metadata.runtimeClass = RuntimeClass.container.value) {b : β}
    (hb : b = env.codec.dumps metadata.toDict ∨
      ∃ n, b = Content.truncate n (env.codec.dumps metadata.toDict)) :
    NamesFiles env snapshotsRoot sid b := by
  intro metadata' hparse
  have hloads : env.codec.loads b = .ok metadata.toDict := by
    have hread : ∃ o, env.codec.loads b = .ok o := by
      unfold parseManifest at hparse
      split at hparse
      · cases hparse
      · cases hparse
      · next o ho => exact ⟨o, ho⟩
    obtain ⟨o, ho⟩ := hread
    rcases hb with rfl | ⟨n, rfl⟩
    · exact env.codec.loads_dumps _
    · rw [ho, env.codec.loads_truncate n _ _ ho]
  have heq : metadata' = metadata := by
    simp only [parseManifest, hloads, SnapshotMetadata.fromDict_toDict] at hparse
    exact (Except.ok.inj hparse).symm
  exact heq ▸ ⟨hbackend, hmanifest, hruntime⟩

/-- Writing the manifest of a snapshot. -/
theorem within_writeManifest {R : PosixPath → Prop} {metadata : SnapshotMetadata}
    (h : isIdentifier labId = true) (hsid : isIdentifier sid = true) (hcarry : Carries env good)
    (hbackend : metadata.backendRef = archivePath (inLab env.root labId ["snapshots"]) sid)
    (hmanifest : metadata.manifestPath = manifestPath (inLab env.root labId ["snapshots"]) sid)
    (hruntime : metadata.runtimeClass = RuntimeClass.container.value)
    (hR : R (manifestPath (inLab env.root labId ["snapshots"]) sid)) :
    Within (confined (Managed env good) R)
      (writeBytes (manifestPath (inLab env.root labId ["snapshots"]) sid)
        (env.codec.dumps metadata.toDict)) d := by
  have hfirm : Firm (Managed env good) (manifestPath (inLab env.root labId ["snapshots"]) sid) :=
    firm_manifestPath h hsid
  refine within_writeBytes (fun ht => hfirm.leads ht) hfirm.plain hR ?_ fun n => ?_
  · exact managed_manifest (hcarry.dumps _) (namesFiles_of_dumps hbackend hmanifest hruntime (.inl rfl))
  · exact managed_manifest (hcarry.truncate n (hcarry.dumps _))
      (namesFiles_of_dumps hbackend hmanifest hruntime (.inr ⟨n, rfl⟩))

/-- Writing the archive of a snapshot. -/
theorem within_writeArchive {R : PosixPath → Prop} {ms : List (Member β)} {b : β}
    (h : isIdentifier labId = true) (hsid : isIdentifier sid = true) (hcarry : Carries env good)
    (hb : b = env.codec.tarGz ms ∨ ∃ n, b = Content.truncate n (env.codec.tarGz ms)) (hms : Archived ms)
    (hgood : ∀ m ∈ ms, ∀ c, m.kind = .file c → good labId c)
    (hR : R (archivePath (inLab env.root labId ["snapshots"]) sid)) :
    Within (confined (Managed env good) R)
      (writeBytes (archivePath (inLab env.root labId ["snapshots"]) sid) b) d := by
  have hfirm : Firm (Managed env good) (archivePath (inLab env.root labId ["snapshots"]) sid) :=
    firm_archivePath h hsid
  have hwhole : good labId (env.codec.tarGz ms) := hcarry.tarGz hgood
  have hcut : ∀ n, Managed env good (archivePath (inLab env.root labId ["snapshots"]) sid)
      (.file (Content.truncate n (env.codec.tarGz ms))) := by
    intro n
    refine managed_archive (hcarry.truncate n hwhole) fun ms' hms' => ?_
    exact hms.mono (env.codec.getmembers_truncate n ms ms' hms').sublist
  rcases hb with rfl | ⟨n, rfl⟩
  · refine within_writeBytes (fun ht => hfirm.leads ht) hfirm.plain hR
      (managed_archive hwhole fun ms' hms' => ?_) hcut
    rw [env.codec.getmembers_tarGz] at hms'
    exact Option.some.inj hms' ▸ hms
  · refine within_writeBytes (fun ht => hfirm.leads ht) hfirm.plain hR (hcut n) fun n' => ?_
    rw [Content.truncate_truncate]
    exact hcut _

end Places

/-! ### Creation -/

omit [Content β] in
theorem archived_nil : Archived ([] : List (Member β)) := by
  refine ⟨⟨?_, ?_, List.nodup_nil, ?_⟩, ?_⟩
  all_goals
    intro m hm
    cases hm

/-- The members of a lab's workspace are a directory as `add` archives it, of contents good for the lab. -/
theorem archived_add {labId : String} {d' : Disk β} {ms : List (Member β)} (h : isIdentifier labId = true)
    (ht : Tidy (Managed env good) d.tree)
    (hadd : TarFile.add (inLab env.root labId ["workspace"]) "workspace" d = .ok ms d') :
    Archived ms ∧ ∀ m ∈ ms, ∀ c, m.kind = .file c → good labId c := by
  have hfirm : Firm (Managed env good) (inLab env.root labId ["workspace"]) :=
    firm_of_ours (ours_dir h (by decide))
  have hne : inLab env.root labId ["workspace"] ≠ [] := by simp [inLab]
  have hentry : ∀ m ∈ ms, ∃ r e, d.tree.lookup (inLab env.root labId ["workspace"] ++ r) = some e ∧
      m = ⟨"workspace" :: r, TarFile.kindOf e⟩ := by
    intro m hm
    obtain ⟨r, e, hr, rfl⟩ := (TarFile.mem_add (hfirm.leads ht) hadd).mp hm
    exact ⟨r, e, lookup_of_mem_rows (by simp) hr, rfl⟩
  refine ⟨⟨TarFile.treeLike_add ht.tree (hfirm.leads ht) hne (by decide) hadd, ?_⟩, ?_⟩
  · intro m hm hbase tgt hlink
    obtain ⟨r, e, hlook, rfl⟩ := hentry m hm
    obtain rfl : r = [] := by simpa using hbase
    rw [List.append_nil] at hlook
    cases e with
    | symlink tgt' => exact hfirm.noLink _ List.prefix_rfl tgt' (ht.allowed _ _ hlook)
    | dir => cases hlink
    | file b => cases hlink
  · intro m hm c hc
    obtain ⟨r, e, hlook, rfl⟩ := hentry m hm
    cases e with
    | file b =>
      obtain rfl := MemberKind.file.inj hc
      exact (ht.allowed _ _ hlook).1 labId ("workspace" :: r) (by simp [inLab])
    | dir => cases hc
    | symlink tgt => cases hc

/-- **A snapshot** of a container lab changes only the snapshots directory, by its archive and its manifest.
-/
theorem within_createSnapshot {now : ℤ} {sid : String} {lab : LabRow} {storage : LabStorageRow}
    {runId : Option String} (h : isIdentifier storage.labId = true) (hsid : isIdentifier sid = true)
    (hlayout : AtLayout env.root storage) (hcarry : Carries env good) :
    Within (confined (Managed env good) fun p => lab.runtimeClass = .container ∧
        (p <+: inLab env.root storage.labId ["snapshots"] ∨
          p = archivePath (inLab env.root storage.labId ["snapshots"]) sid ∨
          p = manifestPath (inLab env.root storage.labId ["snapshots"]) sid))
      (createSnapshot env now sid lab storage runId) d := by
  have hsnapshots : storage.snapshotsPath = inLab env.root storage.labId ["snapshots"] := by
    rw [hlayout.2.2.2.2, hlayout.1]
  have hworkspace : storage.workspacePath = inLab env.root storage.labId ["workspace"] := by
    rw [hlayout.2.1, hlayout.1]
  have hfirm : Firm (Managed env good) (inLab env.root storage.labId ["snapshots"]) :=
    firm_of_ours (ours_dir h (by decide))
  unfold createSnapshot
  rw [hsnapshots, hworkspace]
  refine within_of_tidy fun ht => (Within.raiseIf _ _).bind fun _ d₁ h₁ _ => ?_
  obtain ⟨hruntime, rfl⟩ := raiseIf_eq_ok.mp h₁
  have hcontainer : lab.runtimeClass = .container := by
    cases hr : lab.runtimeClass with
    | container => rfl
    | microvm => exact absurd (by rw [hr]; decide) hruntime
  refine Within.bind (within_files (within_makeDirs hfirm (fun q hq => ⟨hcontainer, .inl hq⟩) fun q hq =>
    managed_dir hq (.inl (by simp)))) fun _ d₂ _ hk₂ => ?_
  refine Within.bind (within_files
    (within_writeArchive h hsid hcarry (.inr ⟨0, rfl⟩) archived_nil (fun m hm => by cases hm)
    ⟨hcontainer, .inr (.inl rfl)⟩)) fun _ d₃ _ hk₃ => ?_
  refine (within_files (within_look _ _)).bind fun ms d₄ h₄ _ => ?_
  have ht₃ := (hk₃ (hk₂ ht).1).1
  obtain ⟨harchived, hgood⟩ := archived_add h ht₃ (files_eq_ok.mp h₄)
  refine Within.bind (within_files (within_writeArchive h hsid hcarry (.inl rfl) harchived hgood
    ⟨hcontainer, .inr (.inl rfl)⟩)) fun _ d₅ _ _ => ?_
  refine (within_files (within_look _ _)).bind fun archive d₆ _ _ => ?_
  exact Within.bind (within_files
    (within_writeManifest h hsid hcarry rfl rfl (congrArg RuntimeClass.value hcontainer)
    ⟨hcontainer, .inr (.inr rfl)⟩))
    fun _ _ _ _ => Within.pure _

/-! ### Clearing a directory -/

section Clear

variable {may : PosixPath → Entry β → Prop} {R : PosixPath → Prop} {p : PosixPath} {n : String}

/-- One round of `_clear_directory`. -/
abbrev clearChild (p : PosixPath) (n : String) : DiskM β Unit := do
  let directory ← files (isDir (p ++ [n]))
  if directory then files (rmtree (p ++ [n])) else files (unlink (p ++ [n]))

omit [Content β] in
theorem within_clearChild (hp : Firm may p) (hn : PosixPath.isPlain n = true) (hR : ∀ q, p <+: q → R q) :
    Within (confined may R) (clearChild p n) d := by
  have hleads : ∀ {t : FileTree β}, Tidy may t → Leads t false (p ++ [n]) := fun ht => hp.leads_child ht hn
  have hbelow : ∀ q, p ++ [n] <+: q → R q := fun q hq => hR q ((PosixPath.prefix_concat_self p n).trans hq)
  refine (within_files (within_look _ _)).bind fun directory d₁ _ _ => ?_
  cases directory with
  | true => exact within_files (within_rmtree hleads hbelow)
  | false => exact within_files (within_unlink hleads hbelow)

omit [Content β] in
theorem lookup_of_clearChild (hp : Firm may p) (hn : PosixPath.isPlain n = true)
    (ht : Tidy may d.tree) {u : Unit} {d' : Disk β} (h : clearChild p n d = .ok u d') :
    ∀ q, q ≠ [] → d'.tree.lookup q = if p ++ [n] <+: q then none else d.tree.lookup q := by
  obtain ⟨directory, d₁, h₁, h⟩ := bind_eq_ok.mp h
  obtain ⟨-, rfl⟩ := look_eq_ok.mp (files_eq_ok.mp h₁)
  cases directory with
  | true => exact lookup_of_rmtree (hp.leads_child ht hn) (files_eq_ok.mp h)
  | false => exact lookup_of_unlink (hp.leads_child ht hn) (files_eq_ok.mp h)

omit [Content β] in
/-- The rounds of `_clear_directory` remove the names they go over, with all below them, and nothing else. -/
theorem lookup_of_clearChildren {names : List String} (hp : Firm may p)
    (hnames : ∀ n ∈ names, PosixPath.isPlain n = true) (ht : Tidy may d.tree) {u : Unit} {d' : Disk β}
    (h : names.forM (clearChild p) d = .ok u d') {q : PosixPath} (hq : q ≠ []) :
    d'.tree.lookup q = if ∃ n ∈ names, p ++ [n] <+: q then none else d.tree.lookup q := by
  induction names generalizing d with
  | nil =>
    obtain ⟨-, rfl⟩ := pure_eq_ok.mp h
    simp
  | cons m names ih =>
    obtain ⟨_, d₁, h₁, h⟩ := bind_eq_ok.mp h
    have hm := hnames m List.mem_cons_self
    have hround : Within (confined may fun _ => True) (clearChild p m) d :=
      within_clearChild hp hm fun _ _ => trivial
    have ht₁ := ((hround.of_ok h₁) ht).1
    rw [ih (fun n hn => hnames n (List.mem_cons_of_mem _ hn)) ht₁ h, lookup_of_clearChild hp hm ht h₁ q hq]
    by_cases hfirst : p ++ [m] <+: q
    · simp [hfirst]
    · simp [hfirst]

omit [Content β] in
theorem within_clearDirectory (hp : Firm may p) (hR : ∀ q, p <+: q → R q) :
    Within (confined may R) (clearDirectory p) d := by
  refine within_of_tidy fun ht => (within_files (within_look _ _)).bind fun names d₁ h₁ _ => ?_
  obtain ⟨⟨q, hq, rfl⟩, rfl⟩ := iterdir_eq_ok (files_eq_ok.mp h₁)
  refine Within.forM (fun _ => True) trivial (fun n hn d _ => ?_) fun _ _ _ _ _ _ _ => trivial
  obtain ⟨e, he⟩ := mem_children.mp hn
  exact within_clearChild hp (ht.tree _ _ _ he).2 hR

omit [Content β] in
/-- **A directory that has been cleared is empty.** -/
theorem lookup_of_clearDirectory (hp : Firm may p) (ht : Tidy may d.tree) {u : Unit} {d' : Disk β}
    (h : clearDirectory p d = .ok u d') : ∀ q, p <+: q → q ≠ p → d'.tree.lookup q = none := by
  intro q hq hne
  obtain ⟨names, d₁, h₁, h⟩ := bind_eq_ok.mp h
  obtain ⟨⟨q', hq', rfl⟩, rfl⟩ := iterdir_eq_ok (files_eq_ok.mp h₁)
  obtain rfl := hp.leads ht q' hq'
  have hplain : ∀ n ∈ d.tree.children q', PosixPath.isPlain n = true := by
    intro n hn
    obtain ⟨e, he⟩ := mem_children.mp hn
    exact (ht.tree _ _ _ he).2
  have hnil : q ≠ [] := by
    rintro rfl
    exact hne (List.prefix_nil.mp hq).symm
  rw [lookup_of_clearChildren hp hplain ht h hnil]
  split
  · rfl
  · next hout =>
    by_contra hsome
    obtain ⟨e, he⟩ := Option.ne_none_iff_exists'.mp hsome
    exact hout (ht.tree.exists_child he hq hne)

end Clear

/-! ### Extraction -/

section Extract

variable {labId : String} {ms : List (Member β)}

/-- While members are extracted over the empty workspace of a lab, no link stands in it but those of the
archive. -/
structure Bare (env : Environment β) (good : String → β → Prop) (labId : String) (p : PosixPath) (e : Entry β) :
    Prop where
  managed : Managed env good p e
  bare : ∀ tgt, e = .symlink tgt → ¬ inLab env.root labId ["workspace"] <+: p

/-- In an empty workspace every path is firm. -/
theorem firm_of_bare {r : List String} (h : isIdentifier labId = true)
    (hplain : ∀ n ∈ "workspace" :: r, PosixPath.isPlain n = true) :
    Firm (Bare env good labId) (inLab env.root labId ("workspace" :: r)) where
  plain := plain_inLab h hplain
  noLink := by
    intro p hp tgt hmay
    have hin : ¬ inLab env.root labId ["workspace"] <+: p := hmay.bare tgt rfl
    rcases hmay.managed with hout | ⟨labId', hguest⟩
    · exact hout (List.prefix_or_prefix_of_prefix (root_prefix_inLab _ _ _) hp)
    · obtain ⟨x, s, -, -, rfl⟩ := guestArea_iff.mp hguest
      obtain ⟨rfl, hpre⟩ := inLab_prefix_iff.mp hp
      obtain ⟨rfl, -⟩ := List.cons_prefix_cons.mp hpre
      exact hin (inLab_prefix_iff.mpr ⟨rfl, s, rfl⟩)

/-- The archive of a workspace fits an empty workspace. -/
theorem fits_bare (h : isIdentifier labId = true) (hms : Archived ms) (hcarry : Carries env good)
    (hgood : ∀ m ∈ ms, ∀ c, m.kind = .file c → good labId c) :
    TarFile.Fits (Bare env good labId) (fun _ => False) (labRoot env.root labId) ms := by
  have hname : ∀ m ∈ ms, ∃ r, m.name = "workspace" :: r ∧
      ∀ n ∈ "workspace" :: r, PosixPath.isPlain n = true := by
    intro m hm
    obtain ⟨⟨r, hr⟩, hplain⟩ := hms.treeLike.plain m hm
    exact ⟨r, hr.symm, fun n hn => hplain n (hr ▸ hn)⟩
  have hkind : ∀ m ∈ ms, ∀ linkname, m.kind ≠ .hardlink linkname := by
    intro m hm linkname hk
    rcases hms.treeLike.kinds m hm with hk' | ⟨b, hk'⟩ | ⟨tgt, hk'⟩ <;> simp [hk'] at hk
  refine ⟨fun m hm => ?_, fun m hm q hq => ?_, fun m hm x hx b hb => ?_,
    fun m hm linkname hk => absurd hk (hkind m hm linkname),
      fun m hm linkname hk => absurd hk (hkind m hm linkname),
    fun r hr => hr.elim⟩
  · obtain ⟨r, hr, hplain⟩ := hname m hm
    exact hr ▸ firm_of_bare h hplain
  · obtain ⟨r, hr, -⟩ := hname m hm
    exact ⟨managed_dir hq (.inr ⟨r, hr⟩), fun _ he => by cases he⟩
  · obtain ⟨r, hr, -⟩ := hname m hm
    have hmay : ∀ c, good labId c → Bare env good labId (inLab env.root labId m.name) (.file c) := fun c hc =>
      ⟨hr ▸ managed_file (by decide) hc, fun _ he => by cases he⟩
    exact ⟨hmay b (hgood x hx b hb), fun n => hmay _ (hcarry.truncate n (hgood x hx b hb))⟩

/-- **Extracting an archive over an empty workspace** writes in the workspace, and no file gets a second name. -/
theorem confines_extractWorkspace (h : isIdentifier labId = true) (hms : Archived ms)
    (hcarry : Carries env good) (hgood : ∀ m ∈ ms, ∀ c, m.kind = .file c → good labId c)
    (ht : Tidy (Bare env good labId) d.tree) :
    TarFile.Confines (Managed env good) (Comparable (inLab env.root labId ["workspace"]))
      (fun shared _ => TarFile.Shares (fun _ => False) shared)
      (TarFile.extractall (labRoot env.root labId) ms) d := by
  have hR : ∀ m ∈ ms, ∀ q, q <+: labRoot env.root labId ++ m.name ∨ labRoot env.root labId ++ m.name <+: q →
      Comparable (inLab env.root labId ["workspace"]) q := by
    intro m hm q hq
    obtain ⟨r, hr⟩ := (hms.treeLike.plain m hm).1
    exact PosixPath.comparable_of_below (inLab_prefix_iff.mpr ⟨rfl, r, hr⟩) hq
  refine (TarFile.confines_extractall hms.treeLike.unfollowed (fits_bare h hms hcarry hgood) hR
    (fun r hr => hr.elim) ht).mono fun q e hq => ?_
  rcases hq with hq | ⟨m, hm, ⟨linkname, hk⟩, rfl, tgt, rfl⟩
  · exact hq.managed
  · obtain ⟨r, hr⟩ := (hms.treeLike.plain m hm).1
    have hr0 : r ≠ [] := by
      rintro rfl
      exact hms.base m hm hr.symm linkname hk
    exact .inr ⟨labId, guestArea_iff.mpr ⟨"workspace", r, .inl rfl, hr0, by rw [← hr]; rfl⟩⟩

end Extract

/-! ### Restoring -/

/-- Does a restore get as far as the workspace of the target? The manifest is read, both labs are containers,
and the archive is there. -/
def restorable (env : Environment β) (t : FileTree β) (row : SnapshotRow) (lab : LabRow) : Bool :=
  match t.stat (manifestPathFor row) with
  | some (.file text) =>
    match parseManifest env text with
    | .ok metadata =>
      metadata.runtimeClass = RuntimeClass.container.value &&
        lab.runtimeClass.value = RuntimeClass.container.value &&
        (t.stat metadata.backendRef).isSome
    | .error _ => false
  | _ => false

theorem within_loadMetadata {F : Frame (Disk β)} {row : SnapshotRow} : Within F (loadMetadata env row) d := by
  refine (within_files (within_look _ _)).bind fun there d₁ _ _ => ?_
  cases there with
  | true =>
    exact (within_files (within_look _ _)).bind fun _ _ _ _ =>
      (Within.fromExcept _).bind fun _ _ _ _ => Within.pure _
  | false => exact Within.pure _

theorem loadMetadata_eq_ok {row : SnapshotRow} {metadata : SnapshotMetadata} {d' : Disk β}
    (h : loadMetadata env row d = .ok (some metadata) d') :
    d = d' ∧ ∃ b, d.tree.stat (manifestPathFor row) = some (.file b) ∧
      parseManifest env b = .ok metadata := by
  obtain ⟨there, d₁, h₁, h⟩ := bind_eq_ok.mp h
  obtain ⟨-, rfl⟩ := look_eq_ok.mp (files_eq_ok.mp h₁)
  cases there with
  | true =>
    simp only [if_true, bind_eq_ok, files_eq_ok, fromExcept_eq_ok, pure_eq_ok] at h
    obtain ⟨b, d₂, h₂, metadata', _, ⟨hparse, rfl⟩, heq, rfl⟩ := h
    obtain ⟨hb, rfl⟩ := readBytes_eq_ok h₂
    obtain rfl := Option.some.inj heq
    exact ⟨rfl, b, hb, hparse⟩
  | false => cases (pure_eq_ok.mp h).1

omit [Content β] in
theorem within_checkMembers {F : Frame (Disk β)} {extractRoot : PosixPath} {ms : List (Member β)} :
    Within F (checkMembers extractRoot ms) d := by
  refine Within.forM (fun _ => True) trivial (fun m _ d _ => ?_) fun _ _ _ _ _ _ _ => trivial
  exact (within_files (within_look _ _)).bind fun _ _ _ _ => Within.raiseIf _ _

/-- The tree meets the stricter policy of an extraction once the workspace is empty. -/
theorem tidy_bare {t : FileTree β} {labId : String} (ht : Tidy (Managed env good) t)
    (hempty : ∀ q, inLab env.root labId ["workspace"] <+: q → q ≠ inLab env.root labId ["workspace"] →
      t.lookup q = none) (hdir : ∀ tgt, t.lookup (inLab env.root labId ["workspace"]) ≠ some (.symlink tgt)) :
    Tidy (Bare env good labId) t := by
  refine ht.mono fun p e he hmay => ⟨hmay, ?_⟩
  rintro tgt rfl hin
  by_cases hp : p = inLab env.root labId ["workspace"]
  · exact absurd (hp ▸ he) (hdir tgt)
  · rw [hempty p hin hp] at he
    cases he

end SnapshotManager

end LabOS
