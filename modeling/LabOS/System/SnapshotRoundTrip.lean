import LabOS.Library.RoundTrip
import LabOS.System.Restores
import LabOS.System.Symbolic

/-!
# A snapshot and its restore

A snapshot archives its workspace entry by entry, links as links. A restore takes no such
archive as a whole: it clears the workspace with `rmtree`, which refuses a link that leads to a
directory, and extracts with the `data` filter, which refuses a link that is absolute or leads out
of the root of the lab, and writes the others in normal form.

## What is proved

* `saved_of_createSnapshot` — a snapshot that is created lists what is in the workspace.
* `snapshot_restores_iff` — it is restored to what it captured **exactly when** the workspace of the
  target can be cleared, and every link it lists passes the filter where it is put and is in normal form.

## Where the code parts from its purpose

`snapshot_unrestorable`: of a workspace with a link to `/etc` a snapshot is made, and the restore of
it raises.
-/

namespace LabOS

open Exceptional FileOps FileTree ManagedStorageAllocator SnapshotManager

variable {β : Type} [Content β] {env : Environment β}

/-! ### What a snapshot saves -/

section Saved

variable {now : ℤ} {sid : String} {lab : LabRow} {storage : LabStorageRow} {runId : Option String}
  {created : SnapshotMetadata} {d d' : Disk β}

/-- **A snapshot that is created** lists the contents of the workspace in its archive, and is described by its
manifest. -/
theorem saved_of_createSnapshot (hlab : isIdentifier storage.labId = true) (hsid : isIdentifier sid = true)
    (hlayout : AtLayout env.root storage) (ht : IsTree d.tree)
    (hdir : d.tree.lookup storage.workspacePath = some .dir)
    (harchive : NoLink d.tree (archivePath storage.snapshotsPath sid))
    (hmanifest : NoLink d.tree (manifestPath storage.snapshotsPath sid))
    (h : createSnapshot env now sid lab storage runId d = .ok created d') :
    created.runtimeClass = RuntimeClass.container.value ∧
      created.backendRef = archivePath storage.snapshotsPath sid ∧
      created.manifestPath = manifestPath storage.snapshotsPath sid ∧
      d'.tree.lookup created.backendRef = some (.file (env.codec.tarGz
        ((d.tree.contents storage.workspacePath).map (TarFile.member "workspace")))) ∧
      d'.tree.lookup created.manifestPath = some (.file (env.codec.dumps created.toDict)) := by
  have hsnapshots : storage.snapshotsPath = inLab env.root storage.labId ["snapshots"] := by
    rw [hlayout.2.2.2.2, hlayout.1]
  have hworkspace : storage.workspacePath = inLab env.root storage.labId ["workspace"] := by
    rw [hlayout.2.1, hlayout.1]
  rw [hsnapshots] at harchive hmanifest ⊢
  rw [hworkspace] at hdir ⊢
  have harchivePlain := (firm_archivePath hlab hsid : Firm (Managed env fun _ _ => True) _).plain
  have hmanifestPlain := (firm_manifestPath hlab hsid : Firm (Managed env fun _ _ => True) _).plain
  have hne : archivePath (inLab env.root storage.labId ["snapshots"]) sid ≠
      manifestPath (inLab env.root storage.labId ["snapshots"]) sid := by
    rw [archivePath_inLab, manifestPath_inLab]
    simp
  unfold createSnapshot at h
  rw [hsnapshots, hworkspace] at h
  obtain ⟨_, d₁, hruntime, h⟩ := bind_eq_ok.mp h
  obtain ⟨hcontainer, rfl⟩ := raiseIf_eq_ok.mp hruntime
  obtain ⟨_, d₁, hmade, h⟩ := bind_eq_ok.mp h
  obtain ⟨_, d₂, hopened, h⟩ := bind_eq_ok.mp h
  obtain ⟨ms, d₃, hadd, h⟩ := bind_eq_ok.mp h
  obtain ⟨_, d₄, hwritten, h⟩ := bind_eq_ok.mp h
  obtain ⟨archive, d₅, hread, h⟩ := bind_eq_ok.mp h
  obtain ⟨_, d₆, hdescribed, h⟩ := bind_eq_ok.mp h
  obtain ⟨rfl, rfl⟩ := pure_eq_ok.mp h
  obtain ⟨-, rfl⟩ := look_eq_ok.mp (files_eq_ok.mp hread)
  -- the snapshots directory is made, and the files in it are none of its ancestors
  obtain ⟨ht₁, hlink₁, -, hkept, hsame⟩ :=
    made_of_makeDirs ht (harchive.mono (PosixPath.prefix_concat_self _ _))
    (fun m hm => harchivePlain m (List.mem_append_left _ hm)) (files_eq_ok.mp hmade)
  have harchive₁ : NoLink d₁.tree (archivePath (inLab env.root storage.labId ["snapshots"]) sid) :=
    hlink₁.concat fun tgt he => harchive _ List.prefix_rfl tgt
      ((hsame _ (PosixPath.not_concat_prefix _ _)).symm.trans he)
  have hmanifest₁ : NoLink d₁.tree (manifestPath (inLab env.root storage.labId ["snapshots"]) sid) :=
    hlink₁.concat fun tgt he => hmanifest _ List.prefix_rfl tgt
      ((hsame _ (PosixPath.not_concat_prefix _ _)).symm.trans he)
  have hset₂ := set_of_writeBytes harchive₁ harchivePlain (files_eq_ok.mp hopened)
  -- the workspace is as it was when it is archived
  have hworkspace₂ : NoLink d₂.tree (inLab env.root storage.labId ["workspace"]) :=
    hset₂ ▸ (ht₁.noLink_of_dir (hkept _ _ hdir)).set (by simp)
  obtain ⟨rfl, rfl⟩ := TarFile.add_eq_ok (hworkspace₂.leads (plain_inLab hlab (by decide)))
    (files_eq_ok.mp hadd)
  have hcontents : d₂.tree.contents (inLab env.root storage.labId ["workspace"]) =
      d.tree.contents (inLab env.root storage.labId ["workspace"]) := by
    refine contents_congr (by simp [inLab]) fun r => ?_
    have hapart : inLab env.root storage.labId ["workspace"] ++ r =
        inLab env.root storage.labId ("workspace" :: r) := by simp [inLab]
    rw [hapart, hset₂, archivePath_inLab, lookup_set_ne (by simp), hsame _ (by simp)]
  have hset₄ := set_of_writeBytes (hset₂ ▸ harchive₁.set (by simp)) harchivePlain (files_eq_ok.mp hwritten)
  have hmanifest₄ : NoLink d₄.tree (manifestPath (inLab env.root storage.labId ["snapshots"]) sid) :=
    hset₄ ▸ NoLink.set (hset₂ ▸ hmanifest₁.set (by simp)) (by simp)
  have hset₆ := set_of_writeBytes hmanifest₄ hmanifestPlain (files_eq_ok.mp hdescribed)
  refine ⟨not_not.mp hcontainer, rfl, rfl, ?_, ?_⟩
  · rw [hset₆, lookup_set_ne hne, hset₄, lookup_set_self (by simp [archivePath]), hcontents]
  · rw [hset₆, lookup_set_self (by simp [manifestPath])]

end Saved

/-! ### What a restore makes of a listing -/

section Listing

variable {t : FileTree β} {L : PosixPath} {metadata : SnapshotMetadata} {xs : List (List String × Entry β)}

omit [Content β] in
/-- No link is on the way to what is to be put in an empty directory. -/
theorem noLink_of_emptyDir {p : PosixPath} (ht : IsTree t) (hempty : EmptyDir t p) (r : List String) :
    NoLink t (p ++ r) := by
  intro q hq tgt he
  rcases List.prefix_or_prefix_of_prefix hq (List.prefix_append p r) with habove | hbelow
  · exact ht.noLink_of_dir hempty.dir q habove tgt he
  · by_cases hqp : q = p
    · rw [hqp, hempty.dir] at he
      cases he
    · rw [hempty.empty q hbelow hqp] at he
      cases he

omit [Content β] in
/-- The manager's own check lets every entry of a listing pass. -/
theorem passesCheck_member {x : List String × Entry β} (ht : IsTree t)
    (hempty : EmptyDir t (L ++ ["workspace"]))
    (hplain : ∀ n ∈ L ++ "workspace" :: x.1, PosixPath.isPlain n = true) :
    passesCheck t L (TarFile.member "workspace" x) = true := by
  have hlink : NoLink t (L ++ "workspace" :: x.1) := by
    simpa using noLink_of_emptyDir ht hempty x.1
  have hnames : ∀ n ∈ L ++ "workspace" :: x.1, PosixPath.IsName n :=
    fun n hn => PosixPath.isName_of_plain (hplain n hn)
  have hpath : memberPath L (TarFile.member "workspace" x).name = L ++ "workspace" :: x.1 := by
    have hslashes : PathText.isAbsolute ("workspace" :: x.1) = false := by
      cases x.1 <;> rfl
    have hparts : PathText.parts ("workspace" :: x.1) = "workspace" :: x.1 :=
      PathText.parts_eq_self fun n hn =>
        have hn := hnames n (List.mem_append_right _ hn)
        ⟨hn.1, hn.2.1⟩
    simp [memberPath, TarFile.member, hslashes, hparts]
  rw [passesCheck, hpath, realpath_of_noLink hnames hlink, loops_of_noLink hnames hlink]
  exact List.isPrefixOf_iff_prefix.mpr (List.prefix_append _ _)

omit [Content β] in
/-- A file outside the workspace is where it was. -/
theorem lookup_putBack_manifest {text : β} (h : t.lookup metadata.manifestPath = some (.file text))
    (hout : ¬ L ++ ["workspace"] <+: metadata.manifestPath) (xs : List (List String × Entry β)) :
    (t.putBack (L ++ ["workspace"]) xs).lookup metadata.manifestPath = some (.file text) := by
  rw [lookup_putBack_of_notMem fun x _ _ hx => hout ⟨x.1, hx⟩, h]

variable {text : β} (ht : IsTree t) (hplain : ∀ n ∈ L ++ ["workspace"], PosixPath.isPlain n = true)
  (hempty : EmptyDir t (L ++ ["workspace"])) (hxs : Listed xs)
  (hnames : ∀ x ∈ xs, ∀ n ∈ x.1, PosixPath.isPlain n = true)
  (harchive : t.lookup metadata.backendRef =
    some (.file (env.codec.tarGz (xs.map (TarFile.member "workspace")))))

include ht hplain hempty hnames harchive

/-- A listing is extracted. -/
theorem refill_eq : refill env metadata L t =
    match TarFile.extractall L (xs.map (TarFile.member "workspace")) ⟨t, []⟩ with
    | .ok shared d => (d.tree, if d.tree.writable metadata.manifestPath then some shared else none)
    | .error _ d => (d.tree, none) := by
  have hcheck : (xs.map (TarFile.member "workspace")).all (passesCheck t L) = true := by
    rw [List.all_eq_true]
    intro m hm
    obtain ⟨x, hx, rfl⟩ := List.mem_map.mp hm
    refine passesCheck_member ht hempty fun n hn => ?_
    rw [← List.singleton_append, ← List.append_assoc] at hn
    rcases List.mem_append.mp hn with hn | hn
    · exact hplain n hn
    · exact hnames x hx n hn
  have hstat := ht.stat_of_lookup harchive (by simp)
  cases hextract : TarFile.extractall L (xs.map (TarFile.member "workspace")) ⟨t, []⟩ with
  | ok _ d => simp [refill, hstat, env.codec.getmembers_tarGz, hcheck, hextract]
  | error e d => simp [refill, hstat, env.codec.getmembers_tarGz, hcheck, hextract]

include hxs

/-- **A listing that passes is put back.** -/
theorem refill_of_allPass (hmanifest : t.lookup metadata.manifestPath = some (.file text))
    (hout : ¬ L ++ ["workspace"] <+: metadata.manifestPath) (h : TarFile.AllPass t L "workspace" [] xs) :
    refill env metadata L t = (t.putBack (L ++ ["workspace"]) (normalised xs), some []) := by
  have hextract : TarFile.extractall L (xs.map (TarFile.member "workspace")) ⟨t, []⟩ =
      .ok [] ⟨t.putBack (L ++ ["workspace"]) (normalised xs), []⟩ :=
    (TarFile.extractall_listed_iff ht hplain hempty hxs).mpr ⟨h, rfl, rfl⟩
  have hthere := lookup_putBack_manifest hmanifest hout (normalised xs)
  have hwritable : (t.putBack (L ++ ["workspace"]) (normalised xs)).writable metadata.manifestPath = true := by
    unfold writable
    rw [(isTree_putBack ht hempty hxs.normalised).locate_self hthere (by simp)]
    simp [hthere]
  rw [refill_eq ht hplain hempty hnames harchive, hextract]
  exact Prod.ext rfl (if_pos hwritable)

/-- **Otherwise the restore raises.** -/
theorem refill_of_not_allPass (h : ¬ TarFile.AllPass t L "workspace" [] xs) :
    (refill env metadata L t).2 = none := by
  rw [refill_eq ht hplain hempty hnames harchive]
  cases hextract : TarFile.extractall L (xs.map (TarFile.member "workspace")) ⟨t, []⟩ with
  | error e d => rfl
  | ok u d => exact absurd ((TarFile.extractall_listed_iff ht hplain hempty hxs).mp hextract).1 h

end Listing

/-! ### The round trip -/

section Restored

variable {t : FileTree β} {L : PosixPath} {row : SnapshotRow} {lab : LabRow} {storage : LabStorageRow}
  {metadata : SnapshotMetadata} {xs : List (List String × Entry β)} {text : β}

omit [Content β] in
/-- A workspace that has been made and cleared is empty, and all but it and what is above it is as it was. -/
theorem emptied_withDirs (ht : IsTree t) (hplain : ∀ n ∈ L, PosixPath.isPlain n = true) (hopen : Open t L) :
    IsTree (emptied (t.withDirs L) L) ∧ EmptyDir (emptied (t.withDirs L) L) L ∧
      ∀ q, ¬ Comparable L q → (emptied (t.withDirs L) L).lookup q = t.lookup q := by
  have htree := ht.withDirs hplain hopen
  refine ⟨isTree_without htree, ⟨?_, fun q hq hne => ?_⟩, fun q hq => ?_⟩
  · rw [lookup_emptied htree, if_neg fun h => h.2 rfl]
    exact lookup_withDirs_of_open (hopen _ List.prefix_rfl) List.prefix_rfl
  · rw [lookup_emptied htree, if_pos ⟨hq, hne⟩]
  · rw [lookup_emptied htree, if_neg fun h => hq (.inl h.1),
      lookup_withDirs_of_not_prefix fun h => hq (.inr h)]

/-- **A restore of a listing** puts it back into the workspace, its links normalised, where that can be cleared
and all of it passes; otherwise it raises. -/
theorem restore_of_listing (now : ℤ) (hworkspace : storage.workspacePath = L ++ ["workspace"])
    (hplain : ∀ n ∈ L ++ ["workspace"], PosixPath.isPlain n = true) (ht : IsTree t)
    (hopen : Open t (L ++ ["workspace"])) (hxs : Listed xs)
    (hnames : ∀ x ∈ xs, ∀ n ∈ x.1, PosixPath.isPlain n = true) (harchive : t.lookup metadata.backendRef =
      some (.file (env.codec.tarGz (xs.map (TarFile.member "workspace")))))
    (hmanifest : t.lookup metadata.manifestPath = some (.file text))
    (harchiveApart : ¬ Comparable (L ++ ["workspace"]) metadata.backendRef)
    (hmanifestApart : ¬ Comparable (L ++ ["workspace"]) metadata.manifestPath)
    (htext : t.stat (manifestPathFor row) = some (.file text))
    (hparse : parseManifest env text = .ok metadata)
    (hsource : metadata.runtimeClass = RuntimeClass.container.value)
    (htarget : lab.runtimeClass.value = RuntimeClass.container.value) :
    let made := t.withDirs (L ++ ["workspace"])
    let cleared := emptied made (L ++ ["workspace"])
    ((Clearable made (L ++ ["workspace"]) (made.children (L ++ ["workspace"])) ∧
        TarFile.AllPass cleared L "workspace" [] xs) ∧
      ∃ restored d', restoreSnapshot env now row lab storage ⟨t, []⟩ = .ok restored d' ∧
        ∀ r, d'.tree.lookup (L ++ ["workspace"] ++ r) =
          (cleared.putBack (L ++ ["workspace"]) (normalised xs)).lookup (L ++ ["workspace"] ++ r)) ∨
    (¬ (Clearable made (L ++ ["workspace"]) (made.children (L ++ ["workspace"])) ∧
        TarFile.AllPass cleared L "workspace" [] xs) ∧
      ∃ e d', restoreSnapshot env now row lab storage ⟨t, []⟩ = .error e d') := by
  intro made cleared
  have htree : IsTree made := ht.withDirs hplain hopen
  have hdir : made.lookup (L ++ ["workspace"]) = some .dir :=
    lookup_withDirs_of_open (hopen _ List.prefix_rfl) List.prefix_rfl
  obtain ⟨hcleared, hempty, hsame⟩ := emptied_withDirs ht hplain hopen
  have hthere : (t.stat metadata.backendRef).isSome = true := by
    rw [ht.stat_of_lookup harchive (by simp)]
    rfl
  rw [restoreSnapshot_of_restorable htext hparse hsource htarget hthere, hworkspace,
    bind_run_of_ok (files_eq_ok.mpr (makeDirs_run ht hplain hopen))]
  by_cases hclear : Clearable made (L ++ ["workspace"]) (made.children (L ++ ["workspace"]))
  case neg =>
    obtain ⟨gone, n, rest, -, -, -, hraises⟩ :=
      clearChildren_run_stuck htree (nodup_children made _) (fun n hn => mem_children.mp hn) hclear
    rw [← clearDirectory_eq hdir htree] at hraises
    exact .inr ⟨fun hboth => hclear hboth.1, _, _, bind_eq_error.mpr (.inl hraises)⟩
  rw [bind_run_of_ok (clearDirectory_run htree hdir hclear)]
  rw [← hsame _ harchiveApart] at harchive
  rw [← hsame _ hmanifestApart] at hmanifest
  have hlink : NoLink cleared L := (noLink_of_emptyDir hcleared hempty []).mono (by simp)
  by_cases hpass : TarFile.AllPass cleared L "workspace" [] xs
  · have hrefill := refill_of_allPass hcleared hplain hempty hxs hnames harchive hmanifest
      (fun h => hmanifestApart (.inl h)) hpass
    rcases fillWorkspace_run env now metadata lab
      (fun n hn => hplain n (List.mem_append_left _ hn)) hlink with
      ⟨restored, d', text', shared, hreturns, hshared, hwrite⟩ | ⟨e, d', -, hrefused⟩
    · refine .inl ⟨⟨hclear, hpass⟩, restored, d', hreturns, fun r => ?_⟩
      -- the manifest is written beside the archive
      rw [hrefill] at hwrite hshared
      obtain rfl := Option.some.inj hshared
      rw [writeShared_nil] at hwrite
      obtain ⟨q, hq, hset, -⟩ := write_eq_some hwrite
      have hmanifest' := lookup_putBack_manifest hmanifest (fun h => hmanifestApart (.inl h)) (normalised xs)
      rw [(isTree_putBack hcleared hempty hxs.normalised).locate_self hmanifest' (by simp)] at hq
      obtain rfl := Option.some.inj hq
      exact hset ▸ lookup_set_ne fun h => hmanifestApart (.inl ⟨r, h⟩)
    · exact absurd (Prod.mk.inj (hrefill.symm.trans hrefused)).2 (by simp)
  · have hrefill := refill_of_not_allPass hcleared hplain hempty hxs hnames harchive hpass
    rcases fillWorkspace_run env now metadata lab
      (fun n hn => hplain n (List.mem_append_left _ hn)) hlink with
      ⟨restored, d', text', shared, -, hthrough, -⟩ | ⟨e, d', hraises, -⟩
    · rw [hrefill] at hthrough
      cases hthrough
    · exact .inr ⟨fun hboth => hpass hboth.2, e, d', hraises⟩

end Restored

/-- The files of a snapshot are not in a workspace, nor above one. -/
theorem snapshotFiles_apart {storage : LabStorageRow} (hlayout : AtLayout env.root storage)
    (labId sid : String) {p : PosixPath}
    (hp : p = archivePath storage.snapshotsPath sid ∨ p = manifestPath storage.snapshotsPath sid) :
    ¬ Comparable (labRoot env.root labId ++ ["workspace"]) p := by
  have hsnapshots : storage.snapshotsPath = inLab env.root storage.labId ["snapshots"] := by
    rw [hlayout.2.2.2.2, hlayout.1]
  rw [hsnapshots, archivePath_inLab, manifestPath_inLab] at hp
  rcases hp with rfl | rfl <;> simp

/-- **A snapshot is restored to what it captured exactly when** the workspace of the target can be cleared,
and every link of the snapshot passes the filter where it is put and is written as it comes out of it. -/
theorem snapshot_restores_iff (env : Environment β) (now now' : ℤ) (sid : String) (runId : Option String)
    (source target : LabRow) (sourceStorage targetStorage : LabStorageRow) (row : SnapshotRow)
    (created : SnapshotMetadata) (d d₁ d₂ : Disk β)
    (hsid : isIdentifier sid = true) (hsource : isIdentifier sourceStorage.labId = true)
    (htarget : isIdentifier targetStorage.labId = true)
    (hsourceLayout : AtLayout env.root sourceStorage) (htargetLayout : AtLayout env.root targetStorage)
    (ht : IsTree d.tree) (hdir : d.tree.lookup sourceStorage.workspacePath = some .dir)
    (harchive : NoLink d.tree (archivePath sourceStorage.snapshotsPath sid))
    (hmanifest : NoLink d.tree (manifestPath sourceStorage.snapshotsPath sid))
    (hcreated : createSnapshot env now sid source sourceStorage runId d = .ok created d₁)
    (hrow : row.id = sid) (href : row.backendRef = created.backendRef)
    (hcontainer : target.runtimeClass = .container) (ht₂ : IsTree d₂.tree)
    (hopen : Open d₂.tree targetStorage.workspacePath) (hfates : d₂.fates = [])
    (hkept : ∀ p, p = archivePath sourceStorage.snapshotsPath sid ∨
      p = manifestPath sourceStorage.snapshotsPath sid →
      d₂.tree.lookup p = d₁.tree.lookup p) :
    (∃ restored d₃, restoreSnapshot env now' row target targetStorage d₂ = .ok restored d₃ ∧
        ∀ r, d₃.tree.lookup (targetStorage.workspacePath ++ r) = d.tree.lookup
          (sourceStorage.workspacePath ++ r)) ↔
      Clearable (d₂.tree.withDirs targetStorage.workspacePath) targetStorage.workspacePath
          ((d₂.tree.withDirs targetStorage.workspacePath).children targetStorage.workspacePath) ∧
        TarFile.AllPass (emptied (d₂.tree.withDirs targetStorage.workspacePath) targetStorage.workspacePath)
          (labRoot env.root targetStorage.labId) "workspace" []
          (d.tree.contents sourceStorage.workspacePath) ∧
        Normal (d.tree.contents sourceStorage.workspacePath) := by
  obtain ⟨t₂, fates⟩ := d₂
  obtain rfl : fates = [] := hfates
  obtain ⟨hruntime, hbackend, hmanifestPath, hsavedArchive, hsavedManifest⟩ :=
    saved_of_createSnapshot hsource hsid hsourceLayout ht hdir harchive hmanifest hcreated
  have hworkspace : targetStorage.workspacePath = labRoot env.root targetStorage.labId ++ ["workspace"] := by
    rw [htargetLayout.2.1, htargetLayout.1]
  have hsourceDir : sourceStorage.workspacePath ≠ [] := by
    rw [hsourceLayout.2.1]
    simp
  have hlisted := listed_contents ht hsourceDir hdir
  have hnames : ∀ x ∈ d.tree.contents sourceStorage.workspacePath, ∀ n ∈ x.1, PosixPath.isPlain n = true :=
    fun x hx n hn => ht.plain_of_lookup ((mem_contents hsourceDir).mp hx) n (List.mem_append_right _ hn)
  rw [← hkept _ (.inl hbackend)] at hsavedArchive
  rw [← hkept _ (.inr hmanifestPath)] at hsavedManifest
  rw [hworkspace] at hopen ⊢
  have htext : t₂.stat (manifestPathFor row) = some (.file (env.codec.dumps created.toDict)) := by
    rw [manifestPathFor_eq (hrow ▸ hsid) (by rw [href, hbackend, hrow]), hrow, ← hmanifestPath]
    exact ht₂.stat_of_lookup hsavedManifest (by simp)
  have hparse := parseManifest_dumps env created
  rcases restore_of_listing now' hworkspace (plain_inLab htarget (by decide)) ht₂ hopen hlisted hnames
      hsavedArchive hsavedManifest (snapshotFiles_apart hsourceLayout targetStorage.labId sid (.inl hbackend))
      (snapshotFiles_apart hsourceLayout targetStorage.labId sid (.inr hmanifestPath)) htext hparse hruntime
      (by rw [hcontainer]) with
    ⟨hboth, restored, d₃, hrestored, hlook⟩ | ⟨hnot, e, d₃, hraises⟩
  · rw [← and_assoc, and_iff_right hboth, ← same_putBack_contents_iff hsourceDir hdir
      (emptied_withDirs ht₂ (plain_inLab htarget (by decide)) hopen).2.1]
    constructor
    · rintro ⟨restored', d₃', hrestored', hsame⟩ r
      obtain ⟨-, rfl⟩ := EStateM.Result.ok.inj (hrestored'.symm.trans hrestored)
      exact (hlook r).symm.trans (hsame r)
    · exact fun hsame => ⟨restored, d₃, hrestored, fun r => (hlook r).trans (hsame r)⟩
  · refine iff_of_false ?_ fun h => hnot ⟨h.1, h.2.1⟩
    rintro ⟨restored, d', hrestored, -⟩
    rw [hraises] at hrestored
    cases hrestored

/-- Two labs, and a text in the workspace of one. -/
def sharedRun : List (Action Blob) :=
  [.request (.createLab "safe-dev" .human) 0 [],
   .request (.createLab "safe-dev" .human) 1 [],
   .guest "a" [(["srv", "labs", "a", "workspace", "notes.txt"], .file (.data "a" ['x']))]]

/-- A snapshot of the one is restored into the other. -/
theorem snapshot_restores_iff_sharedRun :
    ∃ source target sourceStorage targetStorage created d₁ row restored d₃,
      createSnapshot (symbolic defaultProfiles) 2 "aaa" source sourceStorage none
        ⟨(runFrom (symbolic defaultProfiles) emptyState sharedRun).tree, []⟩ = .ok created d₁ ∧
      restoreSnapshot (symbolic defaultProfiles) 3 row target targetStorage d₁ = .ok restored d₃ ∧
      ∀ r, d₃.tree.lookup (targetStorage.workspacePath ++ r) =
        (runFrom (symbolic defaultProfiles) emptyState sharedRun).tree.lookup
          (sourceStorage.workspacePath ++ r) := by
  have hrun : ((runFrom (symbolic defaultProfiles) emptyState sharedRun).store.labs.get? "a").any
      (fun source => ((runFrom (symbolic defaultProfiles) emptyState sharedRun).store.labs.get? "aa").any
        fun target => ((runFrom
          (symbolic defaultProfiles) emptyState sharedRun).store.labStorage.get? "a").any
          fun sourceStorage =>
            ((runFrom (symbolic defaultProfiles) emptyState sharedRun).store.labStorage.get? "aa").any
              fun targetStorage =>
                returns (fun _ d₁ =>
                    target.runtimeClass = .container &&
                    d₁.tree.checkTree && d₁.fates.isEmpty &&
                    d₁.tree.lookup targetStorage.workspacePath = some .dir &&
                    (d₁.tree.withDirs targetStorage.workspacePath).children
                      targetStorage.workspacePath = [] &&
                    ((runFrom (symbolic defaultProfiles) emptyState sharedRun).tree.contents
                      sourceStorage.workspacePath).all fun x => x.2.target?.isNone)
                  (createSnapshot (symbolic defaultProfiles) 2 "aaa" source sourceStorage none
                    ⟨(runFrom (symbolic defaultProfiles) emptyState sharedRun).tree, []⟩)) = true := by
    decide +kernel
  obtain ⟨source, -, hrun⟩ := (Option.any_eq_true ..).mp hrun
  obtain ⟨target, -, hrun⟩ := (Option.any_eq_true ..).mp hrun
  obtain ⟨sourceStorage, hsource, hrun⟩ := (Option.any_eq_true ..).mp hrun
  obtain ⟨targetStorage, htarget, hrun⟩ := (Option.any_eq_true ..).mp hrun
  have hsound := sound_of_run (initial_emptyState defaultProfiles) sharedRun
  have hsourceLayout := (hsound.layout _ _ hsource).1
  have htargetLayout := (hsound.layout _ _ htarget).1
  have hsourceId : sourceStorage.labId = "a" := Table.key_of_get? hsource
  have htargetId : targetStorage.labId = "aa" := Table.key_of_get? htarget
  have htree : IsTree (runFrom (symbolic defaultProfiles) emptyState sharedRun).tree :=
    isTree_of_checkTree (by decide +kernel)
  have hsnapshots : sourceStorage.snapshotsPath = ["srv", "labs", "a", "snapshots"] := by
    rw [hsourceLayout.2.2.2.2, hsourceLayout.1, hsourceId]
    rfl
  have hworkspace : sourceStorage.workspacePath = ["srv", "labs", "a", "workspace"] := by
    rw [hsourceLayout.2.1, hsourceLayout.1, hsourceId]
    rfl
  have hunlinked : ∀ n, ((runFrom (symbolic defaultProfiles) emptyState sharedRun).tree.lookup
      (["srv", "labs", "a", "snapshots"] ++ [n])).isNone = true →
      NoLink (runFrom (symbolic defaultProfiles) emptyState sharedRun).tree
        (["srv", "labs", "a", "snapshots"] ++ [n]) := by
    intro n hnone
    refine (htree.noLink_of_dir (by decide +kernel)).concat fun tgt he => ?_
    rw [he] at hnone
    cases hnone
  obtain ⟨created, d₁, hcreated, hrun⟩ := returns_eq_true.mp hrun
  simp only [Bool.and_eq_true, decide_eq_true_eq, List.all_eq_true] at hrun
  obtain ⟨⟨⟨⟨⟨hcontainer, htree₁⟩, hfates⟩, hdir⟩, hchildren⟩, hlinkless⟩ := hrun
  have hopen := (isTree_of_checkTree htree₁).open_of_dir hdir
  have hpass : ∀ x ∈ (runFrom (symbolic defaultProfiles) emptyState sharedRun).tree.contents
      sourceStorage.workspacePath, ∀ tgt, x.2 ≠ .symlink tgt :=
    fun x hx => Entry.target?_eq_none.mp (Option.isNone_iff_eq_none.mp (hlinkless x hx))
  obtain ⟨restored, d₃, hrestored, hsame⟩ :=
    (snapshot_restores_iff (symbolic defaultProfiles) 2 3 "aaa" none source
    target sourceStorage targetStorage ⟨"aaa", "a", created.backendRef, .utc 2⟩ created _ d₁ d₁ (by decide)
    (by rw [hsourceId]; decide) (by rw [htargetId]; decide) hsourceLayout htargetLayout htree
    (by rw [hworkspace]; decide +kernel) (by rw [hsnapshots]; exact hunlinked _ (by decide +kernel))
    (by rw [hsnapshots]; exact hunlinked _ (by decide +kernel)) hcreated rfl rfl hcontainer
    (isTree_of_checkTree htree₁) hopen (List.isEmpty_iff.mp hfates) fun _ _ => rfl).mpr
    ⟨by rw [hchildren]; trivial, TarFile.allPass_of_linkless hpass, normal_of_linkless hpass⟩
  exact ⟨source, target, sourceStorage, targetStorage, created, d₁, _, restored, d₃, hcreated,
    hrestored, hsame⟩

/-! ### A link that is archived and not extracted -/

/-- A guest links to `/etc`, and a snapshot is made. -/
def hostLinkRun : List (Action Blob) :=
  [.request (.createLab "safe-dev" .human) 0 [],
   .guest "a" [(["srv", "labs", "a", "workspace", "etc"], .symlink ["", "etc"])],
   .request (.createSnapshot "a" none .human) 1 []]

/-- **A snapshot is made that is not restored**: not even into the container lab it was made of, with no
fault of the disk and the workspace as it was then. -/
theorem snapshot_unrestorable :
    ∃ row lab storage e d',
      (runFrom (symbolic defaultProfiles) emptyState hostLinkRun).store.snapshots.get? "aa" = some row ∧
      (runFrom (symbolic defaultProfiles) emptyState hostLinkRun).store.labs.get? "a" = some lab ∧
      (runFrom (symbolic defaultProfiles) emptyState hostLinkRun).store.labStorage.get? "a" = some storage ∧
      lab.runtimeClass = .container ∧
      restoreSnapshot (symbolic defaultProfiles) 2 row lab storage
        ⟨(runFrom (symbolic defaultProfiles) emptyState hostLinkRun).tree, []⟩ = .error e d' := by
  have hrun : ((runFrom (symbolic defaultProfiles) emptyState hostLinkRun).store.snapshots.get? "aa").any
      (fun row => ((runFrom (symbolic defaultProfiles) emptyState hostLinkRun).store.labs.get? "a").any
        fun lab => ((runFrom (symbolic defaultProfiles) emptyState hostLinkRun).store.labStorage.get? "a").any
          fun storage => lab.runtimeClass = .container &&
            raises (fun _ _ => true) (restoreSnapshot (symbolic defaultProfiles) 2 row lab storage
              ⟨(runFrom (symbolic defaultProfiles) emptyState hostLinkRun).tree, []⟩)) = true := by
    decide +kernel
  obtain ⟨row, hrow, hrun⟩ := (Option.any_eq_true ..).mp hrun
  obtain ⟨lab, hlab, hrun⟩ := (Option.any_eq_true ..).mp hrun
  obtain ⟨storage, hstorage, hrun⟩ := (Option.any_eq_true ..).mp hrun
  obtain ⟨hcontainer, hrun⟩ := (Bool.and_eq_true ..).mp hrun
  obtain ⟨e, d', hraises, -⟩ := raises_eq_true.mp hrun
  exact ⟨row, lab, storage, e, d', hrow, hlab, hstorage, of_decide_eq_true hcontainer, hraises⟩

end LabOS
