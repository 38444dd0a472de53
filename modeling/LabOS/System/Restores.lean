import LabOS.System.Archives

/-!
# A restore, step by step

What `restore_snapshot` does: the workspace is made where it is missing, its names are removed one
after another, and what is left is filled from the archive. On a disk without faults the removal
stops at a link that leads to a directory, which `is_dir` takes for a directory and `rmtree`
refuses, and nowhere else.

## What is proved

* `SnapshotManager.clearDirectory_run` — a directory without such links is emptied.
* `SnapshotManager.within_restoreSnapshot` — a restore changes only the workspace of the target
  and the manifest of the snapshot.
* `SnapshotManager.fillWorkspace_run` — whether an empty workspace is filled, and what with.
-/

namespace LabOS

open Exceptional FileOps FileTree ManagedStorageAllocator

variable {β : Type}

namespace SnapshotManager

/-! ### Clearing a directory without faults -/

section Clearing

variable {t : FileTree β} {p : PosixPath} {n : String} {names : List String}

/-- A link that leads to a directory. -/
def Stuck (t : FileTree β) (p : PosixPath) : Prop := t.lookup p ≠ some .dir ∧ t.stat p = some .dir

instance (t : FileTree β) (p : PosixPath) : Decidable (Stuck t p) := inferInstanceAs (Decidable (_ ∧ _))

/-- `_clear_directory` can remove these names of a directory one after another: none of them is a link
that leads to a directory by then. -/
def Clearable (t : FileTree β) (p : PosixPath) : List String → Prop
  | [] => True
  | n :: names => ¬ Stuck t (p ++ [n]) ∧ Clearable (t.prune (p ++ [n]) fun _ => false) p names

/-- A directory without some of its names. -/
def without (t : FileTree β) (p : PosixPath) (names : List String) : FileTree β :=
  names.foldl (fun t n => t.prune (p ++ [n]) fun _ => false) t

theorem lookup_without {q : PosixPath} (hq : q ≠ []) :
    (without t p names).lookup q = if ∃ n ∈ names, p ++ [n] <+: q then none else t.lookup q := by
  induction names generalizing t with
  | nil => simp [without]
  | cons n names ih =>
    show (without (t.prune (p ++ [n]) fun _ => false) p names).lookup q = _
    rw [ih, lookup_prune hq]
    by_cases hfirst : p ++ [n] <+: q
    · simp [hfirst]
    · simp [hfirst]

theorem isTree_prune (ht : IsTree t) : IsTree (t.prune p fun _ => false) := ht.prune fun _ _ _ h => by cases h

theorem isTree_without (ht : IsTree t) : IsTree (without t p names) := by
  induction names generalizing t with
  | nil => exact ht
  | cons n names ih => exact ih (isTree_prune ht)

/-- The names of a directory are different. -/
theorem nodup_children (t : FileTree β) (p : PosixPath) : (t.children p).Nodup := by
  refine List.Nodup.of_map (fun n => p ++ [n]) ?_
  have hpaths : (t.children p).map (fun n => p ++ [n]) =
      (t.rows.filter fun x => x.1 ≠ [] && x.1.dropLast = p).map Prod.fst := by
    unfold children
    rw [List.map_map]
    refine List.map_congr_left ?_
    rintro ⟨q, e⟩ hq
    simp only [List.mem_filter, Bool.and_eq_true, decide_eq_true_eq] at hq
    obtain ⟨-, hne, rfl⟩ := hq
    rcases PosixPath.eq_nil_or_concat q with rfl | ⟨d, n, rfl⟩
    · exact absurd rfl hne
    · simp [PosixPath.name]
  rw [hpaths]
  exact (List.filter_sublist.map Prod.fst).nodup t.nodup

/-- A name that is no link to a directory is removed with all below it. -/
theorem clearChild_run {e : Entry β} (ht : IsTree t) (he : t.lookup (p ++ [n]) = some e)
    (hstuck : ¬ Stuck t (p ++ [n])) :
    clearChild p n ⟨t, []⟩ = .ok () ⟨t.prune (p ++ [n]) fun _ => false, []⟩ := by
  by_cases hdir : t.stat (p ++ [n]) = some .dir
  · have hthere : t.lookup (p ++ [n]) = some .dir := by
      by_contra hno
      exact hstuck ⟨hno, hdir⟩
    have hremoved : (t.rmtree (p ++ [n]) fun _ => false) = some (t.prune (p ++ [n]) fun _ => false) := by
      unfold FileTree.rmtree
      rw [ht.locate_child he]
      show (if t.lookup (p ++ [n]) = some .dir
          then some (t.removeSome (p ++ [n]) fun _ => false) else none) = _
      rw [if_pos hthere, removeSome_nothing]
    rw [clearChild, bind_run_of_ok (files_eq_ok.mpr (isDir_run hdir []))]
    exact files_eq_ok.mpr (rmtree_run hremoved)
  · have hremoved : t.unlink (p ++ [n]) = some (t.prune (p ++ [n]) fun _ => false) := by
      unfold FileTree.unlink
      rw [ht.locate_child he]
      cases e with
      | dir => exact absurd (ht.stat_of_lookup he (by simp)) hdir
      | file b => simp [he]
      | symlink tgt => simp [he]
    rw [clearChild, bind_run_of_ok (files_eq_ok.mpr (isDir_run_false hdir []))]
    exact files_eq_ok.mpr (unlink_run hremoved)

/-- At a link to a directory the removal stops. -/
theorem clearChild_run_stuck {e : Entry β} (ht : IsTree t) (he : t.lookup (p ++ [n]) = some e)
    (hstuck : Stuck t (p ++ [n])) :
    clearChild p n ⟨t, []⟩ = .error (.file .osError) ⟨t, []⟩ := by
  have hrefused : (t.rmtree (p ++ [n]) fun _ => false) = none := by
    unfold FileTree.rmtree
    rw [ht.locate_child he]
    simp [hstuck.1]
  rw [clearChild, bind_run_of_ok (files_eq_ok.mpr (isDir_run hstuck.2 []))]
  exact files_eq_error.mpr ⟨_, rmtree_run_none hrefused, rfl⟩

theorem there_of_prune {names : List String} (hnodup : (n :: names).Nodup)
    (hthere : ∀ m ∈ n :: names, ∃ e, t.lookup (p ++ [m]) = some e) :
    ∀ m ∈ names, ∃ e, (t.prune (p ++ [n]) fun _ => false).lookup (p ++ [m]) = some e := by
  intro m hm
  obtain ⟨e, he⟩ := hthere m (List.mem_cons_of_mem _ hm)
  refine ⟨e, ?_⟩
  rw [lookup_prune_of_not_below, he]
  intro hpre
  obtain rfl : n = m := by simpa using hpre
  exact (List.nodup_cons.mp hnodup).1 hm

/-- **Clearable names are removed**, with all below them. -/
theorem clearChildren_run (ht : IsTree t) (hnodup : names.Nodup)
    (hthere : ∀ n ∈ names, ∃ e, t.lookup (p ++ [n]) = some e) (h : Clearable t p names) :
    names.forM (clearChild p) ⟨t, []⟩ = .ok () ⟨without t p names, []⟩ := by
  induction names generalizing t with
  | nil => rfl
  | cons n names ih =>
    obtain ⟨hstuck, hrest⟩ := h
    obtain ⟨e, he⟩ := hthere n List.mem_cons_self
    show (clearChild p n >>= fun _ => names.forM (clearChild p)) _ = _
    rw [bind_run_of_ok (clearChild_run ht he hstuck)]
    exact ih (isTree_prune ht) (List.nodup_cons.mp hnodup).2 (there_of_prune hnodup hthere) hrest

/-- **Otherwise the removal stops** at the first name that is a link to a directory by then. -/
theorem clearChildren_run_stuck (ht : IsTree t) (hnodup : names.Nodup)
    (hthere : ∀ n ∈ names, ∃ e, t.lookup (p ++ [n]) = some e) (h : ¬ Clearable t p names) :
    ∃ gone n rest, names = gone ++ n :: rest ∧ Clearable t p gone ∧ Stuck (without t p gone) (p ++ [n]) ∧
      names.forM (clearChild p) ⟨t, []⟩ = .error (.file .osError) ⟨without t p gone, []⟩ := by
  induction names generalizing t with
  | nil => exact absurd trivial h
  | cons n names ih =>
    obtain ⟨e, he⟩ := hthere n List.mem_cons_self
    by_cases hstuck : Stuck t (p ++ [n])
    · refine ⟨[], n, names, rfl, trivial, hstuck, ?_⟩
      show (clearChild p n >>= fun _ => names.forM (clearChild p)) _ = _
      exact bind_eq_error.mpr (.inl (clearChild_run_stuck ht he hstuck))
    · have hrest : ¬ Clearable (t.prune (p ++ [n]) fun _ => false) p names := fun hrest => h ⟨hstuck, hrest⟩
      obtain ⟨gone, m, rest, rfl, hgone, hm, hraises⟩ := ih (isTree_prune ht) (List.nodup_cons.mp hnodup).2
        (there_of_prune hnodup hthere) hrest
      refine ⟨n :: gone, m, rest, rfl, ⟨hstuck, hgone⟩, hm, ?_⟩
      show (clearChild p n >>= fun _ => (gone ++ m :: rest).forM (clearChild p)) _ = _
      rw [bind_run_of_ok (clearChild_run ht he hstuck)]
      exact hraises

/-- A directory without its names. -/
abbrev emptied (t : FileTree β) (p : PosixPath) : FileTree β := without t p (t.children p)

/-- Nothing is below a directory without its names, and all else is as it was. -/
theorem lookup_emptied (ht : IsTree t) (q : PosixPath) :
    (emptied t p).lookup q = if p <+: q ∧ q ≠ p then none else t.lookup q := by
  by_cases hq : q = []
  · subst hq
    rw [if_neg fun h => h.2 (List.prefix_nil.mp h.1).symm, lookup_nil, lookup_nil]
  rw [lookup_without hq]
  by_cases hbelow : p <+: q ∧ q ≠ p
  · rw [if_pos hbelow]
    split
    · rfl
    · next hout =>
      by_contra hsome
      obtain ⟨e, he⟩ := Option.ne_none_iff_exists'.mp hsome
      exact hout (ht.exists_child he hbelow.1 hbelow.2)
  · rw [if_neg hbelow, if_neg]
    rintro ⟨n, -, hpre⟩
    refine hbelow ⟨(PosixPath.prefix_concat_self p n).trans hpre, ?_⟩
    rintro rfl
    exact PosixPath.not_concat_prefix q n hpre

theorem clearDirectory_eq (hdir : t.lookup p = some .dir) (ht : IsTree t) (fates : List Fate) :
    clearDirectory p ⟨t, fates⟩ = (t.children p).forM (clearChild p) ⟨t, fates⟩ := by
  have hnames : iterdir p ⟨t, fates⟩ = .ok (t.children p) ⟨t, fates⟩ := by
    refine look_run ?_ fates
    rw [ht.locate_self hdir (by simp)]
    exact if_pos hdir
  exact bind_run_of_ok (files_eq_ok.mpr hnames)

/-- **Clearing a clearable directory** empties it. -/
theorem clearDirectory_run (ht : IsTree t) (hdir : t.lookup p = some .dir)
    (h : Clearable t p (t.children p)) :
    clearDirectory p ⟨t, []⟩ = .ok () ⟨emptied t p, []⟩ := by
  rw [clearDirectory_eq hdir ht]
  exact clearChildren_run ht (nodup_children t p) (fun n hn => mem_children.mp hn) h

end Clearing

theorem plain_workspace {extractRoot : PosixPath} (hplain : ∀ n ∈ extractRoot, PosixPath.isPlain n = true) :
    ∀ n ∈ extractRoot ++ ["workspace"], PosixPath.isPlain n = true := by
  intro n hn
  rcases List.mem_append.mp hn with hn | hn
  · exact hplain n hn
  · rw [List.mem_singleton.mp hn]
    decide

/-- What is extracted where the workspace is stays there. -/
theorem moveExtracted_self [Content β] (shared : Sharing) (p : PosixPath) :
    (moveExtracted shared p p : DiskM β Sharing) = pure shared :=
  if_pos rfl

/-! ### The two halves of a restore -/

section Halves

variable [Content β] {env : Environment β} {t : FileTree β} {now : ℤ} {row : SnapshotRow} {lab : LabRow}
  {storage : LabStorageRow}

/-- What a restore does once the workspace is empty. -/
def fillWorkspace (env : Environment β) (now : ℤ) (metadata : SnapshotMetadata) (targetLab : LabRow)
    (workspacePath : PosixPath) : DiskM β SnapshotMetadata := do
  let extractRoot ← files (resolve (PosixPath.parent workspacePath))
  let archive ← files (readBytes metadata.backendRef)
  let members ← orRaise (env.codec.getmembers archive) (.file .tarError)
  checkMembers extractRoot members
  let shared ← files (TarFile.extractall extractRoot members)
  let shared ← moveExtracted shared (PosixPath.parent workspacePath ++ ["workspace"]) workspacePath
  let restored : SnapshotMetadata := {
    metadata with
    state := "restored"
    restoredAt := some (.utc now)
    restoredLabId := some targetLab.id
  }
  files (writeThrough shared metadata.manifestPath (env.codec.dumps restored.toDict))
  return restored

/-- Filling the workspace stays in a frame in which extracting and writing a file do. -/
theorem within_fillWorkspace_of {F : Frame (Disk β)} {metadata : SnapshotMetadata} {d : Disk β} {L : PosixPath}
    (hextract : ∀ dest ms d, Within F (TarFile.extractall dest ms) d)
    (hwrite : ∀ shared p b d, Within F (writeThrough shared p b) d) :
    Within F (fillWorkspace env now metadata lab (L ++ ["workspace"])) d := by
  unfold fillWorkspace
  rw [show PosixPath.parent (L ++ ["workspace"]) = L by simp [PosixPath.parent]]
  refine (within_files (within_look _ _)).bind fun _ _ _ _ =>
    (within_files (within_look _ _)).bind fun _ _ _ _ =>
    (Within.orRaise _ _).bind fun _ _ _ _ => within_checkMembers.bind fun _ _ _ _ =>
      (within_files (hextract _ _ _)).bind fun shared _ _ _ => ?_
  rw [moveExtracted_self]
  exact (Within.pure _).bind fun _ _ _ _ => (within_files (hwrite _ _ _ _)).bind fun _ _ _ _ => Within.pure _

theorem restorable_iff : restorable env t row lab = true ↔ ∃ text metadata,
    t.stat (manifestPathFor row) = some (.file text) ∧ parseManifest env text = .ok metadata ∧
      metadata.runtimeClass = RuntimeClass.container.value ∧
      lab.runtimeClass.value = RuntimeClass.container.value ∧ (t.stat metadata.backendRef).isSome = true := by
  unfold restorable
  constructor
  · intro h
    split at h
    · next text htext =>
      split at h
      · next metadata hparse =>
        simp only [Bool.and_eq_true, decide_eq_true_eq] at h
        exact ⟨text, metadata, htext, hparse, h.1.1, h.1.2, h.2⟩
      · cases h
    · cases h
  · rintro ⟨text, metadata, htext, hparse, hsource, htarget, hthere⟩
    simp [htext, hparse, hsource, htarget, hthere]

/-- A manifest that can be read is loaded. -/
theorem loadMetadata_run {text : β} {metadata : SnapshotMetadata}
    (htext : t.stat (manifestPathFor row) = some (.file text))
    (hparse : parseManifest env text = .ok metadata) (fates : List Fate) :
    loadMetadata env row ⟨t, fates⟩ = .ok (some metadata) ⟨t, fates⟩ := by
  have hthere : files (pathExists (manifestPathFor row)) ⟨t, fates⟩ = .ok true ⟨t, fates⟩ :=
    files_eq_ok.mpr (look_run (by rw [htext]; rfl) fates)
  have hread : files (readBytes (manifestPathFor row)) ⟨t, fates⟩ = .ok text ⟨t, fates⟩ :=
    files_eq_ok.mpr (look_run (by rw [htext]) fates)
  rw [loadMetadata, bind_run_of_ok hthere, if_pos rfl, bind_run_of_ok hread,
    bind_run_of_ok (fromExcept_eq_ok.mpr ⟨hparse, rfl⟩)]
  rfl

/-- **A restore of what can be restored**: the workspace is made, cleared and filled. -/
theorem restoreSnapshot_of_restorable {text : β} {metadata : SnapshotMetadata}
    (htext : t.stat (manifestPathFor row) = some (.file text))
    (hparse : parseManifest env text = .ok metadata)
    (hsource : metadata.runtimeClass = RuntimeClass.container.value)
    (htarget : lab.runtimeClass.value = RuntimeClass.container.value)
    (hthere : (t.stat metadata.backendRef).isSome = true) (fates : List Fate) :
    restoreSnapshot env now row lab storage ⟨t, fates⟩ =
      (files (makeDirs storage.workspacePath) >>= fun _ => clearDirectory storage.workspacePath >>= fun _ =>
        fillWorkspace env now metadata lab storage.workspacePath) ⟨t, fates⟩ := by
  have hloaded := loadMetadata_run htext hparse fates
  have harchive : files (pathExists metadata.backendRef) ⟨t, fates⟩ = .ok true ⟨t, fates⟩ :=
    files_eq_ok.mpr (look_run (by rw [hthere]) fates)
  have hsupported : ensureRuntimeSupported metadata.runtimeClass (⟨t, fates⟩ : Disk β) = .ok () ⟨t, fates⟩ :=
    raiseIf_eq_ok.mpr ⟨not_not.mpr hsource, rfl⟩
  have hsupported' : ensureRuntimeSupported lab.runtimeClass.value (⟨t, fates⟩ : Disk β) =
      .ok () ⟨t, fates⟩ :=
    raiseIf_eq_ok.mpr ⟨not_not.mpr htarget, rfl⟩
  unfold restoreSnapshot
  rw [bind_run_of_ok hloaded, bind_run_of_ok (orRaise_eq_ok.mpr ⟨rfl, rfl⟩), bind_run_of_ok hsupported,
    bind_run_of_ok hsupported', bind_run_of_ok harchive]
  rfl

/-- **Otherwise a restore** raises and changes nothing. -/
theorem restoreSnapshot_of_not_restorable (now : ℤ) (storage : LabStorageRow)
    (h : restorable env t row lab = false) (fates : List Fate) :
    ∃ e, restoreSnapshot env now row lab storage ⟨t, fates⟩ = .error e ⟨t, fates⟩ := by
  have hrefused := mt restorable_iff.mpr (ne_true_of_eq_false h)
  unfold restoreSnapshot
  cases hloaded : loadMetadata env row ⟨t, fates⟩ with
  | error e d =>
    have hsame : Within unchanged (loadMetadata env row) ⟨t, fates⟩ := within_loadMetadata
    unfold Within at hsame
    rw [hloaded] at hsame
    obtain rfl : (⟨t, fates⟩ : Disk β) = d := hsame
    exact ⟨e, bind_eq_error.mpr (.inl hloaded)⟩
  | ok loaded d =>
    obtain rfl : (⟨t, fates⟩ : Disk β) = d := (within_loadMetadata (F := unchanged)).of_ok hloaded
    rw [bind_run_of_ok hloaded]
    cases loaded with
    | none => exact ⟨_, bind_eq_error.mpr (.inl (orRaise_eq_error.mpr ⟨rfl, rfl, rfl⟩))⟩
    | some metadata =>
      obtain ⟨-, text, htext, hparse⟩ := loadMetadata_eq_ok hloaded
      rw [bind_run_of_ok (orRaise_eq_ok.mpr ⟨rfl, rfl⟩)]
      by_cases hsource : metadata.runtimeClass = RuntimeClass.container.value
      · have hsupported : ensureRuntimeSupported metadata.runtimeClass (⟨t, fates⟩ : Disk β) =
            .ok () ⟨t, fates⟩ :=
          raiseIf_eq_ok.mpr ⟨not_not.mpr hsource, rfl⟩
        rw [bind_run_of_ok hsupported]
        by_cases htarget : lab.runtimeClass.value = RuntimeClass.container.value
        · have hsupported' : ensureRuntimeSupported lab.runtimeClass.value (⟨t, fates⟩ : Disk β) =
              .ok () ⟨t, fates⟩ :=
            raiseIf_eq_ok.mpr ⟨not_not.mpr htarget, rfl⟩
          have hmissing : (t.stat metadata.backendRef).isSome = false := by
            by_contra hsome
            exact hrefused ⟨text, metadata, htext, hparse, hsource, htarget, eq_true_of_ne_false hsome⟩
          have harchive : files (pathExists metadata.backendRef) ⟨t, fates⟩ = .ok false ⟨t, fates⟩ :=
            files_eq_ok.mpr (look_run (by rw [hmissing]) fates)
          rw [bind_run_of_ok hsupported', bind_run_of_ok harchive]
          exact ⟨_, bind_eq_error.mpr (.inl (raiseIf_eq_error.mpr ⟨rfl, rfl, rfl⟩))⟩
        · exact ⟨_, bind_eq_error.mpr (.inl (raiseIf_eq_error.mpr ⟨htarget, rfl, rfl⟩))⟩
      · exact ⟨_, bind_eq_error.mpr (.inl (raiseIf_eq_error.mpr ⟨hsource, rfl, rfl⟩))⟩

/-- A restore stays in a frame when what it does to the workspace of its target does. -/
theorem within_restoreSnapshot_of {F : Frame (Disk β)} {d : Disk β}
    (h : ∀ text metadata, d.tree.stat (manifestPathFor row) = some (.file text) →
      parseManifest env text = .ok metadata → restorable env d.tree row lab = true →
      Within F (files (makeDirs storage.workspacePath) >>= fun _ =>
        clearDirectory storage.workspacePath >>= fun _ =>
          fillWorkspace env now metadata lab storage.workspacePath) d) :
    Within F (restoreSnapshot env now row lab storage) d := by
  obtain ⟨t, fates⟩ := d
  unfold Within
  cases hrestorable : restorable env t row lab with
  | false =>
    obtain ⟨e, hraises⟩ := restoreSnapshot_of_not_restorable now storage hrestorable fates
    rw [hraises]
    exact F.refl _
  | true =>
    obtain ⟨text, metadata, htext, hparse, hsource, htarget, hthere⟩ := restorable_iff.mp hrestorable
    rw [restoreSnapshot_of_restorable htext hparse hsource htarget hthere]
    exact h text metadata htext hparse hrestorable

end Halves

/-! ### What a restore changes -/

section Changes

variable [Content β] {env : Environment β} {good : String → β → Prop} {d : Disk β} {now : ℤ}
  {row : SnapshotRow} {lab : LabRow}

/-- **Filling the empty workspace** of a lab from a snapshot changes only the workspace and the manifest of
the snapshot, where the contents of the one lab may be contents of the other. -/
theorem within_fillWorkspace {labId : String} {metadata : SnapshotMetadata} (h : isIdentifier labId = true)
    (hrow : isIdentifier row.labId = true) (hid : isIdentifier row.id = true)
    (hbackend : metadata.backendRef = archivePath (inLab env.root row.labId ["snapshots"]) row.id)
    (hmanifest : metadata.manifestPath = manifestPath (inLab env.root row.labId ["snapshots"]) row.id)
    (hruntime : metadata.runtimeClass = RuntimeClass.container.value)
    (hcarry : Carries env good) (hflow : ∀ b, good row.labId b → good labId b)
    (hempty : ∀ q, inLab env.root labId ["workspace"] <+: q → q ≠ inLab env.root labId ["workspace"] →
      d.tree.lookup q = none) :
    Within (confined (Managed env good) fun p => Comparable (inLab env.root labId ["workspace"]) p ∨
        p = manifestPath (inLab env.root row.labId ["snapshots"]) row.id)
      (fillWorkspace env now metadata lab (inLab env.root labId ["workspace"])) d := by
  have hparent : PosixPath.parent (inLab env.root labId ["workspace"]) = labRoot env.root labId := by
    simp [PosixPath.parent, inLab]
  have hfirm : Firm (Managed env good) (inLab env.root labId ["workspace"]) :=
    firm_of_ours (ours_dir h (by decide))
  have hroot : Firm (Managed env good) (labRoot env.root labId) := hfirm.mono (List.prefix_append _ _)
  have harchive : Firm (Managed env good) (archivePath (inLab env.root row.labId ["snapshots"]) row.id) :=
    firm_archivePath hrow hid
  unfold fillWorkspace
  dsimp only
  rw [hparent, hbackend, hmanifest]
  refine within_of_tidy fun ht => (within_files (within_look _ _)).bind fun extractRoot d₁ h₁ _ =>
    (within_files (within_look _ _)).bind fun archive d₂ h₂ _ =>
      (Within.orRaise _ _).bind fun ms d₃ h₃ _ => ?_
  obtain ⟨⟨hresolved, -⟩, rfl⟩ := resolve_eq_ok.mp (files_eq_ok.mp h₁)
  rw [hroot.realpath ht] at hresolved
  obtain rfl : labRoot env.root labId = extractRoot := hresolved
  obtain ⟨hread, rfl⟩ := readBytes_eq_ok (files_eq_ok.mp h₂)
  obtain ⟨hms, rfl⟩ := orRaise_eq_ok.mp h₃
  -- the archive is one that `add` made
  have hallowed := ht.allowed _ _ ((harchive.leads ht).lookup_of_stat hread)
  have harchived : Archived ms := hallowed.2.1 row.labId row.id rfl ms hms
  have hgood : ∀ m ∈ ms, ∀ c, m.kind = .file c → good labId c := by
    intro m hm c hc
    refine hflow c (hcarry.getmembers ?_ hms m hm c hc)
    exact hallowed.1 row.labId _ (archivePath_inLab env.root row.labId row.id)
  refine within_checkMembers.bind fun _ d₄ h₄ _ => ?_
  obtain rfl := (within_checkMembers (F := unchanged)).of_ok h₄
  have hextracted := confines_extractWorkspace h harchived hcarry hgood
    (tidy_bare ht hempty fun tgt he => hfirm.noLink _ List.prefix_rfl tgt (ht.allowed _ _ he))
  refine Within.bind (within_files (within_of_subset hextracted.within fun p hp => .inl hp))
    fun shared d₅ h₅ _ => ?_
  have hshared := hextracted.good shared d₅ (files_eq_ok.mp h₅)
  rw [show inLab env.root labId ["workspace"] = labRoot env.root labId ++ ["workspace"] from rfl,
    moveExtracted_self]
  refine (Within.pure _).bind fun _ d₆ h₆ _ => ?_
  obtain ⟨rfl, rfl⟩ := pure_eq_ok.mp h₆
  rw [TarFile.writeThrough_of_shares hshared]
  exact Within.bind (within_files (within_writeManifest hrow hid hcarry rfl rfl hruntime (.inr rfl)))
    fun _ _ _ _ => Within.pure _

/-- **A restore** changes only the workspace of the target and the manifest of the snapshot, where the
contents of the one lab may be contents of the other. -/
theorem within_restoreSnapshot {storage : LabStorageRow} (h : isIdentifier storage.labId = true)
    (hrow : isIdentifier row.labId = true) (hid : isIdentifier row.id = true)
    (hlayout : AtLayout env.root storage)
    (href : row.backendRef = archivePath (inLab env.root row.labId ["snapshots"]) row.id)
    (hcarry : Carries env good)
    (hflow : restorable env d.tree row lab = true → ∀ b, good row.labId b → good storage.labId b) :
    Within (confined (Managed env good) fun p => restorable env d.tree row lab = true ∧
        (Comparable (inLab env.root storage.labId ["workspace"]) p ∨
          p = manifestPath (inLab env.root row.labId ["snapshots"]) row.id))
      (restoreSnapshot env now row lab storage) d := by
  have hworkspace : storage.workspacePath = inLab env.root storage.labId ["workspace"] := by
    rw [hlayout.2.1, hlayout.1]
  have hfirm : Firm (Managed env good) (inLab env.root storage.labId ["workspace"]) :=
    firm_of_ours (ours_dir h (by decide))
  have hmanifest : Firm (Managed env good) (manifestPath (inLab env.root row.labId ["snapshots"]) row.id) :=
    firm_manifestPath hrow hid
  refine within_of_tidy fun ht => within_restoreSnapshot_of fun text metadata htext hparse hrestorable => ?_
  have hflow := hflow hrestorable
  simp only [hrestorable, true_and, hworkspace]
  -- the manifest names the files beside it
  rw [manifestPathFor_eq hid href] at htext
  have hnames := (ht.allowed _ _ ((hmanifest.leads ht).lookup_of_stat htext)).2.2 row.labId row.id
    rfl metadata hparse
  refine Within.bind (within_files (within_makeDirs hfirm (fun q hq => .inl (.inr hq)) fun q hq =>
    managed_dir hq (.inl (by simp)))) fun _ d₁ _ hk₁ => ?_
  refine (within_clearDirectory hfirm fun q hq => .inl (.inl hq)).bind fun _ d₂ h₂ _ => ?_
  exact within_fillWorkspace h hrow hid hnames.1 hnames.2.1 hnames.2.2 hcarry hflow
    (lookup_of_clearDirectory hfirm (hk₁ ht).1 h₂)

end Changes

/-! ### Filling the workspace -/

/-- Does the manager's own check let a member pass? -/
def passesCheck (t : FileTree β) (extractRoot : PosixPath) (m : Member β) : Bool :=
  let resolved := (t.realpath (memberPath extractRoot m.name)).1
  !t.loops resolved && extractRoot.isPrefixOf resolved

section Fill

variable [Content β] {env : Environment β}

/-- What an archive makes of a tree in which the workspace is empty, and which files have which names where the
restore goes through: the archive can be read, its members pass the check and are extracted, and the manifest can
be written. -/
def refill (env : Environment β) (metadata : SnapshotMetadata) (extractRoot : PosixPath) (t : FileTree β) :
    FileTree β × Option Sharing :=
  match t.stat metadata.backendRef with
  | some (.file archive) =>
    match env.codec.getmembers archive with
    | some members =>
      if members.all (passesCheck t extractRoot) then
        match TarFile.extractall extractRoot members ⟨t, []⟩ with
        | .ok shared d => (d.tree, if d.tree.writable metadata.manifestPath then some shared else none)
        | .error _ d => (d.tree, none)
      else (t, none)
    | none => (t, none)
  | _ => (t, none)

variable {t : FileTree β} {L : PosixPath} {now : ℤ} {metadata : SnapshotMetadata} {lab : LabRow}
  {ms : List (Member β)}

omit [Content β] in
theorem checkMembers_cons (m : Member β) (ms : List (Member β)) : checkMembers L (m :: ms) =
    ((files (resolve (memberPath L m.name)) >>= fun resolved =>
      raiseIf (¬ L <+: resolved) (.snapshotMetadata "snapshot archive contains an unsafe path")) >>= fun _ =>
        checkMembers L ms : DiskM β Unit) :=
  rfl

omit [Content β] in
/-- A member that passes the check. -/
theorem checkMember_run {m : Member β} (h : passesCheck t L m = true) (fates : List Fate) :
    (files (resolve (memberPath L m.name)) >>= fun resolved =>
      raiseIf (¬ L <+: resolved)
        (.snapshotMetadata "snapshot archive contains an unsafe path") : DiskM β Unit)
        ⟨t, fates⟩ = .ok () ⟨t, fates⟩ := by
  obtain ⟨hloops, hbelow⟩ : t.loops (t.realpath (memberPath L m.name)).1 = false ∧
      L <+: (t.realpath (memberPath L m.name)).1 := by simpa [passesCheck] using h
  exact bind_of_ok (files_eq_ok.mpr (resolve_eq_ok.mpr ⟨⟨rfl, hloops⟩, rfl⟩))
    (raiseIf_eq_ok.mpr ⟨not_not.mpr hbelow, rfl⟩)

omit [Content β] in
/-- A member that does not. -/
theorem checkMember_run_refused {m : Member β} (h : passesCheck t L m = false) (fates : List Fate) :
    ∃ e, (files (resolve (memberPath L m.name)) >>= fun resolved =>
      raiseIf (¬ L <+: resolved)
        (.snapshotMetadata "snapshot archive contains an unsafe path") : DiskM β Unit)
        ⟨t, fates⟩ = .error e ⟨t, fates⟩ := by
  cases hloops : t.loops (t.realpath (memberPath L m.name)).1 with
  | true =>
    have hloop : resolve (memberPath L m.name) ⟨t, fates⟩ = .error .symlinkLoop ⟨t, fates⟩ :=
      look_run_none (by rw [if_pos hloops]) fates
    exact ⟨_, bind_eq_error.mpr (.inl (files_eq_error.mpr ⟨_, hloop, rfl⟩))⟩
  | false =>
    have hout : ¬ L <+: (t.realpath (memberPath L m.name)).1 := by
      intro hbelow
      simp [passesCheck, hloops, List.isPrefixOf_iff_prefix.mpr hbelow] at h
    exact ⟨_, bind_eq_error.mpr (.inr ⟨_, _, files_eq_ok.mpr (resolve_eq_ok.mpr ⟨⟨rfl, hloops⟩, rfl⟩),
      raiseIf_eq_error.mpr ⟨hout, rfl, rfl⟩⟩)⟩

omit [Content β] in
/-- The check of an archive passes where each of its members does. -/
theorem checkMembers_run (h : ms.all (passesCheck t L) = true) (fates : List Fate) :
    checkMembers L ms ⟨t, fates⟩ = .ok () ⟨t, fates⟩ := by
  induction ms with
  | nil => rfl
  | cons m ms ih =>
    rw [List.all_cons, Bool.and_eq_true] at h
    rw [checkMembers_cons, bind_run_of_ok (checkMember_run h.1 fates)]
    exact ih h.2

omit [Content β] in
/-- Otherwise it raises, and changes nothing. -/
theorem checkMembers_run_refused (h : ms.all (passesCheck t L) = false) (fates : List Fate) :
    ∃ e, checkMembers L ms ⟨t, fates⟩ = .error e ⟨t, fates⟩ := by
  induction ms with
  | nil => cases h
  | cons m ms ih =>
    rw [checkMembers_cons]
    cases hm : passesCheck t L m with
    | false =>
      obtain ⟨e, he⟩ := checkMember_run_refused hm fates
      exact ⟨e, bind_eq_error.mpr (.inl he)⟩
    | true =>
      rw [List.all_cons, hm, Bool.true_and] at h
      rw [bind_run_of_ok (checkMember_run hm fates)]
      exact ih h

/-- An extraction brings no fault to a disk. -/
theorem within_extractall_faultless (dest : PosixPath) (ms : List (Member β)) (d : Disk β) :
    Within faultless (TarFile.extractall dest ms) d :=
  TarFile.within_extractall_of fun _ _ => within_effect_faultless _ _ _

omit [Content β] in
theorem readBytes_run_refused {p : PosixPath} (h : ∀ b, t.stat p ≠ some (.file b)) (fates : List Fate) :
    readBytes p ⟨t, fates⟩ = .error .osError ⟨t, fates⟩ := by
  refine look_run_none ?_ fates
  split
  · next b hb => exact absurd hb (h b)
  · rfl

/-- **Filling the workspace** goes through or raises as `refill` says. -/
theorem fillWorkspace_run (env : Environment β) (now : ℤ) (metadata : SnapshotMetadata) (lab : LabRow)
    (hplain : ∀ n ∈ L, PosixPath.isPlain n = true) (hlink : NoLink t L) :
    (∃ restored d text shared,
      fillWorkspace env now metadata lab (L ++ ["workspace"]) ⟨t, []⟩ = .ok restored d ∧
      (refill env metadata L t).2 = some shared ∧
      (refill env metadata L t).1.writeShared shared metadata.manifestPath text = some d.tree) ∨
    ∃ e d, fillWorkspace env now metadata lab (L ++ ["workspace"]) ⟨t, []⟩ = .error e d ∧
      refill env metadata L t = (d.tree, none) := by
  have hparent : PosixPath.parent (L ++ ["workspace"]) = L := by simp [PosixPath.parent]
  have hresolved : files (resolve L) ⟨t, []⟩ = .ok L ⟨t, []⟩ :=
    files_eq_ok.mpr (resolve_of_noLink hplain hlink)
  unfold fillWorkspace
  rw [hparent, bind_run_of_ok hresolved]
  by_cases hfile : ∃ archive, t.stat metadata.backendRef = some (.file archive)
  case neg =>
    have hnone : ∀ archive, t.stat metadata.backendRef ≠ some (.file archive) := not_exists.mp hfile
    have hraises := files_eq_error.mpr ⟨_, readBytes_run_refused hnone [], rfl⟩
    refine .inr ⟨_, _, bind_eq_error.mpr (.inl hraises), ?_⟩
    unfold refill
    split
    · next archive harchive => exact absurd harchive (hnone archive)
    · rfl
  obtain ⟨archive, harchive⟩ := hfile
  have hread : files (readBytes metadata.backendRef) ⟨t, []⟩ = .ok archive ⟨t, []⟩ :=
    files_eq_ok.mpr (look_run (by rw [harchive]) [])
  rw [bind_run_of_ok hread]
  cases hms : env.codec.getmembers archive with
  | none =>
    refine .inr ⟨_, _, bind_eq_error.mpr (.inl (orRaise_eq_error.mpr ⟨rfl, rfl, rfl⟩)), ?_⟩
    simp [refill, harchive, hms]
  | some ms =>
    rw [bind_run_of_ok (orRaise_eq_ok.mpr ⟨rfl, rfl⟩)]
    cases hcheck : ms.all (passesCheck t L) with
    | false =>
      obtain ⟨e, he⟩ := checkMembers_run_refused hcheck []
      refine .inr ⟨e, _, bind_eq_error.mpr (.inl he), ?_⟩
      simp [refill, harchive, hms, hcheck]
    | true =>
      rw [bind_run_of_ok (checkMembers_run hcheck [])]
      cases hextract : TarFile.extractall L ms ⟨t, []⟩ with
      | error e d =>
        refine .inr ⟨_, d, bind_eq_error.mpr (.inl (files_eq_error.mpr ⟨e, hextract, rfl⟩)), ?_⟩
        simp [refill, harchive, hms, hcheck, hextract]
      | ok shared d =>
        have hkept : moveExtracted shared (L ++ ["workspace"]) (L ++ ["workspace"]) d = .ok shared d := by
          rw [moveExtracted_self]
          rfl
        rw [bind_run_of_ok (files_eq_ok.mpr hextract), bind_run_of_ok hkept]
        obtain ⟨t', fates⟩ := d
        obtain rfl : fates = [] := ((within_extractall_faultless L ms _).of_ok hextract) rfl
        generalize env.codec.dumps _ = text
        cases hwrite : t'.writeShared shared metadata.manifestPath text with
        | none =>
          have hrefused : t'.writable metadata.manifestPath = false := by
            rw [← isSome_writeShared t' shared _ text, hwrite]
            rfl
          have hraises := files_eq_error.mpr ⟨_, writeThrough_run_none hwrite, rfl⟩
          refine .inr ⟨_, _, bind_eq_error.mpr (.inl hraises), ?_⟩
          simp [refill, harchive, hms, hcheck, hextract, hrefused]
        | some t'' =>
          have hwritable : t'.writable metadata.manifestPath = true := by
            rw [← isSome_writeShared t' shared _ text, hwrite]
            rfl
          have hrefill : refill env metadata L t = (t', some shared) := by
            simp [refill, harchive, hms, hcheck, hextract, hwritable]
          refine .inl ⟨_, _, text, shared, bind_of_ok (files_eq_ok.mpr (writeThrough_run hwrite)) rfl, ?_⟩
          rw [hrefill]
          exact ⟨rfl, hwrite⟩

/-- A restore that goes through: the workspace is made and cleared, the archive extracted, and the manifest
written. -/
theorem extracted_of_restoreSnapshot {L : PosixPath} {now : ℤ} {row : SnapshotRow} {lab : LabRow}
    {storage : LabStorageRow} {d d₀ d' : Disk β} {u : Unit} {restored : SnapshotMetadata} {archive : β}
    {ms : List (Member β)} (hworkspace : storage.workspacePath = L ++ ["workspace"])
    (hplain : ∀ n ∈ L, PosixPath.isPlain n = true)
    (hcleared : (files (makeDirs (L ++ ["workspace"])) >>= fun _ => clearDirectory (L ++ ["workspace"])) d =
      .ok u d₀) (hlink : NoLink d₀.tree L)
    (harchive : d₀.tree.stat restored.backendRef = some (.file archive))
    (hms : env.codec.getmembers archive = some ms)
    (h : restoreSnapshot env now row lab storage d = .ok restored d') :
    ∃ u d₁ text shared, TarFile.extractall L ms d₀ = .ok shared d₁ ∧
      writeThrough shared restored.manifestPath text d₁ = .ok u d' := by
  obtain ⟨t, fates⟩ := d
  have hrestorable : restorable env t row lab = true := by
    by_contra hrefused
    obtain ⟨e, hraises⟩ := restoreSnapshot_of_not_restorable now storage
      (Bool.eq_false_iff.mpr hrefused) fates
    rw [hraises] at h
    cases h
  obtain ⟨text, metadata, htext, hparse, hsource, htarget, hthere⟩ := restorable_iff.mp hrestorable
  rw [restoreSnapshot_of_restorable htext hparse hsource htarget hthere, hworkspace, ← bind_assoc,
    bind_run_of_ok hcleared] at h
  have hparent : PosixPath.parent (L ++ ["workspace"]) = L := by simp [PosixPath.parent]
  unfold fillWorkspace at h
  rw [hparent] at h
  obtain ⟨extractRoot, d₁, hresolve, h⟩ := bind_eq_ok.mp h
  obtain ⟨⟨hreal, -⟩, rfl⟩ := resolve_eq_ok.mp (files_eq_ok.mp hresolve)
  rw [realpath_of_noLink (fun n hn => PosixPath.isName_of_plain (hplain n hn)) hlink] at hreal
  obtain rfl : L = extractRoot := hreal
  obtain ⟨archive', d₁, hread, h⟩ := bind_eq_ok.mp h
  obtain ⟨harchive', rfl⟩ := readBytes_eq_ok (files_eq_ok.mp hread)
  obtain ⟨ms', d₁, hmembers, h⟩ := bind_eq_ok.mp h
  obtain ⟨hms', rfl⟩ := orRaise_eq_ok.mp hmembers
  obtain ⟨_, d₁, hcheck, h⟩ := bind_eq_ok.mp h
  obtain rfl := (within_checkMembers (F := unchanged)).of_ok hcheck
  obtain ⟨shared, d₁, hextract, h⟩ := bind_eq_ok.mp h
  rw [moveExtracted_self] at h
  obtain ⟨_, d₂, hmoved, h⟩ := bind_eq_ok.mp h
  obtain ⟨rfl, rfl⟩ := pure_eq_ok.mp hmoved
  obtain ⟨_, d₃, hwrite, h⟩ := bind_eq_ok.mp h
  obtain ⟨rfl, rfl⟩ := pure_eq_ok.mp h
  obtain rfl : archive = archive' := Entry.file.inj (Option.some.inj (harchive.symm.trans harchive'))
  obtain rfl : ms = ms' := Option.some.inj (hms.symm.trans hms')
  exact ⟨_, d₁, _, shared, files_eq_ok.mp hextract, files_eq_ok.mp hwrite⟩

end Fill

end SnapshotManager

end LabOS
