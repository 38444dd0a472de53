import LabOS.System.Captures

/-!
# A restore that fails

Before it changes anything a restore looks for its manifest, its runtime classes and its
archive. It then clears the workspace, and only after that opens the archive and checks its
members. A restore that raises there leaves the workspace without what it held, and with the entries
that were extracted before it stopped.

## What is proved

* `failed_restore_spares_iff` — a restore that raises leaves the workspace with the content it had **where** the
  restore is refused before the clearing, or stopped at its first removal, or goes through, or the workspace held
  what the archive puts into it; and **only there**, where it is known what the archive puts into it.
* `foreseen_of_captured` — that is known of every snapshot that holds what its lab held.

## Where the code parts from its own checks

`failed_restore_clears`: a snapshot of a workspace with a link to a directory of the host is made, and
cannot be restored; the file that is in the workspace by then is removed all the same.
-/

namespace LabOS

open Exceptional FileOps FileTree ManagedStorageAllocator SnapshotManager

variable {β : Type}

/-- The directory `p` holds the same in both trees. -/
def SameContent (p : PosixPath) (t t' : FileTree β) : Prop :=
  ∀ q, p <+: q → q ≠ p → t'.lookup q = t.lookup q

variable [Content β] {env : Environment β}

/-! ### The content of the workspace -/

/-- What the directory `p` holds are the entries `xs`. -/
def HoldsOnly (t : FileTree β) (p : PosixPath) (xs : List (List String × Entry β)) : Prop :=
  ∀ r e, r ≠ [] → (t.lookup (p ++ r) = some e ↔ (r, e) ∈ xs)

omit [Content β] in
theorem HoldsOnly.sameContent_iff {t t' : FileTree β} {p : PosixPath} {xs : List (List String × Entry β)}
    (h : HoldsOnly t' p xs) : SameContent p t t' ↔ HoldsOnly t p xs := by
  constructor
  · intro hsame r e hr
    rw [← h r e hr, hsame _ (List.prefix_append p r) (by simpa using hr)]
  · rintro hholds q ⟨r, rfl⟩ hne
    have hr : r ≠ [] := by simpa using hne
    exact Option.ext fun e => (h r e hr).trans (hholds r e hr).symm

omit [Content β] in
/-- An empty directory holds what is put back into it. -/
theorem holdsOnly_putBack {t : FileTree β} {p : PosixPath} {xs : List (List String × Entry β)}
    (hempty : EmptyDir t p) (hxs : Listed xs) : HoldsOnly (t.putBack p xs) p xs := by
  intro r e hr
  constructor
  · intro he
    by_contra hout
    by_cases hmem : r ∈ xs.map Prod.fst
    · obtain ⟨⟨r', e'⟩, hx, rfl⟩ := List.mem_map.mp hmem
      rw [lookup_putBack_of_mem hxs.nodup hr hx] at he
      exact hout (Option.some.inj he ▸ hx)
    · rw [lookup_putBack_new hempty hr hmem] at he
      cases he
  · exact lookup_putBack_of_mem hxs.nodup hr

/-- What becomes of the workspace `extractRoot/workspace`, once it is empty: which entries it holds in the end, and
whether the restore goes through. The archive cannot be read; or a member does not pass the manager's check; or the
archive is the listing of a directory as far as a member that the filter refuses, or to its end. -/
inductive Refills (env : Environment β) (metadata : SnapshotMetadata) (extractRoot : PosixPath)
    (t : FileTree β) :
    List (List String × Entry β) → Bool → Prop
  | unreadable (harchive : ∀ archive, t.stat metadata.backendRef = some (.file archive) →
      env.codec.getmembers archive = none) : Refills env metadata extractRoot t [] false
  | outside {archive : β} {ms : List (Member β)} (harchive : t.stat metadata.backendRef = some (.file archive))
      (hms : env.codec.getmembers archive = some ms) (hcheck : ms.all (passesCheck t extractRoot) = false) :
      Refills env metadata extractRoot t [] false
  | refused {archive : β} {ms rest : List (Member β)} {xs : List (List String × Entry β)} {m : Member β}
      (harchive : t.stat metadata.backendRef = some (.file archive))
        (hms : env.codec.getmembers archive = some ms)
      (hcheck : ms.all (passesCheck t extractRoot) = true)
      (hsplit : ms = xs.map (TarFile.member "workspace") ++ m :: rest) (hxs : Listed xs)
      (hpass : TarFile.AllPass t extractRoot "workspace" [] xs) (hrefused : ∀ m',
        TarFile.dataFilter (t.putBack (extractRoot ++ ["workspace"]) (normalised xs)) extractRoot m ≠ .ok m') :
      Refills env metadata extractRoot t (normalised xs) false
  | whole {archive : β} {xs : List (List String × Entry β)}
      (harchive : t.stat metadata.backendRef = some (.file archive))
      (hms : env.codec.getmembers archive = some (xs.map (TarFile.member "workspace")))
      (hcheck : (xs.map (TarFile.member "workspace")).all (passesCheck t extractRoot) = true) (hxs : Listed xs)
      (hpass : TarFile.AllPass t extractRoot "workspace" [] xs) :
      Refills env metadata extractRoot t (normalised xs)
        ((t.putBack (extractRoot ++ ["workspace"]) (normalised xs)).writable metadata.manifestPath)

/-- A restore that raises leaves the workspace `extractRoot/workspace` its content. The workspace cannot be
made, so that nothing is in it; or its first name cannot be removed; or all of them can, and then the restore goes
through, or the workspace held before what it holds when it does not. -/
def Spares (env : Environment β) (t : FileTree β) (row : SnapshotRow) (extractRoot : PosixPath) : Prop :=
  let workspacePath := extractRoot ++ ["workspace"]
  let made := t.withDirs workspacePath
  ¬ Open t workspacePath ∨
  (∃ n names, made.children workspacePath = n :: names ∧ Stuck made (workspacePath ++ [n])) ∨
  Clearable made workspacePath (made.children workspacePath) ∧
    ∀ text metadata, t.stat (manifestPathFor row) = some (.file text) → parseManifest env text = .ok metadata →
      ∃ xs through, Refills env metadata extractRoot (emptied made workspacePath) xs through ∧
        (through = true ∨ HoldsOnly t workspacePath xs)

/-- It is known what the archive of a snapshot puts into the cleared workspace. -/
def Foreseen (env : Environment β) (t : FileTree β) (row : SnapshotRow) (extractRoot : PosixPath) : Prop :=
  ∀ text metadata, t.stat (manifestPathFor row) = some (.file text) → parseManifest env text = .ok metadata →
    ∃ xs through, Refills env metadata extractRoot
      (emptied (t.withDirs (extractRoot ++ ["workspace"])) (extractRoot ++ ["workspace"])) xs through

omit [Content β] in
/-- Making the workspace adds nothing to its content. -/
theorem sameContent_withDirs {t : FileTree β} {p q : PosixPath} (hq : q <+: p) :
    SameContent p t (t.withDirs q) := by
  intro x hx hne
  refine lookup_withDirs_of_not_prefix fun hpre => hne ?_
  exact (hpre.trans hq).eq_of_length_le hx.length_le

omit [Content β] in
/-- A directory without some of its names, one at least, has lost content. -/
theorem not_sameContent_without {t made : FileTree β} {p : PosixPath} {n : String} {names : List String}
    (hmade : SameContent p t made) (hn : n ∈ made.children p) :
    ¬ SameContent p t (without made p (n :: names)) := by
  intro hsame
  obtain ⟨e, he⟩ := mem_children.mp hn
  have hbelow := PosixPath.prefix_concat_self p n
  have hne : p ++ [n] ≠ p := (PosixPath.ne_concat_self p n).symm
  have hgone : (without made p (n :: names)).lookup (p ++ [n]) = none := by
    rw [lookup_without (by simp), if_pos ⟨n, List.mem_cons_self, List.prefix_rfl⟩]
  rw [hsame _ hbelow hne, ← hmade _ hbelow hne, he] at hgone
  cases hgone

section Spares

variable {t made : FileTree β} {extractRoot W : PosixPath} {now : ℤ}
    {metadata : SnapshotMetadata} {lab : LabRow}

omit [Content β] in
/-- A clearing that stops has removed nothing exactly when it stops at the first name. -/
theorem stopped_clearing_spares_iff {f : Unit → DiskM β SnapshotMetadata} (hmade : SameContent W t made)
    (htree : IsTree made) (hdir : made.lookup W = some .dir) (hclear : ¬ Clearable made W (made.children W)) :
    (∀ e d', (clearDirectory W >>= f) ⟨made, []⟩ = .error e d' → SameContent W t d'.tree) ↔
      ∃ n names, made.children W = n :: names ∧ Stuck made (W ++ [n]) := by
  obtain ⟨gone, n, rest, hnames, hgone, hstuck, hraises⟩ :=
    clearChildren_run_stuck htree (nodup_children made W) (fun n hn => mem_children.mp hn) hclear
  rw [← clearDirectory_eq hdir htree] at hraises
  rw [forall_error_iff (bind_eq_error.mpr (.inl hraises)) fun d => SameContent W t d.tree, hnames]
  cases gone with
  | nil => exact iff_of_true hmade ⟨n, rest, rfl, hstuck⟩
  | cons m gone =>
    refine iff_of_false (not_sameContent_without hmade (by simp [hnames])) ?_
    rintro ⟨m', names, heq, hfirst⟩
    obtain ⟨rfl, -⟩ := List.cons.inj heq
    exact hgone.1 hfirst

/-- **What becomes of an empty workspace** that is filled. -/
theorem refill_of_refills {xs : List (List String × Entry β)} {through : Bool}
    (hplain : ∀ n ∈ extractRoot ++ ["workspace"], PosixPath.isPlain n = true) (htree : IsTree t)
    (hempty : EmptyDir t (extractRoot ++ ["workspace"]))
    (h : Refills env metadata extractRoot t xs through) :
    (refill env metadata extractRoot t).2.isSome = through ∧
      HoldsOnly (refill env metadata extractRoot t).1 (extractRoot ++ ["workspace"]) xs := by
  have hnothing : HoldsOnly t (extractRoot ++ ["workspace"]) [] := fun r e hr => by
    rw [hempty.empty _ (List.prefix_append _ r) (by simpa using hr)]
    simp
  cases h with
  | unreadable harchive =>
    have hrefill : refill env metadata extractRoot t = (t, none) := by
      unfold refill
      split
      · next archive hstat => rw [harchive archive hstat]
      · rfl
    rw [hrefill]
    exact ⟨rfl, hnothing⟩
  | outside harchive hms hcheck =>
    have hrefill : refill env metadata extractRoot t = (t, none) := by
      simp [refill, harchive, hms, hcheck]
    rw [hrefill]
    exact ⟨rfl, hnothing⟩
  | @refused _ _ rest xs _ harchive hms hcheck hsplit hxs hpass hrefused =>
    obtain ⟨e, hextract⟩ := TarFile.extractall_refused rest htree hplain hempty hxs hpass hrefused
    rw [← hsplit] at hextract
    have hrefill : refill env metadata extractRoot t =
        (t.putBack (extractRoot ++ ["workspace"]) (normalised xs), none) := by
      simp only [refill, harchive, hms, hcheck, if_true, hextract]
    rw [hrefill]
    exact ⟨rfl, holdsOnly_putBack hempty hxs.normalised⟩
  | @whole _ xs harchive hms hcheck hxs hpass =>
    have hextract : TarFile.extractall extractRoot (xs.map (TarFile.member "workspace")) ⟨t, []⟩ =
        .ok [] ⟨t.putBack (extractRoot ++ ["workspace"]) (normalised xs), []⟩ :=
      (TarFile.extractall_listed_iff htree hplain hempty hxs).mpr ⟨hpass, rfl, rfl⟩
    have hrefill : refill env metadata extractRoot t =
        (t.putBack (extractRoot ++ ["workspace"]) (normalised xs),
          if (t.putBack (extractRoot ++ ["workspace"]) (normalised xs)).writable metadata.manifestPath
            then some []
          else none) := by
      simp only [refill, harchive, hms, hcheck, if_true, hextract]
    rw [hrefill]
    refine ⟨?_, holdsOnly_putBack hempty hxs.normalised⟩
    split
    · next hwritable => exact hwritable.symm
    · next hwritable => exact (Bool.eq_false_iff.mpr hwritable).symm

/-- A clearing that goes through leaves it to the archive. -/
theorem filled_clearing_spares_iff (now : ℤ) (lab : LabRow) {xs : List (List String × Entry β)} {through : Bool}
    (hplain : ∀ n ∈ extractRoot, PosixPath.isPlain n = true) (ht : IsTree t)
    (hopen : Open t (extractRoot ++ ["workspace"]))
    (hclear : Clearable (t.withDirs (extractRoot ++ ["workspace"])) (extractRoot ++ ["workspace"])
      ((t.withDirs (extractRoot ++ ["workspace"])).children (extractRoot ++ ["workspace"])))
    (hrefills : Refills env metadata extractRoot
      (emptied (t.withDirs (extractRoot ++ ["workspace"])) (extractRoot ++ ["workspace"])) xs through) :
    (∀ e d', (clearDirectory (extractRoot ++ ["workspace"]) >>= fun _ =>
          fillWorkspace env now metadata lab (extractRoot ++ ["workspace"]))
            ⟨t.withDirs (extractRoot ++ ["workspace"]), []⟩ = .error e d' →
        SameContent (extractRoot ++ ["workspace"]) t d'.tree) ↔
      through = true ∨ HoldsOnly t (extractRoot ++ ["workspace"]) xs := by
  have hplain' := plain_workspace hplain
  have htree := ht.withDirs hplain' hopen
  have hdir := lookup_withDirs_of_open (hopen _ List.prefix_rfl) List.prefix_rfl
  obtain ⟨hcleared, hempty, -⟩ := emptied_withDirs ht hplain' hopen
  have hlink : NoLink (emptied (t.withDirs (extractRoot ++ ["workspace"])) (extractRoot ++ ["workspace"]))
      extractRoot := (noLink_of_emptyDir hcleared hempty []).mono (by simp)
  obtain ⟨hthrough, hholds⟩ := refill_of_refills hplain' hcleared hempty hrefills
  rw [bind_run_of_ok (clearDirectory_run htree hdir hclear)]
  rcases fillWorkspace_run env now metadata lab hplain hlink with
    ⟨restored, d, text, shared, hreturns, hshared, -⟩ | ⟨e, d, hraises, hrefill⟩
  · rw [hshared] at hthrough
    exact iff_of_true (forall_error_of_ok hreturns fun d => SameContent _ t d.tree) (.inl hthrough.symm)
  · rw [hrefill] at hthrough hholds
    rw [forall_error_iff hraises fun d => SameContent _ t d.tree, hholds.sameContent_iff, ← hthrough]
    simp

/-- Where the workspace can be cleared, it is spared as the archive leaves it. -/
theorem spares_iff_of_clearable {row : SnapshotRow} {text : β}
    (htext : t.stat (manifestPathFor row) = some (.file text)) (hparse : parseManifest env text = .ok metadata)
    (hopen : Open t (extractRoot ++ ["workspace"]))
    (hclear : Clearable (t.withDirs (extractRoot ++ ["workspace"])) (extractRoot ++ ["workspace"])
      ((t.withDirs (extractRoot ++ ["workspace"])).children (extractRoot ++ ["workspace"]))) :
    Spares env t row extractRoot ↔ ∃ xs through, Refills env metadata extractRoot
      (emptied (t.withDirs (extractRoot ++ ["workspace"])) (extractRoot ++ ["workspace"])) xs through ∧
        (through = true ∨ HoldsOnly t (extractRoot ++ ["workspace"]) xs) := by
  constructor
  · rintro (hnot | ⟨n, names, hnames, hstuck⟩ | ⟨-, hspares⟩)
    · exact absurd hopen hnot
    · rw [hnames] at hclear
      exact absurd hstuck hclear.1
    · exact hspares text metadata htext hparse
  · intro hrefills
    refine .inr (.inr ⟨hclear, fun text' metadata' htext' hparse' => ?_⟩)
    obtain rfl := Entry.file.inj (Option.some.inj (htext.symm.trans htext'))
    obtain rfl := Except.ok.inj (hparse.symm.trans hparse')
    exact hrefills

end Spares

/-- **A restore that raises leaves the workspace its content where** it is refused before anything is changed, or
spares it; and where it is known what the archive puts into the workspace, only there. -/
theorem failed_restore_spares_iff (env : Environment β) (now : ℤ) (row : SnapshotRow) (lab : LabRow)
    (storage : LabStorageRow) (extractRoot : PosixPath) (d : Disk β)
    (hworkspace : storage.workspacePath = extractRoot ++ ["workspace"])
    (hplain : ∀ n ∈ extractRoot, PosixPath.isPlain n = true) (ht : IsTree d.tree)
    (hlink : NoLink d.tree (extractRoot ++ ["workspace"])) (hfates : d.fates = []) :
    (restorable env d.tree row lab = false ∨ Spares env d.tree row extractRoot →
      ∀ e d', restoreSnapshot env now row lab storage d = .error e d' →
        SameContent (extractRoot ++ ["workspace"]) d.tree d'.tree) ∧
    (Foreseen env d.tree row extractRoot →
      ((∀ e d', restoreSnapshot env now row lab storage d = .error e d' →
          SameContent (extractRoot ++ ["workspace"]) d.tree d'.tree) ↔
        restorable env d.tree row lab = false ∨ Spares env d.tree row extractRoot)) := by
  obtain ⟨t, fates⟩ := d
  obtain rfl : fates = [] := hfates
  have hplain' := plain_workspace hplain
  cases hrestorable : restorable env t row lab with
  | false =>
    obtain ⟨e, hraises⟩ := restoreSnapshot_of_not_restorable now storage hrestorable []
    have hsame : ∀ e d', restoreSnapshot env now row lab storage ⟨t, []⟩ = .error e d' →
        SameContent (extractRoot ++ ["workspace"]) t d'.tree := by
      rw [forall_error_iff hraises fun d => SameContent _ t d.tree]
      exact fun _ _ _ => rfl
    exact ⟨fun _ => hsame, fun _ => iff_of_true hsame (.inl rfl)⟩
  | true =>
    obtain ⟨text, metadata, htext, hparse, hsource, htarget, hthere⟩ := restorable_iff.mp hrestorable
    rw [restoreSnapshot_of_restorable htext hparse hsource htarget hthere, hworkspace]
    simp only [Bool.true_eq_false, false_or]
    by_cases hopen : Open t (extractRoot ++ ["workspace"])
    · have htree := ht.withDirs hplain' hopen
      have hdir := lookup_withDirs_of_open (hopen _ List.prefix_rfl) List.prefix_rfl
      rw [bind_run_of_ok (files_eq_ok.mpr (makeDirs_run ht hplain' hopen))]
      by_cases hclear : Clearable (t.withDirs (extractRoot ++ ["workspace"])) (extractRoot ++ ["workspace"])
          ((t.withDirs (extractRoot ++ ["workspace"])).children (extractRoot ++ ["workspace"]))
      · rw [spares_iff_of_clearable htext hparse hopen hclear]
        refine ⟨fun ⟨xs, through, hrefills, hholds⟩ =>
          (filled_clearing_spares_iff now lab hplain ht hopen hclear hrefills).mpr hholds, fun hforeseen => ?_⟩
        obtain ⟨xs, through, hrefills⟩ := hforeseen text metadata htext hparse
        have hfilled := filled_clearing_spares_iff now lab hplain ht hopen hclear hrefills
        exact ⟨fun hsame => ⟨xs, through, hrefills, hfilled.mp hsame⟩, fun ⟨xs', through', hrefills', hholds'⟩ =>
          (filled_clearing_spares_iff now lab hplain ht hopen hclear hrefills').mpr hholds'⟩
      · -- what stops the clearing has nothing to do with the archive
        have hstopped := stopped_clearing_spares_iff (t := t)
          (f := fun _ => fillWorkspace env now metadata lab (extractRoot ++ ["workspace"]))
          (sameContent_withDirs List.prefix_rfl) htree hdir hclear
        have hspares : Spares env t row extractRoot ↔
            ∃ n names, (t.withDirs (extractRoot ++ ["workspace"])).children (extractRoot ++ ["workspace"]) =
              n :: names ∧
                Stuck (t.withDirs (extractRoot ++ ["workspace"])) (extractRoot ++ ["workspace"] ++ [n]) :=
          ⟨fun h => (h.resolve_left (not_not.mpr hopen)).resolve_right fun h => hclear h.1,
            fun h => .inr (.inl h)⟩
        rw [hstopped, hspares]
        exact ⟨id, fun _ => Iff.rfl⟩
    · obtain ⟨q, hq, hraises⟩ := makeDirs_run_of_file ht hplain' hlink hopen
      have hsame : ∀ e d', (files (makeDirs (extractRoot ++ ["workspace"])) >>= fun _ =>
          clearDirectory (extractRoot ++ ["workspace"]) >>= fun _ =>
            fillWorkspace env now metadata lab (extractRoot ++ ["workspace"])) ⟨t, []⟩ = .error e d' →
          SameContent (extractRoot ++ ["workspace"]) t d'.tree := by
        rw [forall_error_iff (bind_eq_error.mpr (.inl (files_eq_error.mpr ⟨_, hraises, rfl⟩)))
          fun d => SameContent _ t d.tree]
        exact sameContent_withDirs hq
      exact ⟨fun _ => hsame, fun _ => iff_of_true hsame (.inl hopen)⟩

/-- **The archive of a directory is foreseen**: the listing passes, or the filter refuses one of its links. -/
theorem refills_of_listing {t : FileTree β} {metadata : SnapshotMetadata}
    {extractRoot : PosixPath} {archive : β} {xs : List (List String × Entry β)}
    (hplain : ∀ n ∈ extractRoot ++ ["workspace"], PosixPath.isPlain n = true) (ht : IsTree t)
    (hempty : EmptyDir t (extractRoot ++ ["workspace"])) (hxs : Listed xs)
    (harchive : t.stat metadata.backendRef = some (.file archive))
    (hms : env.codec.getmembers archive = some (xs.map (TarFile.member "workspace"))) :
    ∃ ys through, Refills env metadata extractRoot t ys through := by
  cases hcheck : (xs.map (TarFile.member "workspace")).all (passesCheck t extractRoot) with
  | false => exact ⟨_, _, .outside harchive hms hcheck⟩
  | true =>
    have hlisted : Listed ([] ++ xs) := hxs
    rcases TarFile.allPass_or_refused ht hplain hempty hlisted trivial with
      hpass | ⟨ys, y, rest, hsplit, hys, hpass, hrefused⟩
    · exact ⟨_, _, .whole harchive hms hcheck hxs hpass⟩
    · rw [List.nil_append] at hsplit
      exact ⟨_, _, .refused harchive hms hcheck (by rw [hsplit, List.map_append]; rfl) hys hpass hrefused⟩

/-- **In every run** it is known what a snapshot puts into a workspace that stands, as long as the snapshot holds
what its lab held. -/
theorem foreseen_of_captured {s : State β} {row : SnapshotRow} {metadata : SnapshotMetadata} {target : LabRow}
    {xs : List (List String × Entry β)} (hs : Healthy env anyContent s)
    (hrow : s.store.snapshots.get? row.id = some row) (h : Captured env s.tree row xs metadata)
    (hxs : Listed xs) (htarget : s.store.labs.get? target.id = some target)
    (hdir : s.tree.lookup (workspaceOf env target.id) = some .dir) :
    Foreseen env s.tree row (labRoot env.root target.id) := by
  intro text metadata' htext hparse
  obtain ⟨-, -, href⟩ := hs.sound.snapshots _ _ hrow
  have ht := hs.tidy.tree
  have hplain : ∀ n ∈ labRoot env.root target.id ++ ["workspace"], PosixPath.isPlain n = true :=
    plain_inLab (hs.sound.labs _ _ htarget).isIdentifier (by decide)
  obtain ⟨hcleared, hempty, hsame⟩ := emptied_withDirs ht hplain (ht.open_of_dir hdir)
  -- the manifest is the one that was written, and names the archive
  rw [ht.stat_of_lookup h.described.written (by simp)] at htext
  obtain rfl := Entry.file.inj (Option.some.inj htext)
  rw [parseManifest_dumps] at hparse
  obtain rfl := Except.ok.inj hparse
  have hapart : ¬ Comparable (labRoot env.root target.id ++ ["workspace"]) metadata.backendRef := by
    rw [h.backendRef, href, SnapshotManager.archivePath_inLab]
    simp
  have harchive := hsame _ hapart
  rw [h.backendRef, h.archived] at harchive
  exact refills_of_listing hplain hcleared hempty hxs
    (h.backendRef ▸ hcleared.stat_of_lookup harchive (by simp)) (env.codec.getmembers_tarGz _)

/-! ### A link that the archive takes and the extraction refuses -/

/-- A guest links to a directory of the host. -/
def etcRun : List (Action Blob) :=
  [.request (.createLab "safe-dev" .human) 0 [],
   .guest "a" [(["srv", "labs", "a", "workspace", "etc"], .symlink ["", "etc"])]]

/-- A snapshot is made, and the guest puts a file in place of the link. -/
def linkedRun : List (Action Blob) :=
  captureRun etcRun [.guest "a" [(["srv", "labs", "a", "workspace", "w.txt"], .file (.data "a" ['x']))]]
    "a" none .human 1 []

/-- The snapshot is not restored, and the file is gone. -/
theorem refused_linkedRun :
    ∃ row lab storage e d',
      (runFrom (symbolic defaultProfiles) emptyState linkedRun).store.snapshots.get? "aa" = some row ∧
      (runFrom (symbolic defaultProfiles) emptyState linkedRun).store.labs.get? "a" = some lab ∧
      (runFrom (symbolic defaultProfiles) emptyState linkedRun).store.labStorage.get? "a" = some storage ∧
      storage.workspacePath = ["srv", "labs", "a"] ++ ["workspace"] ∧
      restoreSnapshot (symbolic defaultProfiles) 2 row lab storage
        ⟨(runFrom (symbolic defaultProfiles) emptyState linkedRun).tree, []⟩ = .error e d' ∧
      ¬ SameContent (["srv", "labs", "a"] ++ ["workspace"])
        (runFrom (symbolic defaultProfiles) emptyState linkedRun).tree d'.tree := by
  have hrun : ((runFrom (symbolic defaultProfiles) emptyState linkedRun).store.snapshots.get? "aa").any
      (fun row => ((runFrom (symbolic defaultProfiles) emptyState linkedRun).store.labs.get? "a").any
        fun lab => ((runFrom (symbolic defaultProfiles) emptyState linkedRun).store.labStorage.get? "a").any
          fun storage => storage.workspacePath = ["srv", "labs", "a"] ++ ["workspace"] &&
            raises (fun _ d' =>
              (d'.tree.lookup (["srv", "labs", "a"] ++ ["workspace"] ++ ["w.txt"])).isNone &&
                ((runFrom (symbolic defaultProfiles) emptyState linkedRun).tree.lookup
                  (["srv", "labs", "a"] ++ ["workspace"] ++ ["w.txt"])).isSome)
              (restoreSnapshot (symbolic defaultProfiles) 2 row lab storage
                ⟨(runFrom (symbolic defaultProfiles) emptyState linkedRun).tree, []⟩)) = true := by
    decide +kernel
  obtain ⟨row, hrow, hrun⟩ := (Option.any_eq_true ..).mp hrun
  obtain ⟨lab, hlab, hrun⟩ := (Option.any_eq_true ..).mp hrun
  obtain ⟨storage, hstorage, hrun⟩ := (Option.any_eq_true ..).mp hrun
  obtain ⟨hworkspace, hrun⟩ := (Bool.and_eq_true ..).mp hrun
  obtain ⟨e, d', hraises, hrun⟩ := raises_eq_true.mp hrun
  obtain ⟨hgone, hthere⟩ := (Bool.and_eq_true ..).mp hrun
  refine ⟨row, lab, storage, e, d', hrow, hlab, hstorage, of_decide_eq_true hworkspace, hraises,
    fun hsame => ?_⟩
  rw [hsame _ (List.prefix_append _ _) (by decide)] at hgone
  rw [Option.isNone_iff_eq_none.mp hgone] at hthere
  cases hthere

/-- What its archive puts into the workspace is known. -/
theorem foreseen_linkedRun {row : SnapshotRow}
    (hrow : (runFrom (symbolic defaultProfiles) emptyState linkedRun).store.snapshots.get? "aa" = some row) :
    Foreseen (symbolic defaultProfiles) (runFrom (symbolic defaultProfiles) emptyState linkedRun).tree row
      ["srv", "labs", "a"] := by
  have hcreated : returns (fun row _ => row.id = "aa")
      (withSession (App.createSnapshot (symbolic defaultProfiles) 1 "a" none .human)
        ((runFrom (symbolic defaultProfiles) emptyState etcRun).session [])) = true := by
    decide +kernel
  have htarget : ((runFrom (symbolic defaultProfiles) emptyState linkedRun).store.labs.get? "a").isSome =
      true := by
    decide +kernel
  obtain ⟨row', created, hblock, hid⟩ := returns_eq_true.mp hcreated
  obtain ⟨target, htarget⟩ := Option.isSome_iff_exists.mp htarget
  have htargetId : target.id = "a" := Table.key_of_get? htarget
  have hs := healthy_of_actions (initial_emptyState defaultProfiles) linkedRun
  have hbefore := healthy_of_actions (initial_emptyState defaultProfiles) etcRun
  have hdir : (runFrom (symbolic defaultProfiles) emptyState etcRun).tree.lookup
      (workspaceOf (symbolic defaultProfiles) "a") = some .dir := by decide +kernel
  have hdir' : (runFrom (symbolic defaultProfiles) emptyState linkedRun).tree.lookup
      (workspaceOf (symbolic defaultProfiles) target.id) = some .dir := by
    rw [htargetId]
    decide +kernel
  have hcaptured : (runFrom (symbolic defaultProfiles) emptyState linkedRun).store.snapshots.get? row'.id =
      some row' ∧ ∃ metadata, Captured (symbolic defaultProfiles)
        (runFrom (symbolic defaultProfiles) emptyState linkedRun).tree row' ((runFrom (symbolic defaultProfiles)
          emptyState etcRun).tree.contents (workspaceOf (symbolic defaultProfiles) "a")) metadata :=
    captured_of_captureRun (initial_emptyState defaultProfiles) (map_eq_ok.mpr ⟨row', hblock, rfl⟩) hdir
      ⟨trivial, trivial, trivial, trivial, trivial⟩ ⟨trivial, trivial, trivial, trivial, trivial⟩
  obtain ⟨hkept, metadata, hcaptured⟩ := hcaptured
  obtain rfl : row = row' := by
    rw [of_decide_eq_true hid] at hkept
    exact Option.some.inj (hrow.symm.trans hkept)
  have hforeseen := foreseen_of_captured hs hkept hcaptured
    (listed_contents hbefore.tidy.tree (by decide) hdir) (htargetId ▸ htarget) hdir'
  rwa [htargetId] at hforeseen

/-- This restore does not spare the workspace. -/
theorem failed_restore_spares_iff_linkedRun :
    ∃ row, (runFrom (symbolic defaultProfiles) emptyState linkedRun).store.snapshots.get? "aa" = some row ∧
      Foreseen (symbolic defaultProfiles) (runFrom (symbolic defaultProfiles) emptyState linkedRun).tree row
        ["srv", "labs", "a"] ∧
      ¬ Spares (symbolic defaultProfiles) (runFrom (symbolic defaultProfiles) emptyState linkedRun).tree row
        ["srv", "labs", "a"] := by
  obtain ⟨row, lab, storage, e, d', hrow, -, -, hworkspace, hraises, hlost⟩ := refused_linkedRun
  have htree : IsTree (runFrom (symbolic defaultProfiles) emptyState linkedRun).tree :=
    isTree_of_checkTree (by decide +kernel)
  have hlink : NoLink (runFrom (symbolic defaultProfiles) emptyState linkedRun).tree
      (["srv", "labs", "a"] ++ ["workspace"]) :=
    htree.noLink_of_dir (by decide +kernel)
  have hforeseen := foreseen_linkedRun hrow
  refine ⟨row, hrow, hforeseen, fun hspares => hlost ?_⟩
  exact ((failed_restore_spares_iff (symbolic defaultProfiles) 2 row lab storage ["srv", "labs", "a"]
    ⟨(runFrom (symbolic defaultProfiles) emptyState linkedRun).tree, []⟩ hworkspace
      (by decide) htree hlink rfl).2 hforeseen).mpr (.inr hspares) e d' hraises

/-- **The restore fails and the file is gone**: it was in the workspace, the restore raises, and it is not
there. -/
theorem failed_restore_clears :
    ∃ row lab storage e d',
      (runFrom (symbolic defaultProfiles) emptyState linkedRun).store.snapshots.get? "aa" = some row ∧
      (runFrom (symbolic defaultProfiles) emptyState linkedRun).store.labs.get? "a" = some lab ∧
      (runFrom (symbolic defaultProfiles) emptyState linkedRun).store.labStorage.get? "a" = some storage ∧
      restoreSnapshot (symbolic defaultProfiles) 2 row lab storage
        ⟨(runFrom (symbolic defaultProfiles) emptyState linkedRun).tree, []⟩ = .error e d' ∧
      ¬ SameContent storage.workspacePath
        (runFrom (symbolic defaultProfiles) emptyState linkedRun).tree d'.tree := by
  obtain ⟨row, lab, storage, e, d', hrow, hlab, hstorage, hworkspace, hraises, hlost⟩ := refused_linkedRun
  exact ⟨row, lab, storage, e, d', hrow, hlab, hstorage, hraises, hworkspace ▸ hlost⟩

end LabOS
