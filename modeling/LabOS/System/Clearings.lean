import LabOS.Library.RoundTrip
import LabOS.System.Restores
import LabOS.System.Symbolic

/-!
# Clearing a directory

`_clear_directory` goes over the names of a directory and removes each, by `rmtree` where `is_dir`
finds a directory and by `unlink` where it does not. But `is_dir` follows links and `rmtree` refuses
them, so that a link to a directory is removed by neither.

## What is proved

* `clear_directory_clears_iff` — the directory is there and empty in the end, and all else as it was,
  **exactly when** no name is a link that leads to a directory once the names before it are removed.
* `clears_of_unlinked` — so it is where no name is such a link to begin with.
* `not_clears_of_outward` — so it is not where one leads to a directory past the other names, as a link
  out of the directory does, in whatever order the names come.
* `clearing_confined` — nothing outside the directory changes, however the clearing ends and whatever
  faults the disk has.

## Where the code parts from its purpose

`clear_directory_refused`: a guest links from its workspace to its exports, and the workspace is not
cleared.
-/

namespace LabOS

open Exceptional FileOps FileTree SnapshotManager

variable {β : Type} {t : FileTree β} {p : PosixPath} {n : String}

/-- Clearing the directory returns, and leaves it there and empty and all that is not below it as it was. -/
def Clears (t : FileTree β) (p : PosixPath) : Prop :=
  ∃ t', clearDirectory p ⟨t, []⟩ = .ok () ⟨t', []⟩ ∧ EmptyDir t' p ∧
    ∀ q, ¬ (p <+: q ∧ q ≠ p) → t'.lookup q = t.lookup q

/-! ### Removing some of the names -/

theorem without_append (t : FileTree β) (p : PosixPath) (gone rest : List String) :
    without t p (gone ++ rest) = without (without t p gone) p rest := by
  simp [without]

theorem removing_without (t : FileTree β) (p : PosixPath) (names : List String) :
    removing.rel t (without t p names) := by
  intro q e he
  by_cases hq : q = []
  · rw [hq] at he ⊢
    exact he
  · rw [lookup_without hq] at he
    split at he
    · cases he
    · exact he

/-- Removing other names makes no link lead to a directory. -/
theorem stuck_of_without {names : List String} (hn : n ∉ names) (h : Stuck (without t p names) (p ++ [n])) :
    Stuck t (p ++ [n]) := by
  have hsame : (without t p names).lookup (p ++ [n]) = t.lookup (p ++ [n]) := by
    rw [lookup_without (by simp), if_neg]
    rintro ⟨m, hm, hpre⟩
    obtain rfl : m = n := by simpa using hpre
    exact hn hm
  exact ⟨hsame ▸ h.1, stat_of_removing (removing_without t p names) h.2⟩

/-- The names of a directory are clearable when none is a link to a directory once those before it are
removed. -/
theorem clearable_iff {names : List String} : Clearable t p names ↔
    ∀ gone n rest, names = gone ++ n :: rest → ¬ Stuck (without t p gone) (p ++ [n]) := by
  induction names generalizing t with
  | nil =>
    refine iff_of_true trivial fun gone n rest h => ?_
    simp at h
  | cons m names ih =>
    constructor
    · rintro ⟨hfirst, hrest⟩ gone n rest h
      cases gone with
      | nil =>
        obtain ⟨rfl, -⟩ := List.cons.inj h
        exact hfirst
      | cons m' gone =>
        obtain ⟨rfl, hnames⟩ := List.cons.inj h
        exact ih.mp hrest gone n rest hnames
    · intro h
      refine ⟨h [] m names rfl, ih.mpr fun gone n rest hnames => ?_⟩
      exact h (m :: gone) n rest (by rw [hnames, List.cons_append])

/-! ### Clearing -/

section Clearing

variable (ht : IsTree t) (hdir : t.lookup p = some .dir)

include ht hdir

theorem clears_of_clearable (h : Clearable t p (t.children p)) : Clears t p := by
  refine ⟨emptied t p, clearDirectory_run ht hdir h, ⟨?_, fun q hq hne => ?_⟩, fun q hq => ?_⟩
  · rw [lookup_emptied ht, if_neg fun h => h.2 rfl, hdir]
  · rw [lookup_emptied ht, if_pos ⟨hq, hne⟩]
  · rw [lookup_emptied ht, if_neg hq]

/-- What is not clearable is not cleared: the removal stops at a link. -/
theorem clearable_of_clears (h : Clears t p) : Clearable t p (t.children p) := by
  by_contra hnot
  obtain ⟨gone, n, rest, -, -, -, hraises⟩ :=
    clearChildren_run_stuck ht (nodup_children t p) (fun n hn => mem_children.mp hn) hnot
  obtain ⟨t', hreturns, -⟩ := h
  rw [← clearDirectory_eq hdir ht, hreturns] at hraises
  cases hraises

/-- **Where no name is a link to a directory** the directory is cleared. -/
theorem clears_of_unlinked (h : ∀ n ∈ t.children p, ¬ Stuck t (p ++ [n])) : Clears t p := by
  refine clears_of_clearable ht hdir (clearable_iff.mpr fun gone n rest hnames hstuck => ?_)
  have hnodup := nodup_children t p
  rw [hnames] at h hnodup
  have hn : n ∉ gone := fun hn => List.disjoint_of_nodup_append hnodup hn List.mem_cons_self
  exact h n (by simp) (stuck_of_without hn hstuck)

/-- **A link that leads to a directory past the other names** stops the clearing, wherever it comes among
them. -/
theorem not_clears_of_outward (hn : n ∈ t.children p)
    (h : Stuck (without t p ((t.children p).erase n)) (p ++ [n])) : ¬ Clears t p := by
  intro hclears
  obtain ⟨gone, rest, hnames⟩ := List.append_of_mem hn
  have hnodup := nodup_children t p
  rw [hnames] at h hnodup
  have hgone : n ∉ gone := fun hn => List.disjoint_of_nodup_append hnodup hn List.mem_cons_self
  have hrest : n ∉ rest := (List.nodup_cons.mp hnodup.of_append_right).1
  rw [List.erase_append_right _ hgone, List.erase_cons_head, without_append] at h
  exact clearable_iff.mp (clearable_of_clears ht hdir hclears) gone n rest hnames (stuck_of_without hrest h)

/-- **Clearing a directory changes nothing outside it**, whatever the disk does and however it ends. -/
theorem clearing_confined (fates : List Fate) {q : PosixPath} (hq : ¬ p <+: q) :
    (endState (clearDirectory p ⟨t, fates⟩)).tree.lookup q = t.lookup q := by
  have hplain : ∀ n ∈ p, PosixPath.isPlain n = true := ht.plain_of_lookup hdir
  have hwithin : Within (confined (linkless p) fun q => p <+: q) (clearDirectory p) (⟨t, fates⟩ : Disk β) :=
    within_clearDirectory (firm_linkless hplain) fun _ hq => hq
  exact (hwithin (tidy_linkless.mpr ⟨ht, ht.noLink_of_dir hdir⟩)).2 q hq

end Clearing

/-- **Clearing a directory empties it and nothing else exactly when** none of its names is a link that leads
to a directory once the names before it are removed. Links are ones the file system can look up: `is_dir` raises
where a target has a name that is too long, or may not be read. -/
theorem clear_directory_clears_iff (t : FileTree β) (p : PosixPath) (ht : IsTree t)
    (hdir : t.lookup p = some .dir) :
    Clears t p ↔ ∀ gone n rest, t.children p = gone ++ n :: rest →
      ¬ Stuck (without t p gone) (p ++ [n]) := by
  rw [← clearable_iff]
  exact ⟨clearable_of_clears ht hdir, clears_of_clearable ht hdir⟩

/-- A guest leaves a directory with a file, a link to the file, a link to nothing, and a link to the directory
after it. -/
def litteredRun : List (Action Blob) :=
  [.request (.createLab "safe-dev" .human) 0 [],
   .guest "a"
    [(["srv", "labs", "a", "workspace", "src"], .dir),
     (["srv", "labs", "a", "workspace", "src", "main.py"], .file (.data "a" ['x'])),
     (["srv", "labs", "a", "workspace", "main"], .symlink ["src", "main.py"]),
     (["srv", "labs", "a", "workspace", "gone"], .symlink ["", "tmp"]),
     (["srv", "labs", "a", "workspace", "code"], .symlink ["src"])]]

/-- All of it is removed, the link to the directory as well, which leads nowhere by then. -/
theorem clear_directory_clears_iff_litteredRun :
    Clears (runFrom (symbolic defaultProfiles) emptyState litteredRun).tree
      ["srv", "labs", "a", "workspace"] ∧
      Stuck (runFrom (symbolic defaultProfiles) emptyState litteredRun).tree
        ["srv", "labs", "a", "workspace", "code"] := by
  have htree : IsTree (runFrom (symbolic defaultProfiles) emptyState litteredRun).tree :=
    isTree_of_checkTree (by decide +kernel)
  have hnames : (runFrom (symbolic defaultProfiles) emptyState litteredRun).tree.children
      ["srv", "labs", "a", "workspace"] = ["src", "main", "gone", "code"] := by
    decide +kernel
  refine ⟨(clear_directory_clears_iff _ _ htree (by decide +kernel)).mpr ?_, by decide +kernel⟩
  rw [hnames]
  refine clearable_iff.mp ⟨?_, ?_, ?_, ?_, trivial⟩
  all_goals decide +kernel

/-! ### A link to a directory -/

/-- A guest links to the exports of its lab. -/
def outwardRun : List (Action Blob) :=
  [.request (.createLab "safe-dev" .human) 0 [],
   .guest "a" [(["srv", "labs", "a", "workspace", "latest"], .symlink ["..", "exports"])]]

/-- **The workspace is not cleared**: `rmtree` is given the link. -/
theorem clear_directory_refused :
    IsTree (runFrom (symbolic defaultProfiles) emptyState outwardRun).tree ∧
      (runFrom (symbolic defaultProfiles) emptyState outwardRun).tree.lookup
        ["srv", "labs", "a", "workspace"] = some .dir ∧
      raises (fun e _ => e = .file .osError) (clearDirectory ["srv", "labs", "a", "workspace"]
        ⟨(runFrom (symbolic defaultProfiles) emptyState outwardRun).tree, []⟩) = true ∧
      ¬ Clears (runFrom (symbolic defaultProfiles) emptyState outwardRun).tree
        ["srv", "labs", "a", "workspace"] := by
  have htree : IsTree (runFrom (symbolic defaultProfiles) emptyState outwardRun).tree :=
    isTree_of_checkTree (by decide +kernel)
  have hdir : (runFrom (symbolic defaultProfiles) emptyState outwardRun).tree.lookup
      ["srv", "labs", "a", "workspace"] = some .dir := by
    decide +kernel
  have hlinked : "latest" ∈ (runFrom (symbolic defaultProfiles) emptyState outwardRun).tree.children
      ["srv", "labs", "a", "workspace"] := by
    decide +kernel
  refine ⟨htree, hdir, by decide +kernel, not_clears_of_outward htree hdir hlinked ?_⟩
  decide +kernel

end LabOS
