import LabOS.System.ReleasedArea

/-!
# Staging

The path of a request is parsed, put below the resolved exports directory and resolved again, and what
is found there is copied into quarantine. The guest of the lab decides what stands in its exports and its
workspace, links among it; nothing of it stands in quarantine.

## What is proved

* `staged_from_exports_iff` — **an export that is staged** is a copy of a regular file strictly below the
  resolved exports directory, at the one new place in quarantine, **exactly when** its path does not lead out
  of that directory behind a loop of links.
* `guarded_of_run` — in every run the tree is one in which exports can be staged.

## Where the code parts from its purpose

`staged_from_elsewhere`: behind a loop of links `resolve` leaves what is left of a path as it is written, links
on it among it. The check on the text passes, and the copy follows a link into another lab.
-/

namespace LabOS

open Exceptional FileOps FileTree ExportGate ManagedStorageAllocator

variable {β : Type} [Content β] {env : Environment β}

/-- A tree in which the guest has kept to what is its own: no link stands at the quarantine directory of the
lab, above it or in it, and the exports directory leads to no file. -/
structure Guarded (storage : LabStorageRow) (t : FileTree β) : Prop where
  tree : IsTree t
  plain : ∀ n ∈ storage.quarantinePath, PosixPath.isPlain n = true
  noLink : ∀ p, Comparable storage.quarantinePath p → ∀ tgt, t.lookup p ≠ some (.symlink tgt)
  exports : ∀ b, t.lookup (t.realpath storage.exportsPath).1 ≠ some (.file b)

variable {storage : LabStorageRow} {exportId sourcePath : String} {source : PosixPath} {d d' : Disk β}

omit [Content β] in
/-- No link stands on a path into the quarantine directory. -/
theorem Guarded.noLink_below {t : FileTree β} (h : Guarded storage t) (q : List String) :
    NoLink t (storage.quarantinePath ++ q) :=
  fun p hp => h.noLink p (List.prefix_or_prefix_of_prefix (List.prefix_append _ _) hp)

omit [Content β] in
/-- A file that stands in the exports directory is strictly below it. -/
theorem Guarded.strictly_below {t : FileTree β} {q : PosixPath} {b : β} (h : Guarded storage t)
    (hbelow : (t.realpath storage.exportsPath).1 <+: q) (hb : t.lookup q = some (.file b)) :
    ∃ r, r ≠ [] ∧ q = (t.realpath storage.exportsPath).1 ++ r := by
  obtain ⟨r, rfl⟩ := hbelow
  refine ⟨r, ?_, rfl⟩
  rintro rfl
  rw [List.append_nil] at hb
  exact h.exports b hb

omit [Content β] in
/-- The directory of a new export is made, and nothing else changes. -/
theorem Guarded.made_of_makeDirs {u : Unit} (h : Guarded storage d.tree)
    (hexport : PosixPath.isPlain exportId = true)
    (hdirs : makeDirs (storage.quarantinePath ++ [exportId]) d = .ok u d') :
    IsTree d'.tree ∧ (∀ q, NoLink d'.tree (storage.quarantinePath ++ q)) ∧
      (∀ p e, d.tree.lookup p = some e → d'.tree.lookup p = some e) ∧
      ∀ p, d'.tree.lookup p = d.tree.lookup p ∨
        p <+: storage.quarantinePath ++ [exportId] ∧ d.tree.lookup p = none ∧
          d'.tree.lookup p = some .dir := by
  have hplain : ∀ m ∈ storage.quarantinePath ++ [exportId], PosixPath.isPlain m = true := by
    intro m hm
    rcases List.mem_append.mp hm with hm | hm
    · exact h.plain m hm
    · exact List.mem_singleton.mp hm ▸ hexport
  obtain ⟨ht, hlink, hdir, hkept, hout⟩ :=
    FileOps.made_of_makeDirs h.tree (h.noLink_below [exportId]) hplain hdirs
  have hchange : ∀ p, d'.tree.lookup p = d.tree.lookup p ∨
      p <+: storage.quarantinePath ++ [exportId] ∧ d.tree.lookup p = none ∧ d'.tree.lookup p = some .dir := by
    intro p
    by_cases hp : p <+: storage.quarantinePath ++ [exportId]
    · cases hold : d.tree.lookup p with
      | some e => exact .inl (hkept p e hold)
      | none =>
        refine .inr ⟨hp, rfl, ?_⟩
        by_cases hq : p = storage.quarantinePath ++ [exportId]
        · exact hq ▸ hdir
        · exact ht.dir_of_prefix hdir hp hq
    · exact .inl (hout p hp)
  refine ⟨ht, fun q p hp tgt he => ?_, hkept, hchange⟩
  rcases hchange p with hsame | ⟨-, -, hnew⟩
  · exact h.noLink_below q p hp tgt (hsame ▸ he)
  · cases hnew.symm.trans he

/-- A copy that can be read where it was to go was made there: no directory stood there to take it in. -/
theorem set_of_copy2 {dst : PosixPath} {b : β} {u : Unit} {d₁ : Disk β}
    (hlink : ∀ q, NoLink d.tree (dst ++ q))
    (hplain : ∀ n ∈ dst ++ [PosixPath.name source], PosixPath.isPlain n = true)
    (hcopy : copy2 source dst d = .ok u d') (hread : readBytes dst d' = .ok b d₁) :
    d.tree.stat source = some (.file b) ∧ d'.tree = d.tree.set dst (.file b) := by
  obtain ⟨c, dst', hdst, hc, hwrite⟩ := copy2_eq_ok hcopy
  obtain ⟨q, hq, hset, hold⟩ := write_eq_some hwrite
  have hself : NoLink d.tree dst := by simpa using hlink []
  have hdst' : q = dst' := by
    rcases hdst with rfl | ⟨-, rfl⟩
    · exact hself.leads (fun n hn => hplain n (List.mem_append_left _ hn)) q hq
    · exact (hlink [PosixPath.name source]).leads hplain q hq
  subst hdst'
  have hne : q ≠ [] := by
    rintro rfl
    exact hold (lookup_nil _)
  have hstat : d'.tree.lookup dst = some (.file b) := by
    have hself' : NoLink d'.tree dst := hset ▸ hself.set fun tgt h => by cases h
    exact (hself'.leads fun n hn => hplain n (List.mem_append_left _ hn)).lookup_of_stat
      (readBytes_eq_ok hread).1
  rcases hdst with rfl | ⟨hdir, rfl⟩
  · rw [hset, lookup_set_self hne] at hstat
    obtain rfl := Entry.file.inj (Option.some.inj hstat)
    exact ⟨hc, hset⟩
  · -- the directory still stands, so that nothing can be read there
    rw [hset, lookup_set_ne (PosixPath.ne_concat_self _ _),
      (hself.leads fun n hn => hplain n (List.mem_append_left _ hn)).lookup_of_stat hdir] at hstat
    cases hstat

/-- An export is staged: what a request names, and is found, is copied into the directory of the export in
quarantine. The size and the hash that are recorded are those of the copy, and besides it nothing changes but
that directories on the way to it are made. -/
structure Copies (env : Environment β) (exportId : String) (storage : LabStorageRow) (t t' : FileTree β)
    (staged : ExportStageResult) (b : β) : Prop where
  place : ∃ name, PosixPath.isPlain name = true ∧
    staged.provenance.quarantinePath = storage.quarantinePath ++ [exportId, name]
  copied : t'.lookup staged.provenance.quarantinePath = some (.file b)
  sizeBytes : staged.provenance.sizeBytes = env.codec.size b
  sha256 : staged.provenance.sha256 = env.codec.sha256 b
  frame : ∀ p, p ≠ staged.provenance.quarantinePath → t'.lookup p = t.lookup p ∨
    p <+: storage.quarantinePath ++ [exportId] ∧ t.lookup p = none ∧ t'.lookup p = some .dir

/-- It is staged from the exports directory: the path it names leads, links followed, to a regular file strictly
below the resolved exports directory, and that is copied. -/
def StagedFromExports (env : Environment β) (exportId : String) (storage : LabStorageRow) (sourcePath : String)
    (t t' : FileTree β) (staged : ExportStageResult) : Prop :=
  ∃ source whole r b, managedSource t storage sourcePath = some (source, whole) ∧
    t.locate true source = some ((t.realpath storage.exportsPath).1 ++ r) ∧ r ≠ [] ∧
    t.lookup ((t.realpath storage.exportsPath).1 ++ r) = some (.file b) ∧
    Copies env exportId storage t t' staged b

/-- **What is staged is a copy** of the file the request names, wherever that stands. -/
theorem copies_of_stageExport {lab : LabRow} {runId : Option String} {staged : ExportStageResult}
    (hexport : PosixPath.isPlain exportId = true) (hguarded : Guarded storage d.tree)
    (h : stageExport env exportId lab storage sourcePath runId d = .ok staged d') :
    ∃ source b, Stages d.tree storage sourcePath source b ∧
      Copies env exportId storage d.tree d'.tree staged b := by
  unfold stageExport at h
  obtain ⟨decision, d₁, hdecision, h⟩ := bind_eq_ok.mp h
  obtain ⟨-, rfl⟩ := fromExcept_eq_ok.mp hdecision
  obtain ⟨_, d₂, hallowed, h⟩ := bind_eq_ok.mp h
  obtain ⟨-, rfl⟩ := raiseIf_eq_ok.mp hallowed
  obtain ⟨source, d₃, hsource, h⟩ := bind_eq_ok.mp h
  obtain ⟨rfl, hresolves, hbelow⟩ := below_of_resolveManagedSource hsource
  obtain ⟨there, d₄, hthere, h⟩ := bind_eq_ok.mp h
  obtain ⟨-, rfl⟩ := look_eq_ok.mp (files_eq_ok.mp hthere)
  obtain ⟨regular, d₅, hregular, h⟩ := bind_eq_ok.mp h
  have hfile : regular = true → ∃ b, d.tree.stat source = some (.file b) := by
    rintro rfl
    exact isFile_eq_true (files_eq_ok.mp hregular)
  obtain ⟨-, rfl⟩ := look_eq_ok.mp (files_eq_ok.mp hregular)
  obtain ⟨_, d₆, hraise, h⟩ := bind_eq_ok.mp h
  obtain ⟨hfound, rfl⟩ := raiseIf_eq_ok.mp hraise
  obtain ⟨b, hb⟩ := hfile (by simpa using (not_or.mp hfound).2)
  have hname : PosixPath.isPlain (PosixPath.name source) = true := by
    refine plain_name_of_stat hguarded.tree (fun hnil => ?_) hb
    rw [hnil] at hb
    cases hb
  obtain ⟨_, d₇, hdirs, h⟩ := bind_eq_ok.mp h
  obtain ⟨-, hlink, hkept, hchange⟩ := hguarded.made_of_makeDirs hexport (files_eq_ok.mp hdirs)
  obtain ⟨_, d₈, hcopy, h⟩ := bind_eq_ok.mp h
  obtain ⟨artifact, d₉, hread, h⟩ := bind_eq_ok.mp h
  obtain ⟨rfl, rfl⟩ := pure_eq_ok.mp h
  have hplain : ∀ n ∈ storage.quarantinePath ++ [exportId] ++ [PosixPath.name source] ++ [PosixPath.name source],
      PosixPath.isPlain n = true := by
    intro n hn
    simp only [List.mem_append, List.mem_singleton] at hn
    rcases hn with ((hn | rfl) | rfl) | rfl
    · exact hguarded.plain n hn
    · exact hexport
    · exact hname
    · exact hname
  obtain ⟨hcopied, hset⟩ :=
    set_of_copy2 (fun q => by simpa using hlink (exportId :: PosixPath.name source :: q))
    hplain (files_eq_ok.mp hcopy) (files_eq_ok.mp hread)
  obtain ⟨-, rfl⟩ := readBytes_eq_ok (files_eq_ok.mp hread)
  -- what is found is found there still when the directory is made, so that the copy is of that
  rw [stat_mono hkept hb] at hcopied
  obtain rfl := Entry.file.inj (Option.some.inj hcopied)
  refine ⟨source, b, ⟨hresolves, hbelow, hb⟩, ⟨PosixPath.name source, hname, by simp⟩, ?_, rfl, rfl, ?_⟩
  · rw [hset, lookup_set_self (by simp)]
  · intro p hp
    rw [hset, lookup_set_ne hp]
    exact hchange p

/-- **An export that is staged is staged from the exports directory** of the lab exactly when the path of the
request meets no loop of links there, or leads to a place in that directory all the same. -/
theorem staged_from_exports_iff (env : Environment β) (exportId : String)
    (hexport : PosixPath.isPlain exportId = true) (lab : LabRow) (storage : LabStorageRow)
    (sourcePath : String) (runId : Option String) (d d' : Disk β) (hguarded : Guarded storage d.tree)
    (staged : ExportStageResult)
    (h : stageExport env exportId lab storage sourcePath runId d = .ok staged d') :
    StagedFromExports env exportId storage sourcePath d.tree d'.tree staged ↔
      leavesExports d.tree storage sourcePath = false := by
  obtain ⟨source, b, hstages, hcopies⟩ := copies_of_stageExport hexport hguarded h
  constructor
  · rintro ⟨source', whole, r, -, hsource, hlocate, -⟩
    cases whole with
    | true => simp [leavesExports, hsource]
    | false => simp [leavesExports, hsource, hlocate]
  · intro hstays
    obtain ⟨q, hlocate, hb, hbelow⟩ := hstages.in_exports hstays
    obtain ⟨r, hr, rfl⟩ := hguarded.strictly_below hbelow hb
    obtain ⟨whole, hsource⟩ := hstages.resolves
    exact ⟨source, whole, r, b, hsource, hlocate, hr, hb, hcopies⟩

/-! ### Runs -/

/-- No file is put where the exports directory of a lab stands. -/
theorem exports_of_step {s : State β} {a : Action β} {labId : String} (hs : Healthy env anyContent s)
    (h : ∀ b, s.tree.lookup (inLab env.root labId ["exports"]) ≠ some (.file b)) :
    ∀ b, (step env s a).tree.lookup (inLab env.root labId ["exports"]) ≠ some (.file b) := by
  intro b hb
  by_cases hchanges : Changes env s a (inLab env.root labId ["exports"])
  · cases changesLab_of_changes hchanges with
    | written _ below place => exact below (List.cons.inj place).2.symm
    | made request => exact h b ((onlyDirs_of_newLab request _ _ hb).resolve_left (by simp))
    | destroyed => exact h b (removes_of_destroyLab _ _ hb)
    | archived _ _ _ place | restored _ _ _ place | described place => simp at place
    | staged _ place | released _ _ _ _ place => simp at place
  · exact h b (((keeps_of_step hs.sound carries_any (brings_any s a) hs.tidy).2 _ hchanges).symm.trans hb)

/-- The policy lets no link stand at the quarantine directory of a lab, above it or in it. -/
theorem not_managed_link {good : String → β → Prop} {labId : String} {p : PosixPath} {tgt : PathText}
    (hp : Comparable (inLab env.root labId ["quarantine"]) p) : ¬ Managed env good p (.symlink tgt) := by
  rintro (hfar | ⟨labId', hguest⟩)
  · apply hfar
    rcases hp with hbelow | habove
    · exact .inl ((root_prefix_inLab _ _ _).trans hbelow)
    · exact List.prefix_or_prefix_of_prefix (root_prefix_inLab _ _ _) habove
  · obtain ⟨x, r, hx, -, rfl⟩ := guestArea_iff.mp hguest
    have hplace := (comparable_inLab_iff.mp hp).2
    simp only [List.cons_prefix_cons] at hplace
    rcases hx with rfl | rfl <;> exact absurd (hplace.imp And.left And.left) (by decide)

/-- **In every run** the tree is one in which the exports of a lab can be staged, whatever the guests have
written. -/
theorem guarded_of_run {s₀ : State β} (h₀ : Initial env s₀) (actions : List (Action β)) {labId : String}
    (hstorage : (runFrom env s₀ actions).store.labStorage.get? labId = some storage) :
    Guarded storage (runFrom env s₀ actions).tree := by
  have hexports : ∀ b, (runFrom env s₀ actions).tree.lookup (inLab env.root storage.labId ["exports"]) ≠
      some (.file b) := by
    refine (Runs.after_keeps (I := fun s => Healthy env anyContent s ∧
        ∀ b, s.tree.lookup (inLab env.root storage.labId ["exports"]) ≠ some (.file b))
      (fun s a hs => ⟨healthy_of_step carries_any hs.1 (brings_any s a), exports_of_step hs.1 hs.2⟩)
      ⟨healthy_of_initial h₀, fun b hb => ?_⟩).2
    rw [h₀.unused _ (by simp [strictlyBelow, inLab, labRoot])] at hb
    cases hb
  have hs := healthy_of_actions h₀ actions
  obtain ⟨hlayout, lab, hlab⟩ := hs.sound.layout _ _ hstorage
  obtain rfl : storage.labId = labId := Table.key_of_get? hstorage
  have hid : isIdentifier storage.labId = true := (hs.sound.labs _ _ hlab).isIdentifier
  have hexportsPath : storage.exportsPath = inLab env.root storage.labId ["exports"] := by
    rw [hlayout.2.2.1, hlayout.1]
  have hquarantine : storage.quarantinePath = inLab env.root storage.labId ["quarantine"] := by
    rw [hlayout.2.2.2.1, hlayout.1]
  have hfirm : Firm (Managed env anyContent) storage.exportsPath :=
    hexportsPath ▸ firm_of_ours (ours_dir hid (by decide))
  refine ⟨hs.tidy.tree, ?_, fun p hp tgt he => ?_, fun b hb => ?_⟩
  · rw [hquarantine]
    exact plain_inLab hid (by decide)
  · rw [hquarantine] at hp
    exact not_managed_link hp (hs.tidy.allowed _ _ he)
  · rw [hfirm.realpath hs.tidy, hexportsPath] at hb
    exact hexports b hb

/-- A guest links to a file below its exports directory. -/
def linkRun : List (Action Blob) :=
  [.request (.createLab "safe-dev" .human) 0 [],
   .guest "a" [(["srv", "labs", "a", "exports", "d"], .dir),
     (["srv", "labs", "a", "exports", "d", "r.txt"], .file (.data "a" ['x'])),
     (["srv", "labs", "a", "exports", "latest"], .symlink ["d", "r.txt"])]]

/-- What the link leads to is staged, and from the exports directory. -/
theorem staged_from_exports_iff_linkRun :
    ∃ lab storage staged d',
      stageExport (symbolic defaultProfiles) "aa" lab storage "/lab/exports/latest" none
        ⟨(runFrom (symbolic defaultProfiles) emptyState linkRun).tree, []⟩ = .ok staged d' ∧
      StagedFromExports (symbolic defaultProfiles) "aa" storage "/lab/exports/latest"
        (runFrom (symbolic defaultProfiles) emptyState linkRun).tree d'.tree staged := by
  have hstages : ((runFrom (symbolic defaultProfiles) emptyState linkRun).store.labs.get? "a").any (fun lab =>
      ((runFrom (symbolic defaultProfiles) emptyState linkRun).store.labStorage.get? "a").any fun storage =>
        returns (fun _ _ => true) (stageExport (symbolic defaultProfiles) "aa" lab storage
          "/lab/exports/latest" none ⟨(runFrom (symbolic defaultProfiles) emptyState linkRun).tree, []⟩) &&
        !leavesExports (runFrom (symbolic defaultProfiles) emptyState linkRun).tree storage
          "/lab/exports/latest") =
      true := by decide +kernel
  obtain ⟨lab, -, hstages⟩ := (Option.any_eq_true ..).mp hstages
  obtain ⟨storage, hstorage, hstages⟩ := (Option.any_eq_true ..).mp hstages
  obtain ⟨hreturns, hstays⟩ := Bool.and_eq_true_iff.mp hstages
  obtain ⟨staged, d', hstaged, -⟩ := returns_eq_true.mp hreturns
  exact ⟨lab, storage, staged, d', hstaged, (staged_from_exports_iff (symbolic defaultProfiles) "aa"
    (by decide) lab storage "/lab/exports/latest" none _ d'
    (guarded_of_run (initial_emptyState _) linkRun hstorage) staged hstaged).mpr (by simpa using hstays)⟩

/-- The guest of a lab makes a link that loops, and one to a file of another lab. -/
def loopRun : List (Action Blob) :=
  [.request (.createLab "safe-dev" .human) 0 [], .request (.createLab "safe-dev" .human) 1 [],
   .guest "aa" [(["srv", "labs", "aa", "workspace", "w.txt"], .file (.data "aa" ['x']))],
   .guest "a" [(["srv", "labs", "a", "exports", "loop"], .symlink ["loop"]),
     (["srv", "labs", "a", "exports", "leak"], .symlink ["..", "..", "aa", "workspace", "w.txt"])]]

/-- **The file of the other lab is staged**: behind the loop the other link is not resolved. -/
theorem staged_from_elsewhere :
    ∃ lab storage staged d' b,
      (runFrom (symbolic defaultProfiles) emptyState loopRun).store.labStorage.get? "a" = some storage ∧
      stageExport (symbolic defaultProfiles) "aaaa" lab storage "/lab/exports/loop/../leak" none
        ⟨(runFrom (symbolic defaultProfiles) emptyState loopRun).tree, []⟩ = .ok staged d' ∧
      (runFrom (symbolic defaultProfiles) emptyState loopRun).tree.lookup
        ["srv", "labs", "aa", "workspace", "w.txt"] = some (.file b) ∧
      d'.tree.lookup staged.provenance.quarantinePath = some (.file b) ∧
      ¬ StagedFromExports (symbolic defaultProfiles) "aaaa" storage "/lab/exports/loop/../leak"
        (runFrom (symbolic defaultProfiles) emptyState loopRun).tree d'.tree staged := by
  have hstages : ((runFrom (symbolic defaultProfiles) emptyState loopRun).store.labs.get? "a").any (fun lab =>
      ((runFrom (symbolic defaultProfiles) emptyState loopRun).store.labStorage.get? "a").any fun storage =>
        returns (fun _ _ => true) (stageExport (symbolic defaultProfiles) "aaaa" lab storage
          "/lab/exports/loop/../leak" none
            ⟨(runFrom (symbolic defaultProfiles) emptyState loopRun).tree, []⟩) &&
        decide (managedSource (runFrom (symbolic defaultProfiles) emptyState loopRun).tree storage
          "/lab/exports/loop/../leak" = some (["srv", "labs", "a", "exports", "leak"], false)) &&
        decide (((runFrom (symbolic defaultProfiles) emptyState loopRun).tree.realpath storage.exportsPath).1 =
          ["srv", "labs", "a", "exports"])) =
      true := by decide +kernel
  have hleads : (runFrom (symbolic defaultProfiles) emptyState loopRun).tree.locate true
      ["srv", "labs", "a", "exports", "leak"] = some ["srv", "labs", "aa", "workspace", "w.txt"] := by
    decide +kernel
  obtain ⟨lab, -, hstages⟩ := (Option.any_eq_true ..).mp hstages
  obtain ⟨storage, hstorage, hstages⟩ := (Option.any_eq_true ..).mp hstages
  simp only [Bool.and_eq_true, decide_eq_true_eq] at hstages
  obtain ⟨⟨hreturns, hsource⟩, hroot⟩ := hstages
  obtain ⟨staged, d', hstaged, -⟩ := returns_eq_true.mp hreturns
  obtain ⟨source, b, hstages, hcopies⟩ := copies_of_stageExport (by decide)
    (guarded_of_run (initial_emptyState _) loopRun hstorage) hstaged
  obtain ⟨whole, hsource'⟩ := hstages.resolves
  obtain ⟨rfl, rfl⟩ := Prod.mk.inj (Option.some.inj (hsource.symm.trans hsource'))
  obtain ⟨q, hq, hb⟩ := Option.bind_eq_some_iff.mp hstages.found
  obtain rfl := Option.some.inj (hleads.symm.trans hq)
  refine ⟨lab, storage, staged, d', b, hstorage, hstaged, hb, hcopies.copied, ?_⟩
  rintro ⟨source, whole, r, -, hsource', hlocate, -⟩
  obtain ⟨rfl, rfl⟩ := Prod.mk.inj (Option.some.inj (hsource.symm.trans hsource'))
  rw [hroot] at hlocate
  have heq := Option.some.inj (hleads.symm.trans hlocate)
  simp at heq

end LabOS
