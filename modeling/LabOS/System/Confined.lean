import LabOS.Library.FaultFree
import LabOS.System.Layout

/-!
# Where each program works

For every program that works on the disk: the part of the tree it may change, whether it
returns or raises, and whatever the file system does to it. Each keeps to the policy
`Managed`, so that a tidy tree stays tidy.

## What is proved

* `ManagedStorageAllocator.within_allocate`, `ManagedStorageAllocator.within_destroy` — a
  lab's tree is made and removed.
* `ExportGate.within_stageExport`, `ExportGate.within_releaseExport` — an artifact is
  copied into a directory of its own.
-/

namespace LabOS

open Exceptional FileOps FileTree ManagedStorageAllocator

variable {β : Type} [Content β] {env : Environment β} {good : String → β → Prop} {d : Disk β} {labId : String}

/-! ### The allocator -/

theorem ours_dir {x : String} (h : isIdentifier labId = true) (hx : PosixPath.isPlain x = true) :
    Ours labId [x] :=
  ⟨h, by simpa using hx, .inl (by simp)⟩

namespace ManagedStorageAllocator

theorem within_allocate {policy : StoragePolicy} (h : isIdentifier labId = true) :
    Within (confined (Managed env good) (Comparable (labRoot env.root labId)))
      (allocate env.root labId policy) d := by
  refine Within.bind ?_ fun _ _ _ _ => Within.pure _
  refine Within.forM (fun _ => True) trivial (fun p hp d _ => within_files ?_) fun _ _ _ _ _ _ _ => trivial
  obtain ⟨x, hx, rfl⟩ : ∃ x, PosixPath.isPlain x = true ∧ p = inLab env.root labId [x] := by
    simp only [allocationFor, List.mem_cons, List.not_mem_nil, or_false] at hp
    rcases hp with rfl | rfl | rfl | rfl <;> exact ⟨_, by decide, rfl⟩
  refine within_makeDirs (firm_of_ours (ours_dir h hx)) (fun q hq => ?_) fun q hq =>
    managed_dir hq (.inl (by simp))
  exact List.prefix_or_prefix_of_prefix (List.prefix_append _ _) hq

theorem within_destroy {storage : LabStorageRow} {allocation : StorageAllocation}
    (h : isIdentifier storage.labId = true) (hlayout : AtLayout env.root storage)
    (hallocation : storageAllocationFromRow storage = .ok allocation) :
    Within (confined (Managed env good) (labRoot env.root storage.labId <+: ·))
      (destroy env.root allocation) d := by
  have hroot : allocation.rootPath = inLab env.root storage.labId [] := by
    rw [storageAllocationFromRow_eq_ok hallocation, hlayout.1]
    exact (List.append_nil _).symm
  have hfirm : Firm (Managed env good) (inLab env.root storage.labId []) :=
    firm_of_ours ⟨h, by simp, .inl (by simp)⟩
  refine Within.bind ?_ fun _ _ _ _ => (within_files (within_look _ _)).bind fun there d₁ _ _ =>
    Within.whenever fun _ => within_files ?_
  · exact (within_files (within_look _ _)).bind fun _ _ _ _ => Within.raiseIf _ _
  · rw [hroot]
    exact within_rmtree (fun ht => hfirm.leads ht) fun q hq => by simpa [inLab] using hq

end ManagedStorageAllocator

/-! ### Export staging and release -/

namespace ExportGate

/-- The path a request names, resolved below the exports directory, and whether it was resolved to its end:
behind a loop of links the rest of a path is collapsed by its text alone. -/
def managedSource (t : FileTree β) (storage : LabStorageRow) (sourcePath : String) :
    Option (PosixPath × Bool) :=
  ((PurePath.parse sourcePath).relativeTo guestExportRoot).map fun relative =>
    t.realpath ((t.realpath storage.exportsPath).1 ++ relative)

/-- A request meets a loop of links, and what is left of its path leads out of the exports directory. -/
def leavesExports (t : FileTree β) (storage : LabStorageRow) (sourcePath : String) : Bool :=
  match managedSource t storage sourcePath with
  | some (left, false) => (t.locate true left).any fun q => !(t.realpath storage.exportsPath).1.isPrefixOf q
  | _ => false

/-- The file a request names: it is found by a path whose text is below the exports directory. -/
structure Stages (t : FileTree β) (storage : LabStorageRow) (sourcePath : String) (source : PosixPath) (b : β) :
    Prop where
  resolves : ∃ whole, managedSource t storage sourcePath = some (source, whole)
  below : (t.realpath storage.exportsPath).1 <+: source
  found : t.stat source = some (.file b)

omit [Content β] in
/-- The file stands in the exports directory, unless the request leaves it. -/
theorem Stages.in_exports {t : FileTree β} {storage : LabStorageRow} {sourcePath : String} {source : PosixPath}
    {b : β} (h : Stages t storage sourcePath source b) (hstays : leavesExports t storage sourcePath = false) :
    ∃ q, t.locate true source = some q ∧ t.lookup q = some (.file b) ∧
      (t.realpath storage.exportsPath).1 <+: q := by
  obtain ⟨q, hq, hb⟩ := Option.bind_eq_some_iff.mp h.found
  refine ⟨q, hq, hb, ?_⟩
  obtain ⟨whole, hsource⟩ := h.resolves
  cases whole with
  | true =>
    obtain ⟨relative, -, hresolved⟩ := Option.map_eq_some_iff.mp hsource
    have hres := resolved_of_realpath hresolved
    obtain rfl := locate_eq_of_noLink hres.names hres.noLink hq
    exact h.below
  | false =>
    simp only [leavesExports, hsource, hq, Option.any_some, Bool.not_eq_false'] at hstays
    exact List.isPrefixOf_iff_prefix.mp hstays

omit [Content β] in
/-- What `resolveManagedSource` returns is the text of a path below the exports directory. -/
theorem below_of_resolveManagedSource {storage : LabStorageRow} {sourcePath : String} {source : PosixPath}
    {d d' : Disk β} (h : resolveManagedSource storage sourcePath d = .ok source d') :
    d = d' ∧ (∃ whole, managedSource d.tree storage sourcePath = some (source, whole)) ∧
      (d.tree.realpath storage.exportsPath).1 <+: source := by
  unfold resolveManagedSource at h
  simp only [bind_eq_ok, orRaise_eq_ok, files_eq_ok, resolve_eq_ok, raiseIf_eq_ok, pure_eq_ok] at h
  obtain ⟨relative, _, ⟨hrelative, rfl⟩, exportsRoot, _, ⟨⟨rfl, -⟩, rfl⟩, _, _, ⟨⟨rfl, -⟩, rfl⟩, _, _,
      ⟨hbelow, rfl⟩, rfl, rfl⟩ := h
  exact ⟨rfl, ⟨_, by rw [managedSource, hrelative]; rfl⟩, not_not.mp hbelow⟩

/-- **The source of an export** is the text of a path in the exports directory of the lab. -/
theorem resolveManagedSource_eq_ok {storage : LabStorageRow} {sourcePath : String}
    {source : PosixPath} {d' : Disk β} (hid : isIdentifier storage.labId = true)
    (hlayout : AtLayout env.root storage) (ht : Tidy (Managed env good) d.tree)
    (h : resolveManagedSource storage sourcePath d = .ok source d') :
    d = d' ∧ ((∃ whole, managedSource d.tree storage sourcePath = some (source, whole)) ∧
      (d.tree.realpath storage.exportsPath).1 <+: source) ∧
      ∃ r, source = inLab env.root storage.labId ("exports" :: r) := by
  obtain ⟨rfl, hsource, hbelow⟩ := below_of_resolveManagedSource h
  refine ⟨rfl, ⟨hsource, hbelow⟩, ?_⟩
  have hexports : storage.exportsPath = inLab env.root storage.labId ["exports"] := by
    rw [hlayout.2.2.1, hlayout.1]
  have hfirm : Firm (Managed env good) storage.exportsPath :=
    hexports ▸ firm_of_ours (ours_dir hid (by decide))
  rw [hfirm.realpath ht] at hbelow
  obtain ⟨r, rfl⟩ := hbelow
  exact ⟨r, by simp [hexports, inLab]⟩

/-- A place of our own in a lab is not moved by changes below another directory of the lab. -/
theorem not_comparable {x y : String} {q r : List String} (hxy : x ≠ y) :
    ¬ Comparable (inLab env.root labId (x :: q)) (inLab env.root labId (y :: r)) := by
  rintro (h | h)
  · exact hxy (List.cons_prefix_cons.mp (inLab_prefix_iff.mp h).2).1
  · exact hxy (List.cons_prefix_cons.mp (inLab_prefix_iff.mp h).2).1.symm

/-- The place of an artifact is ours. -/
theorem ours_artifact {x id : String} {q : List String} (hid : isIdentifier labId = true)
    (hx : x = "quarantine" ∨ x = "released") (hplain : PosixPath.isPlain id = true)
    (hq : ∀ n ∈ q, PosixPath.isPlain n = true) :
    Ours labId (x :: id :: q) := by
  refine ⟨hid, ?_, .inr ⟨x, id :: q, rfl, ?_⟩⟩
  · rcases hx with rfl | rfl <;> simpa [hplain] using ⟨by decide, hq⟩
  · rcases hx with rfl | rfl <;> decide

/-- A file that is found at the place of an artifact stands there, under a plain name. -/
theorem lookup_of_stat_artifact {t : FileTree β} {x id name : String} {b : β} (ht : Tidy (Managed env good) t)
    (hid : isIdentifier labId = true) (hx : x = "quarantine" ∨ x = "released")
    (hplain : PosixPath.isPlain id = true)
    (h : t.stat (inLab env.root labId [x, id, name]) = some (.file b)) :
    PosixPath.isPlain name = true ∧ t.lookup (inLab env.root labId [x, id, name]) = some (.file b) := by
  have hname : PosixPath.isPlain name = true := by
    obtain ⟨q, hq, hlook⟩ := Option.bind_eq_some_iff.mp h
    rw [show inLab env.root labId [x, id, name] =
      inLab env.root labId [x, id] ++ [name] by simp [inLab]] at hq
    exact plain_of_locate ht.tree hq hlook
  have hfirm : Firm (Managed env good) (inLab env.root labId [x, id, name]) :=
    firm_of_ours (ours_artifact hid hx hplain (by simpa using hname))
  exact ⟨hname, (hfirm.leads ht).lookup_of_stat h⟩

/-- Copying a file, whose contents may be in the lab, to the place of an artifact. -/
theorem within_copyArtifact {src : PosixPath} {x id : String}
    (hid : isIdentifier labId = true) (hx : x = "quarantine" ∨ x = "released")
    (hplain : PosixPath.isPlain id = true) (hname : PosixPath.isPlain (PosixPath.name src) = true)
    (hcarry : Carries env good)
    (hsrc : Tidy (Managed env good) d.tree → ∀ b, d.tree.stat src = some (.file b) → good labId b) :
    Within (confined (Managed env good) (Comparable (inLab env.root labId [x, id])))
      (copy2 src (inLab env.root labId [x, id, PosixPath.name src])) d := by
  refine within_of_tidy fun ht => within_copy2 ?_ ?_
  · rintro q (rfl | ⟨-, rfl⟩)
    · refine ⟨firm_of_ours (ours_artifact hid hx hplain (by simpa using hname)), .inl ?_⟩
      simp
    · refine ⟨?_, .inl ?_⟩
      · have hfirm : Firm (Managed env good)
            (inLab env.root labId [x, id, PosixPath.name src, PosixPath.name src]) :=
          firm_of_ours (ours_artifact hid hx hplain (by simpa using hname))
        simpa [inLab] using hfirm
      · simp [inLab, labRoot]
  · intro b q hb hq
    have hgood : good labId b := hsrc ht b hb
    have hmay : ∀ c, good labId c → Managed env good q (.file c) := by
      have hxs : x ≠ "snapshots" := by rcases hx with rfl | rfl <;> decide
      intro c hc
      rcases hq with rfl | rfl
      · exact managed_file hxs hc
      · have hmay : Managed env good
            (inLab env.root labId [x, id, PosixPath.name src, PosixPath.name src]) (.file c) :=
          managed_file hxs hc
        simpa [inLab] using hmay
    exact ⟨hmay b hgood, fun n => hmay _ (hcarry.truncate n hgood)⟩

/-- What is found in the tree of a lab is found below its root. -/
theorem rootDir_of_stat {t : FileTree β} {q : List String} {e : Entry β} (hid : isIdentifier labId = true)
    (ht : Tidy (Managed env good) t) (hq : q ≠ []) (h : t.stat (inLab env.root labId q) = some e) :
    t.lookup (labRoot env.root labId) = some .dir := by
  have hfirm : Firm (Managed env good) (inLab env.root labId []) := firm_of_ours ⟨hid, by simp, .inl (by simp)⟩
  obtain ⟨p, hp, -⟩ := Option.bind_eq_some_iff.mp h
  have hdir := dir_of_locate (fun n hn => PosixPath.isName_of_plain (hfirm.plain n hn))
    (hfirm.noLink_of_tidy ht) hq
    (show t.locate true (inLab env.root labId [] ++ q) = some p by simpa [inLab] using hp)
  simpa [inLab] using hdir

/-- **Staging** changes only the directory of the new export in quarantine, and nothing at all in a lab
whose tree is gone, where the contents of what is found may be in the lab. -/
theorem within_stageExport {exportId : String} {lab : LabRow} {storage : LabStorageRow} {sourcePath : String}
    {runId : Option String} (hid : isIdentifier storage.labId = true) (hexport : isIdentifier exportId = true)
    (hlayout : AtLayout env.root storage) (hcarry : Carries env good)
    (hflow : ∀ source b, Stages d.tree storage sourcePath source b → good storage.labId b) :
    Within (confined (Managed env good) fun p => d.tree.lookup (labRoot env.root storage.labId) = some .dir ∧
        Comparable (inLab env.root storage.labId ["quarantine", exportId]) p)
      (stageExport env exportId lab storage sourcePath runId) d := by
  refine within_of_tidy fun ht => (Within.fromExcept _).bind fun decision d₁ h₁ _ =>
    (Within.raiseIf _ _).bind fun _ d₂ h₂ _ => Within.bind ?_ fun source d₃ h₃ _ =>
    (within_files (within_look _ _)).bind fun there d₄ h₄ _ =>
      (within_files (within_look _ _)).bind fun regular d₅ h₅ _ =>
    (Within.raiseIf _ _).bind fun _ d₆ h₆ _ => ?_
  · exact (Within.orRaise _ _).bind fun _ _ _ _ => (within_files (within_look _ _)).bind fun _ _ _ _ =>
      (within_files (within_look _ _)).bind fun _ _ _ _ =>
        (Within.raiseIf _ _).bind fun _ _ _ _ => Within.pure _
  obtain ⟨-, rfl⟩ := fromExcept_eq_ok.mp h₁
  obtain ⟨-, rfl⟩ := raiseIf_eq_ok.mp h₂
  obtain ⟨rfl, ⟨hsource, hbelow⟩, r, rfl⟩ := resolveManagedSource_eq_ok hid hlayout ht h₃
  obtain ⟨-, rfl⟩ := look_eq_ok.mp (files_eq_ok.mp h₄)
  obtain ⟨hregular, rfl⟩ := raiseIf_eq_ok.mp h₆
  have hreg : regular = true := by simpa using (not_or.mp hregular).2
  obtain ⟨b, hb⟩ := isFile_eq_true (hreg ▸ files_eq_ok.mp h₅)
  obtain ⟨-, rfl⟩ := look_eq_ok.mp (files_eq_ok.mp h₅)
  have hname : PosixPath.isPlain (PosixPath.name (inLab env.root storage.labId ("exports" :: r))) = true :=
    plain_name_of_stat ht.tree (by simp [inLab, labRoot]) hb
  simp only [rootDir_of_stat hid ht (List.cons_ne_nil _ _) hb, true_and]
  have hquarantine : storage.quarantinePath ++ [exportId] =
      inLab env.root storage.labId ["quarantine", exportId] := by
    rw [hlayout.2.2.2.1, hlayout.1]
    simp [inLab]
  have hfirm : Firm (Managed env good) (inLab env.root storage.labId ["quarantine", exportId]) :=
    firm_of_ours (ours_artifact hid (.inl rfl) (isPlain_of_isIdentifier hexport) (by simp))
  rw [hquarantine]
  refine Within.bind (within_files
    (within_makeDirs hfirm (fun q hq => .inr hq) fun q hq => managed_dir hq (.inl (by simp))))
    fun _ d₇ h₇ _ => Within.bind ?_ fun _ _ _ _ =>
      (within_files (within_look _ _)).bind fun _ _ _ _ => Within.pure _
  rw [inLab, List.append_assoc]
  refine within_files (within_copyArtifact hid (.inl rfl) (isPlain_of_isIdentifier hexport) hname hcarry
    fun _ c hc => ?_)
  -- what was found before the directory was made is found there still
  rw [stat_mono (within_makeDirs_growing.of_ok (files_eq_ok.mp h₇)) hb] at hc
  obtain rfl := Entry.file.inj (Option.some.inj hc)
  exact hflow _ b ⟨hsource, hbelow, hb⟩

omit [Content β] in
/-- Where an export of a lab at its layout is released to. -/
theorem releasedDir_eq {root : PosixPath} {storage : LabStorageRow} (h : AtLayout root storage)
    (exportId : String) :
    releasedDir storage exportId = inLab root storage.labId ["released", exportId] := by
  rw [releasedDir, h.1]
  rfl

/-- **A release** changes only the directory of its export in the released area, and
nothing at all unless the export may be released and the tree of its lab is there. -/
theorem within_releaseExport {row : ExportRow} {storage : LabStorageRow} {name : String}
    (hid : isIdentifier storage.labId = true) (hexport : isIdentifier row.id = true)
    (hlayout : AtLayout env.root storage)
    (hplace : row.quarantinePath = inLab env.root storage.labId ["quarantine", row.id, name])
    (hcarry : Carries env good) :
    Within (confined (Managed env good) fun p =>
        (row.state ≠ .rejected ∧ row.state ≠ .released ∧ row.approvalRequired = false) ∧
          d.tree.lookup (labRoot env.root storage.labId) = some .dir ∧
          Comparable (inLab env.root storage.labId ["released", row.id]) p)
      (releaseExport row storage) d := by
  refine within_of_tidy fun ht => (Within.raiseIf _ _).bind fun _ d₁ h₁ _ =>
    (Within.raiseIf _ _).bind fun _ d₂ h₂ _ =>
    (Within.raiseIf _ _).bind fun _ d₃ h₃ _ => (within_files (within_look _ _)).bind fun there d₄ h₄ _ =>
    (within_files (within_look _ _)).bind fun regular d₅ h₅ _ => (Within.raiseIf _ _).bind fun _ d₆ h₆ _ => ?_
  obtain ⟨hrejected, rfl⟩ := raiseIf_eq_ok.mp h₁
  obtain ⟨hreleased, rfl⟩ := raiseIf_eq_ok.mp h₂
  obtain ⟨hcleared, rfl⟩ := raiseIf_eq_ok.mp h₃
  obtain ⟨-, rfl⟩ := look_eq_ok.mp (files_eq_ok.mp h₄)
  obtain ⟨hregular, rfl⟩ := raiseIf_eq_ok.mp h₆
  have hreg : regular = true := by simpa using (not_or.mp hregular).2
  obtain ⟨b, hb⟩ := isFile_eq_true (hreg ▸ files_eq_ok.mp h₅)
  obtain ⟨-, rfl⟩ := look_eq_ok.mp (files_eq_ok.mp h₅)
  simp only [hrejected, hreleased, hcleared, ne_eq, not_false_eq_true, true_and]
  obtain ⟨hname, hlook⟩ :=
    lookup_of_stat_artifact ht hid (.inl rfl) (isPlain_of_isIdentifier hexport) (hplace ▸ hb)
  have hfirm : Firm (Managed env good) row.quarantinePath :=
    hplace ▸ firm_of_ours (ours_artifact hid (.inl rfl) (isPlain_of_isIdentifier hexport)
      (by simpa using hname))
  simp only [rootDir_of_stat hid ht (List.cons_ne_nil _ _) (hplace ▸ hb), true_and]
  rw [releasedDir_eq hlayout]
  have hfirmDir : Firm (Managed env good) (inLab env.root storage.labId ["released", row.id]) :=
    firm_of_ours (ours_artifact hid (.inr rfl) (isPlain_of_isIdentifier hexport) (by simp))
  refine Within.bind (within_files (within_makeDirs hfirmDir (fun q hq => .inr hq) fun q hq =>
    managed_dir hq (.inl (by simp)))) fun _ d₇ _ hk => Within.bind ?_ fun _ _ _ _ => Within.pure _
  rw [inLab, List.append_assoc]
  refine within_files (within_copyArtifact hid (.inr rfl)
    (isPlain_of_isIdentifier hexport) ?_ hcarry fun ht' c hc => ?_)
  · simpa [hplace, PosixPath.name, inLab] using hname
  · exact (ht'.allowed _ _ ((hfirm.leads ht').lookup_of_stat hc)).1 storage.labId _ hplace

end ExportGate

end LabOS
