import LabOS.System.Approvals
import LabOS.System.Regions

/-!
# Released artifacts

The artifact of an export is copied twice: into quarantine when it is staged, and from
there to the released area when it is released, maybe more than once, since a copy that a fault of
the disk interrupts is made again by the next request. No other request and no guest writes
to either place, so the bytes that were staged are the bytes that are released.

## What is proved

* `release_integrity` — in every run, a released export of a lab that was not destroyed has at its
  released path the bytes that were put into quarantine when it was staged, of the size
  and with the hash of its row.
-/

namespace LabOS

open Exceptional FileOps FileTree ManagedStorageAllocator

variable {β : Type} [Content β] {env : Environment β}

/-- The step does not destroy the lab: no request to do so succeeds, and one that fails on a faulty disk has
removed nothing of it. -/
def SparesLab (env : Environment β) (labId : String) (s : State β) : Action β → Prop
  | .request (.destroyLab id) now fates => id = labId → ¬ Succeeds env s (.destroyLab id) now fates ∧
    (fates ≠ [] → ∀ p, labRoot env.root labId <+: p →
      (step env s (.request (.destroyLab id) now fates)).tree.lookup p = s.tree.lookup p)
  | _ => True

/-- Where the artifact of an export is released to. -/
abbrev releasedPlace (env : Environment β) (row : ExportRow) : PosixPath :=
  inLab env.root row.labId ["released", row.id, PosixPath.name row.quarantinePath]

/-- The bytes `b` are in quarantine, with the size and the hash of the row, and at the released path once
the export is released. -/
structure Intact (env : Environment β) (s : State β) (b : β) (row : ExportRow) : Prop where
  quarantined : s.tree.lookup row.quarantinePath = some (.file b)
  recorded : row.sizeBytes = env.codec.size b ∧ row.sha256 = env.codec.sha256 b
  released : row.state = .released → row.releasedPath = some (releasedPlace env row) ∧
    s.tree.lookup (releasedPlace env row) = some (.file b)

/-! ### Failed removals -/

omit [Content β] in
/-- On a disk without faults the tree of a lab is removed, or nothing is. -/
theorem destroy_of_faultless {root : PosixPath} {allocation : StorageAllocation} {d : Disk β}
    (hfates : d.fates = []) (h : ¬ Within (onTree unchanged) (destroy root allocation) d) :
    ∃ u d', destroy root allocation d = .ok u d' ∧ d'.fates = [] := by
  by_contra hno
  apply h
  refine Within.bind ((within_files (within_look _ _)).bind fun _ _ _ _ => Within.raiseIf _ _)
    fun _ d₁ h₁ _ =>
    (within_files (within_look _ _)).bind fun there d₂ h₂ _ => Within.whenever fun hthere => within_files ?_
  have hsame : d = d₁ := by
    have hmanaged : Within unchanged (assertManagedPath root allocation.rootPath) d :=
      (within_files (within_look _ _)).bind fun _ _ _ _ => Within.raiseIf _ _
    exact hmanaged.of_ok h₁
  subst hsame
  obtain ⟨-, rfl⟩ := look_eq_ok.mp (files_eq_ok.mp h₂)
  obtain ⟨tree, fates⟩ := d
  obtain rfl : fates = [] := hfates
  cases hop : tree.rmtree allocation.rootPath fun _ => false with
  | some t =>
    have hremoved : FileOps.rmtree allocation.rootPath ⟨tree, []⟩ = .ok () ⟨t, []⟩ := by
      simp [FileOps.rmtree, effect, hop]
    refine absurd ⟨(), ⟨t, []⟩, bind_of_ok h₁ (bind_of_ok h₂ ?_), rfl⟩ hno
    rw [hthere]
    exact files_eq_ok.mpr hremoved
  | none =>
    show tree = (endState (FileOps.rmtree allocation.rootPath ⟨tree, []⟩)).tree
    simp [FileOps.rmtree, effect, hop]

/-- On a disk without faults a request to destroy a lab succeeds, or leaves the tree as it was. -/
theorem tree_of_destroyLab_failed {s : State β} {labId : String} {now : ℤ}
    (h : ¬ Succeeds env s (.destroyLab labId) now []) :
    (step env s (.request (.destroyLab labId) now [])).tree = s.tree := by
  have hwork : DiskWork env now unchanged (s.session []) (.destroyLab labId) := by
    intro lab storage hlab hstorage halive allocation hallocation
    by_contra hnot
    obtain ⟨u, d, hdestroy, hfates⟩ := destroy_of_faultless (d := (s.session []).disk) rfl hnot
    apply h
    have hbody : ∃ row s₁, App.destroyLab env labId (s.session []) = .ok row s₁ ∧ s₁.disk.fates = [] := by
      unfold App.destroyLab
      rw [bind_run_of_ok (getOr_eq_ok.mpr ⟨hlab, rfl⟩), bind_run_of_ok (getOr_eq_ok.mpr ⟨hstorage, rfl⟩),
        bind_run_of_ok (raiseIf_eq_ok (u := ()).mpr ⟨halive, rfl⟩),
        bind_run_of_ok (fromExcept_eq_ok.mpr ⟨hallocation, rfl⟩),
        bind_run_of_ok (onDisk_eq_ok.mpr ⟨d, hdestroy, rfl⟩)]
      exact ⟨_, _, rfl, hfates⟩
    obtain ⟨row, s₁, hbody, hdone⟩ := hbody
    obtain ⟨s', hcommitted⟩ := withSession_of_ok hbody hdone
    exact ⟨_, s', map_eq_ok.mpr ⟨row, hcommitted, rfl⟩⟩
  exact ((within_respond hwork).1 : s.tree = _).symm

/-- A step that does not destroy the lab leaves its tree as it was when it tries to. -/
theorem lookup_of_spared {s : State β} {labId : String} {now : ℤ} {fates : List Fate}
    (h : SparesLab env labId s (.request (.destroyLab labId) now fates)) :
    ∀ p, labRoot env.root labId <+: p →
      (step env s (.request (.destroyLab labId) now fates)).tree.lookup p = s.tree.lookup p := by
  obtain ⟨hfailed, hfaulty⟩ := h rfl
  cases fates with
  | nil =>
    intro p _
    rw [tree_of_destroyLab_failed hfailed]
  | cons fate fates => exact hfaulty (by simp)

/-! ### Staging -/

section Staging

variable {now : ℤ} {labId sourcePath : String} {runId : Option String} {requester : RequesterType}

/-- Asking for an approval changes nothing on the disk. -/
theorem tree_of_requestExportApproval {s s' : Session β} {row : ExportRow} {u : Unit}
    (h : App.requestExportApproval env now row s = .ok u s') : s.disk.tree = s'.disk.tree := by
  have hasked : Within (touching unchanged) (App.requestExportApproval env now row) s :=
    Within.whenever fun _ => within_recordApprovalRequest.bind fun _ _ _ _ => within_recordEvent _
  exact (hasked.of_ok h).1

/-- What a request that stages an export did: the gate's work, and the row. -/
theorem createExport_disk {s s' : Session β} {row : ExportRow}
    (h : App.createExport env now labId sourcePath runId requester s = .ok row s') :
    ∃ lab storage staged d, s.store.labs.get? labId = some lab ∧
      s.store.labStorage.get? labId = some storage ∧
      ExportGate.stageExport env row.id lab storage sourcePath runId s.disk = .ok staged d ∧
        s'.disk.tree = d.tree ∧
      row = App.newExport now row.id lab runId staged ∧ s'.store.exports = s.store.exports.put row := by
  simp [App.createExport, adaptExcept_eq_ok, bind_eq_ok] at h
  obtain ⟨lab, hlab, storage, hstorage, _, _, hrun, staged, d, hstage, hfresh, ⟨_, happroval⟩, rfl⟩ := h
  obtain rfl := checkRun_eq_ok hrun
  obtain ⟨approvals, -, -, hstore⟩ := requestExportApproval_eq_ok happroval
  refine ⟨lab, storage, staged, d, hlab, hstorage, hstage,
    (tree_of_requestExportApproval happroval).symm, rfl, ?_⟩
  rw [hstore]

/-- **A staged export is intact.** -/
theorem intact_of_staging {s : State β} {fates : List Fate} {row : ExportRow} (hs : Healthy env anyContent s)
    (hnew : s.store.exports.get? row.id = none)
    (hrow : (step env s (.request
      (.createExport labId sourcePath runId requester) now fates)).store.exports.get? row.id =
      some row) :
    row.labId = labId ∧
      ∃ b, Intact env (step env s
        (.request (.createExport labId sourcePath runId requester) now fates)) b row := by
  have hhealthy := healthy_of_step
    (a := .request (.createExport labId sourcePath runId requester) now fates) carries_any hs
    (brings_any s _)
  cases hanswer : answer env s (.createExport labId sourcePath runId requester) now fates with
  | error e s' =>
    simp only [step, hanswer, endState_error, Session.state, store_of_block_error hanswer] at hrow
    exact absurd (hnew.symm.trans hrow) (by simp)
  | ok response s' =>
    simp only [step, hanswer, endState_ok, Session.state] at hrow hhealthy ⊢
    obtain ⟨row', hblock, -⟩ := map_eq_ok.mp hanswer
    obtain ⟨s₁, hbody, hstore, htree, -⟩ := withSession_eq_ok hblock
    obtain ⟨lab, storage, staged, d, hlab, hstorage, hstage, htree', hrow', hexports⟩ :=
      createExport_disk hbody
    rw [hstore, hexports] at hrow
    obtain ⟨-, rfl⟩ | ⟨-, hold⟩ := Table.eq_or_of_get?_put hrow
    · have hrowId : row.labId = labId := by
        rw [hrow']
        exact (Table.key_of_get? hlab : lab.id = labId)
      refine ⟨hrowId, ?_⟩
      obtain ⟨-, hstate, -, ⟨name, hplace⟩, b, hb, hsize, hhash⟩ := ExportGate.stageExport_eq_ok hstage
      have hlayout := (hs.sound.layout _ _ hstorage).1
      have hstorageId : storage.labId = labId := Table.key_of_get? hstorage
      have hquarantine : staged.provenance.quarantinePath =
          inLab env.root labId ["quarantine", row.id, name] := by
        rw [hplace, hlayout.2.2.2.1, hlayout.1, hstorageId]
        simp [inLab]
      have hidentifier : isIdentifier labId = true := (hs.sound.labs _ _ hlab).isIdentifier
      have hplain : PosixPath.isPlain row.id = true := isPlain_of_isIdentifier (hhealthy.sound.exports _ _ (by
        rw [hstore, hexports]
        exact Table.get?_put_self _ _)).1.isIdentifier
      rw [htree, htree'] at hhealthy ⊢
      rw [hquarantine] at hb
      have hlook := (ExportGate.lookup_of_stat_artifact hhealthy.tidy hidentifier (.inl rfl) hplain hb).2
      refine ⟨b, ?_, ?_, fun hreleased => ?_⟩
      · rw [hrow']
        show d.tree.lookup staged.provenance.quarantinePath = some (.file b)
        rw [hquarantine]
        exact hlook
      · rw [hrow']
        exact ⟨hsize, hhash⟩
      · rw [hrow'] at hreleased
        exact absurd (hstate.symm.trans hreleased) (by decide)
    · exact absurd (hnew.symm.trans hold) (by simp)

end Staging

/-! ### Releasing -/

section Releasing

variable {now : ℤ} {fates : List Fate} {row row' : ExportRow} {b : β}

/-- What a request that releases an export did: the gate's work, or nothing to any export. -/
theorem releaseExport_disk {exportId : String} {s s' : Session β} {released : Except Exc ExportRow}
    (h : App.releaseExport exportId s = .ok released s') :
    s'.store.exports = s.store.exports ∨ ∃ row storage result, s.store.exports.get? exportId = some row ∧
      s.store.labStorage.get? row.labId = some storage ∧
        ExportGate.releaseExport row storage s.disk = .ok result s'.disk := by
  simp only [App.releaseExport, bind_eq_ok, getOr_eq_ok] at h
  obtain ⟨row, _, ⟨hrow, rfl⟩, storage, _, ⟨hstorage, rfl⟩, outcome, s₁, hattempt, h⟩ := h
  unfold App.finishRelease at h
  rcases attempt_eq_ok.mp hattempt with ⟨result, rfl, hgate⟩ | ⟨e, rfl, hgate⟩
  · obtain ⟨d, hreleased, rfl⟩ := onDisk_eq_ok.mp hgate
    simp [bind_eq_ok] at h
    obtain ⟨rfl, -⟩ := h
    exact .inr ⟨row, storage, result, hrow, hstorage, hreleased⟩
  · have hstore := store_of_onDisk_error hgate
    cases e with
    | exportPolicy message =>
      simp at h
      obtain ⟨rfl, -⟩ := h
      exact .inl (congrArg Store.exports hstore : s₁.store.exports = _)
    | _ => exact absurd h throw_eq_ok

theorem releasedPlace_of_layout {storage : LabStorageRow} (hlayout : AtLayout env.root storage)
    (hof : storage.labId = row.labId) :
    ExportGate.releasedDir storage row.id ++ [PosixPath.name row.quarantinePath] = releasedPlace env row := by
  rw [ExportGate.releasedDir_eq hlayout, hof]
  simp [releasedPlace, inLab]

/-- **What the gate releases is what is in quarantine.** -/
theorem lookup_of_release {storage : LabStorageRow} {result : ExportStageResult}
    {d d' : Disk β} {name : String} (hid : isIdentifier row.labId = true)
    (hexport : isIdentifier row.id = true) (hlayout : AtLayout env.root storage)
    (hof : storage.labId = row.labId)
    (hplace : row.quarantinePath = inLab env.root row.labId ["quarantine", row.id, name])
    (ht : Tidy (Managed env anyContent) d.tree) (hb : d.tree.lookup row.quarantinePath = some (.file b))
    (h : ExportGate.releaseExport row storage d = .ok result d') :
    d'.tree.lookup (releasedPlace env row) = some (.file b) := by
  obtain ⟨-, -, -, -, -, u, d₁, hdirs, hcopy⟩ := ExportGate.releaseExport_eq_ok h
  have hfirm : Firm (Managed env anyContent) (inLab env.root row.labId ["released", row.id]) :=
    firm_of_ours (ExportGate.ours_artifact hid (.inr rfl) (isPlain_of_isIdentifier hexport) (by simp))
  rw [ExportGate.releasedDir_eq hlayout, hof] at hdirs hcopy
  obtain ⟨ht₁, hout⟩ := (within_makeDirs hfirm
    (R := Comparable (inLab env.root row.labId ["released", row.id]))
    (fun q hq => .inr hq) fun q hq => managed_dir hq (.inl (by simp))).of_ok hdirs ht
  have hb₁ : d₁.tree.lookup row.quarantinePath = some (.file b) := by
    rw [hout row.quarantinePath (hplace ▸ ExportGate.not_comparable (by decide))]
    exact hb
  have hname : PosixPath.isPlain (PosixPath.name row.quarantinePath) = true :=
    ht.tree.plain_of_lookup hb _ (PosixPath.name_mem (by simp [hplace, inLab, labRoot]))
  have hfirmPlace : Firm (Managed env anyContent) (releasedPlace env row) :=
    firm_of_ours (ExportGate.ours_artifact hid (.inr rfl) (isPlain_of_isIdentifier hexport)
      (by simpa using hname))
  have hnodir : ¬ Managed env anyContent (releasedPlace env row) .dir :=
    fun hmay => hmay row.labId "released" row.id _ (.inr rfl) rfl
  have hcopied : copy2 row.quarantinePath (releasedPlace env row) d₁ = .ok u d' := by
    simpa [releasedPlace, inLab] using hcopy
  exact lookup_of_copy2 hfirmPlace hnodir ht₁ (ht₁.tree.stat_of_lookup hb₁ (by simp)) hcopied

/-- **A release** puts what is in quarantine at the released path. -/
theorem released_of_step {s : State β} (hs : Healthy env anyContent s)
    (hrow : s.store.exports.get? row.id = some row)
    (hrow' : (step env s (.request (.releaseExport row.id) now fates)).store.exports.get? row.id = some row')
    (unreleased : row.state ≠ .released) (hstate : row'.state = .released)
    (hb : s.tree.lookup row.quarantinePath = some (.file b)) :
    (step env s (.request (.releaseExport row.id) now fates)).tree.lookup (releasedPlace env row) =
      some (.file b) := by
  have hend : step env s (.request (.releaseExport row.id) now fates) =
      (endState (withSession (App.releaseExport row.id) (s.session fates))).state := by
    simp only [step, answer, respond, endState_bind_fromExcept]
  -- an export that has become released is not the one that was there
  have hmoved : s.store.exports.get? row.id ≠ some row' := by
    intro hsame
    obtain rfl := Option.some.inj (hrow.symm.trans hsame)
    exact unreleased hstate
  rw [hend] at hrow' ⊢
  cases hblock : withSession (App.releaseExport row.id) (s.session fates) with
  | error e s' =>
    rw [hblock] at hrow'
    have hstore : s'.store = s.store := store_of_rollingBack_error hblock
    simp only [endState_error, Session.state, hstore] at hrow'
    exact absurd hrow' hmoved
  | ok released s' =>
    rw [hblock] at hrow'
    obtain ⟨s₁, hbody, hstore, htree, -⟩ := withSession_eq_ok hblock
    simp only [endState_ok, Session.state, hstore] at hrow'
    simp only [endState_ok, Session.state, htree]
    rcases releaseExport_disk hbody with hexports | ⟨row₁, storage, result, hrow₁, hstorage, hgate⟩
    · rw [hexports] at hrow'
      exact absurd hrow' hmoved
    · obtain rfl : row = row₁ := Option.some.inj (hrow.symm.trans hrow₁)
      obtain ⟨htaken, ⟨lab, hlab⟩, name, hplace⟩ := hs.sound.exports _ _ hrow
      exact lookup_of_release (hs.sound.labs _ _ hlab).isIdentifier htaken.isIdentifier
        (hs.sound.layout _ _ hstorage).1
        (Table.key_of_get? hstorage) hplace hs.tidy hb hgate

end Releasing

/-! ### Runs -/

section Runs

variable {s : State β} {a : Action β} {row row' : ExportRow} {b : β}

/-- The places of an artifact are as they were, unless its lab is destroyed or it is released. -/
theorem lookup_artifact_of_step {x : String} {q : List String} (hs : Healthy env anyContent s)
    (hrow : s.store.exports.get? row.id = some row) (hspared : SparesLab env row.labId s a)
    (hx : x = "quarantine" ∨ x = "released" ∧ row.state = .released) :
    (step env s a).tree.lookup (inLab env.root row.labId (x :: row.id :: q)) =
      s.tree.lookup (inLab env.root row.labId (x :: row.id :: q)) := by
  by_cases hchanges : Changes env s a (inLab env.root row.labId (x :: row.id :: q))
  · rcases changes_artifact hs.sound hrow (hx.imp_right And.left) hchanges with
      ⟨now, fates, rfl⟩ | ⟨-, hreleased, -, unreleased⟩
    · exact lookup_of_spared hspared _ (List.prefix_append _ _)
    · rcases hx with rfl | ⟨-, hstate⟩
      · exact absurd hreleased (by decide)
      · exact absurd hstate unreleased
  · exact (keeps_of_step hs.sound carries_any (brings_any s a) hs.tidy).2 _ hchanges

/-- What becomes of an intact export when its state is not released. -/
theorem intact_of_unreleased {s' : State β} (h : Intact env s b row)
    (hquarantined : s'.tree.lookup row.quarantinePath = some (.file b))
    (hplace : row'.quarantinePath = row.quarantinePath)
    (hrecord : row'.sizeBytes = row.sizeBytes ∧ row'.sha256 = row.sha256) (hstate : row'.state ≠ .released) :
    Intact env s' b row' where
  quarantined := hplace ▸ hquarantined
  recorded := ⟨hrecord.1.trans h.recorded.1, hrecord.2.trans h.recorded.2⟩
  released hreleased := absurd hreleased hstate

/-- **An intact export stays intact** in a step that does not destroy its lab. -/
theorem intact_of_step (hs : Healthy env anyContent s) (hrow : s.store.exports.get? row.id = some row)
    (hspared : SparesLab env row.labId s a) (h : Intact env s b row) :
    ∃ row', (step env s a).store.exports.get? row.id = some row' ∧ row'.labId = row.labId ∧
      Intact env (step env s a) b row' := by
  obtain ⟨-, -, name, hplace⟩ := hs.sound.exports _ _ hrow
  have hplace : row.quarantinePath = inLab env.root row.labId ["quarantine", row.id, name] := hplace
  have hquarantined : (step env s a).tree.lookup row.quarantinePath = some (.file b) := by
    rw [hplace, lookup_artifact_of_step hs hrow hspared (.inl rfl), ← hplace]
    exact h.quarantined
  have hsame : Intact env (step env s a) b row := by
    refine ⟨hquarantined, h.recorded, fun hstate => ?_⟩
    obtain ⟨hpath, hlook⟩ := h.released hstate
    exact ⟨hpath, (lookup_artifact_of_step hs hrow hspared (.inr ⟨rfl, hstate⟩)).trans hlook⟩
  cases a with
  | guest labId entries => exact ⟨row, hrow, rfl, hsame⟩
  | request r now fates =>
    obtain ⟨row', hrow', hmove⟩ := exportMove_of_effect (effect_of_answer env s r now fates) hrow
    refine ⟨row', hrow', (origin_of_exportMove hmove).1, ?_⟩
    cases hmove with
    | same => exact hsame
    | @decided decision =>
      cases decision <;> exact intact_of_unreleased h hquarantined rfl ⟨rfl, rfl⟩
        (by simp [App.decidedExport])
    | denied => exact intact_of_unreleased h hquarantined rfl ⟨rfl, rfl⟩ (by simp)
    | swept _ swept =>
      rcases swept with rfl | ⟨-, rfl⟩
      · exact hsame
      · exact intact_of_unreleased h hquarantined rfl ⟨rfl, rfl⟩ (by simp [expiredExport])
    | released request hstorage _ unreleased =>
      refine ⟨hquarantined, h.recorded, fun _ => ⟨?_, ?_⟩⟩
      · rw [releasedPlace_of_layout (hs.sound.layout _ _ hstorage).1 (Table.key_of_get? hstorage)]
      · subst request
        exact released_of_step hs hrow hrow' unreleased rfl h.quarantined

/-- An export stays an export of its lab. -/
theorem labId_of_step {id : String} (hrow : s.store.exports.get? id = some row)
    (hrow' : (step env s a).store.exports.get? id = some row') : row'.labId = row.labId := by
  cases a with
  | guest labId entries =>
    obtain rfl := Option.some.inj (hrow.symm.trans hrow')
    rfl
  | request r now fates =>
    obtain ⟨row₁, hrow₁, hmove⟩ := exportMove_of_effect (effect_of_answer env s r now fates) hrow
    obtain rfl := Option.some.inj (hrow₁.symm.trans hrow')
    exact (origin_of_exportMove hmove).1

/-- A request of the run staged the export, and then the bytes `b` were in quarantine. -/
def StagedWith (env : Environment β) (s₀ : State β) (labId exportId : String) (b : β)
    (actions : List (Action β)) : Prop :=
  ∃ past sourcePath runId requester now fates future staged,
    actions = past ++ .request (.createExport labId sourcePath runId requester) now fates :: future ∧
    (runFrom env s₀ past).store.exports.get? exportId = none ∧
    (step env (runFrom env s₀ past)
      (.request (.createExport labId sourcePath runId requester) now fates)).store.exports.get?
        exportId = some staged ∧
    (step env (runFrom env s₀ past)
      (.request (.createExport labId sourcePath runId requester) now fates)).tree.lookup
      staged.quarantinePath = some (.file b)

theorem StagedWith.append_singleton {s₀ : State β} {labId exportId : String} {actions : List (Action β)}
    (h : StagedWith env s₀ labId exportId b actions) :
    StagedWith env s₀ labId exportId b (actions ++ [a]) := by
  obtain ⟨past, sourcePath, runId, requester, now, fates, future, staged, rfl, h⟩ := h
  exact ⟨past, sourcePath, runId, requester, now, fates, future ++ [a], staged, by simp, h⟩

/-- **In every run** each export of a lab that was not destroyed is intact, with the bytes it was staged
with. -/
theorem intact_of_run {s₀ : State β} (h₀ : Initial env s₀) {actions : List (Action β)} {row : ExportRow}
    (hrow : (runFrom env s₀ actions).store.exports.get? row.id = some row)
    (hspared : Runs.Allowed (step env) (SparesLab env row.labId) s₀ actions) :
    ∃ b, StagedWith env s₀ row.labId row.id b actions ∧ Intact env (runFrom env s₀ actions) b row := by
  induction actions using List.reverseRecOn generalizing row with
  | nil =>
    rw [show runFrom env s₀ [] = s₀ from rfl, h₀.store] at hrow
    cases hrow
  | append_singleton actions a ih =>
    have hs := healthy_of_actions h₀ actions
    rw [show runFrom env s₀ (actions ++ [a]) =
      step env (runFrom env s₀ actions) a from Runs.after_append ..] at hrow ⊢
    obtain ⟨hbefore, hstep, -⟩ := Runs.allowed_append.mp hspared
    cases hold : (runFrom env s₀ actions).store.exports.get? row.id with
    | some old =>
      have hid : old.id = row.id := Table.key_of_get? hold
      have hlabId : row.labId = old.labId := labId_of_step hold hrow
      rw [hlabId] at hbefore hstep
      obtain ⟨b, hstaged, hintact⟩ := ih (hid.symm ▸ hold) hbefore
      obtain ⟨row', hrow', -, hintact'⟩ := intact_of_step hs (hid.symm ▸ hold) hstep hintact
      obtain rfl := Option.some.inj (hrow'.symm.trans (hid.symm ▸ hrow))
      exact ⟨b, hlabId ▸ hid ▸ hstaged.append_singleton, hintact'⟩
    | none =>
      cases a with
      | guest labId entries => exact absurd (hold.symm.trans hrow) (by simp)
      | request r now fates =>
        rcases export_of_effect (effect_of_answer env _ r now fates) hrow with
          ⟨old, hsome⟩ | ⟨labId, sourcePath, runId, requester, rfl, -⟩
        · exact absurd (hold.symm.trans hsome) (by simp)
        · obtain ⟨rfl, b, hintact⟩ := intact_of_staging hs hold hrow
          exact ⟨b, ⟨actions, sourcePath, runId, requester, now, fates, [], row, rfl, hold, hrow,
            hintact.quarantined⟩, hintact⟩

/-- The released path of every export is where its artifact is released to. -/
def Placed (env : Environment β) (st : Store) : Prop :=
  ∀ id row, st.exports.get? id = some row → ∀ p, row.releasedPath = some p → p = releasedPlace env row

theorem placed_of_effect {now : ℤ} {r : Request β} {m m' : ℕ} {st st' : Store} (hs : Sound env m st)
    (h : Effect env now r m m' st st') (hst : Placed env st) : Placed env st' := by
  intro id row' hrow' p hp
  rcases export_of_effect h hrow' with ⟨row, hrow⟩ | ⟨_, _, _, _, -, new⟩
  · obtain ⟨row₁, hrow₁, hmove⟩ := exportMove_of_effect h hrow
    obtain rfl := Option.some.inj (hrow₁.symm.trans hrow')
    have hbefore := hst id row hrow
    cases hmove with
    | same => exact hbefore p hp
    | @decided decision => cases decision <;> exact hbefore p hp
    | denied => cases hp
    | swept _ swept => rcases swept with rfl | ⟨-, rfl⟩ <;> exact hbefore p hp
    | released _ hstorage =>
      obtain rfl := Option.some.inj hp
      exact releasedPlace_of_layout (hs.layout _ _ hstorage).1 (Table.key_of_get? hstorage)
  · exact absurd (new.state.2.1.symm.trans hp) (by simp)

theorem placed_of_run {s₀ : State β} (h₀ : Initial env s₀) (actions : List (Action β)) :
    Placed env (runFrom env s₀ actions).store := by
  have hboth : SoundState env (runFrom env s₀ actions) ∧ Placed env (runFrom env s₀ actions).store := by
    refine Runs.after_keeps (I := fun s : State β => SoundState env s ∧ Placed env s.store) (fun s a hs => ?_)
      ⟨sound_of_run h₀ [], ?_⟩
    · refine ⟨sound_of_step hs.1 a, ?_⟩
      cases a with
      | request r now fates => exact placed_of_effect hs.1 (effect_of_answer env s r now fates) hs.2
      | guest labId entries => exact hs.2
    · intro id row hrow
      rw [h₀.store] at hrow
      cases hrow
  exact hboth.2

/-- **Release integrity.** In every run that does not destroy its lab, a released export has at its released
path the bytes that were in quarantine when it was staged, of the size and with the hash of its row. -/
theorem release_integrity (env : Environment β) (s₀ : State β) (h₀ : Initial env s₀)
    (actions : List (Action β)) (row : ExportRow) (hrow : row ∈ (runFrom env s₀ actions).store.exports.rows)
    (hstate : row.state = .released)
    (hspared : Runs.Allowed (step env) (SparesLab env row.labId) s₀ actions) :
    ∃ b released, StagedWith env s₀ row.labId row.id b actions ∧ row.releasedPath = some released ∧
      (runFrom env s₀ actions).tree.lookup released = some (.file b) ∧
      row.sizeBytes = env.codec.size b ∧ row.sha256 = env.codec.sha256 b := by
  obtain ⟨b, hstaged, hintact⟩ := intact_of_run h₀ (Table.get?_of_mem hrow) hspared
  obtain ⟨hpath, hlook⟩ := hintact.released hstate
  exact ⟨b, releasedPlace env row, hstaged, hpath, hlook, hintact.recorded⟩

/-- A safe-dev export is released though its lab's guest has since replaced it, and another lab is
destroyed. -/
def spareRun : List (Action Blob) :=
  exportRun "safe-dev" "aa"
    [.guest "a" [], .request (.createLab "safe-dev" .human) 2 [], .request (.destroyLab "aaa") 2 []]

theorem release_integrity_spareRun :
    ∃ row ∈ (runFrom (symbolic defaultProfiles) emptyState spareRun).store.exports.rows,
      row.state = .released ∧ ∃ b released, row.releasedPath = some released ∧
        (runFrom (symbolic defaultProfiles) emptyState spareRun).tree.lookup released = some (.file b) ∧
        row.sizeBytes = (symbolic defaultProfiles).codec.size b := by
  have hrow : ∃ row ∈ (runFrom (symbolic defaultProfiles) emptyState spareRun).store.exports.rows,
      row.state = .released ∧ row.labId = "a" := by
    decide +kernel
  obtain ⟨row, hrow, hstate, hlabId⟩ := hrow
  have hspared : Runs.Allowed (step (symbolic defaultProfiles))
      (SparesLab (symbolic defaultProfiles) row.labId) emptyState spareRun := by
    rw [hlabId]
    exact ⟨trivial, trivial, trivial, trivial, trivial, fun h => absurd h (by decide), trivial, trivial⟩
  obtain ⟨b, released, -, hpath, hlook, hsize, -⟩ := release_integrity (symbolic defaultProfiles) emptyState
    (initial_emptyState defaultProfiles) spareRun row hrow hstate hspared
  exact ⟨row, hrow, hstate, b, released, hpath, hlook, hsize⟩

end Runs

end LabOS
