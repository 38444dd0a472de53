import LabOS.System.Isolation
import LabOS.System.Releases

/-!
# The directories of a lab

The allocator makes four directories for a lab, one for what its guests write and three for what is kept of
that. Everything else is written below them: only destroying the lab takes them away.

## What is proved

* `area_of_run` — in every run the directories of a lab stand until the lab is destroyed.
* `workspace_of_run` — its workspace in particular.
-/

namespace LabOS

open Exceptional FileOps FileTree ManagedStorageAllocator SnapshotManager

variable {β : Type} [Content β] {env : Environment β}

/-- The directories of a lab. -/
def areas : List String := ["workspace", "exports", "quarantine", "snapshots"]

theorem isPlain_area {x : String} (hx : x ∈ areas) : PosixPath.isPlain x = true := by
  simp only [areas, List.mem_cons, List.not_mem_nil, or_false] at hx
  rcases hx with rfl | rfl | rfl | rfl <;> decide

/-- The directory `workspace` of a lab. -/
abbrev workspaceOf (env : Environment β) (labId : String) : PosixPath := inLab env.root labId ["workspace"]

/-! ### Restoring into a workspace -/

namespace SnapshotManager

variable {may : PosixPath → Entry β → Prop} {p : PosixPath} {d : Disk β}

omit [Content β] in
/-- Clearing a directory changes only what is below it. -/
theorem within_clearDirectory_below (hp : Firm may p) :
    Within (confined may fun q => p <+: q ∧ q ≠ p) (clearDirectory p) d := by
  refine within_of_tidy fun ht => (within_files (within_look _ _)).bind fun names d₁ h₁ _ => ?_
  obtain ⟨⟨q, hq, rfl⟩, rfl⟩ := iterdir_eq_ok (files_eq_ok.mp h₁)
  refine Within.forM (fun _ => True) trivial (fun n hn d _ => ?_) fun _ _ _ _ _ _ _ => trivial
  obtain ⟨e, he⟩ := mem_children.mp hn
  have hplain : PosixPath.isPlain n = true := (ht.tree _ _ _ he).2
  have hbelow : ∀ r, p ++ [n] <+: r → p <+: r ∧ r ≠ p := by
    intro r hr
    refine ⟨(PosixPath.prefix_concat_self p n).trans hr, ?_⟩
    rintro rfl
    exact PosixPath.not_concat_prefix _ n hr
  refine (within_files (within_look _ _)).bind fun directory d₁ _ _ => ?_
  cases directory with
  | true => exact within_files (within_rmtree (fun ht => hp.leads_child ht hplain) hbelow)
  | false => exact within_files (within_unlink (fun ht => hp.leads_child ht hplain) hbelow)

/-- A restore leaves the workspace it fills standing. -/
theorem within_restoreSnapshot_workspace {good : String → β → Prop} {now : ℤ}
    {row : SnapshotRow} {lab : LabRow} {storage : LabStorageRow} (h : isIdentifier storage.labId = true)
    (hlayout : AtLayout env.root storage) (ht : Tidy (Managed env good) d.tree) :
    Within (onTree (standing (workspaceOf env storage.labId)))
      (restoreSnapshot env now row lab storage) d := by
  have hworkspace : storage.workspacePath = workspaceOf env storage.labId := by
    rw [hlayout.2.1, hlayout.1]
  have hfirm : Firm (Managed env good) (workspaceOf env storage.labId) :=
    firm_of_ours (ours_dir h (by decide))
  refine within_restoreSnapshot_of fun _ metadata _ _ _ => ?_
  rw [hworkspace]
  refine Within.bind (within_files within_makeDirs_standing) fun _ d₁ h₁ _ => Within.bind ?_ fun _ d₂ _ _ =>
    within_fillWorkspace_of (fun _ _ _ => within_extractall_standing) fun _ _ _ _ =>
      within_writeThrough_standing
  have hmade : Within (confined (Managed env good) (· <+: workspaceOf env storage.labId))
      (makeDirs (workspaceOf env storage.labId)) d :=
    within_makeDirs hfirm (fun _ hq => hq) fun _ hq => managed_dir hq (.inl (by simp))
  exact standing_of_confined (within_clearDirectory_below hfirm) (hmade.of_ok (files_eq_ok.mp h₁) ht).1
    fun hself => hself.2 rfl

end SnapshotManager

/-! ### Making a lab -/

section Made

variable {s : State β} {labId : String} {x : String}

/-- Directories of a lab that are made one after the other are all there at the end. -/
theorem dirs_of_makeDirs {d d' : Disk β} {xs : List String} {u : Unit} (h : isIdentifier labId = true)
    (hxs : ∀ x ∈ xs, PosixPath.isPlain x = true) (ht : Tidy (Managed env anyContent) d.tree)
    (hall : (xs.forM fun x => files (makeDirs (inLab env.root labId [x]))) d = .ok u d') :
    ∀ x ∈ xs, d'.tree.lookup (inLab env.root labId [x]) = some .dir := by
  induction xs generalizing d with
  | nil => simp
  | cons x xs ih =>
    have hplain := hxs x List.mem_cons_self
    have hfirm : Firm (Managed env anyContent) (inLab env.root labId [x]) := firm_of_ours (ours_dir h hplain)
    obtain ⟨_, d₁, hfirst, hrest⟩ := bind_eq_ok.mp hall
    have hmade := files_eq_ok.mp hfirst
    obtain ⟨ht₁, -, hdir, -⟩ := made_of_makeDirs ht.tree (hfirm.noLink_of_tidy ht) hfirm.plain hmade
    have htidy : Tidy (Managed env anyContent) d₁.tree :=
      ((within_makeDirs (R := (· <+: inLab env.root labId [x])) hfirm (fun _ hq => hq)
        fun _ hq => managed_dir hq (.inl (by simp))).of_ok hmade ht).1
    -- what is made later takes no directory away
    have hstands : Within (onTree (standing (inLab env.root labId [x])))
        (xs.forM fun x => files (makeDirs (inLab env.root labId [x]))) d₁ :=
      Within.forM (fun _ => True) trivial (fun _ _ _ _ => within_files within_makeDirs_standing)
        fun _ _ _ _ _ _ _ => trivial
    intro y hy
    rcases List.mem_cons.mp hy with rfl | hy
    · exact (hstands.of_ok hrest ht₁.rooted).2 hdir
    · exact ih (fun z hz => hxs z (List.mem_cons_of_mem _ hz)) htidy hrest y hy

/-- An allocation that returns leaves the directories of the lab. -/
theorem area_of_allocate {d d' : Disk β} {policy : StoragePolicy} {allocation : StorageAllocation}
    (h : isIdentifier labId = true) (hx : x ∈ areas) (ht : Tidy (Managed env anyContent) d.tree)
    (hallocate : allocate env.root labId policy d = .ok allocation d') :
    d'.tree.lookup (inLab env.root labId [x]) = some .dir := by
  obtain ⟨_, d₂, hall, hreturn⟩ := bind_eq_ok.mp hallocate
  obtain ⟨-, rfl⟩ := pure_eq_ok.mp hreturn
  exact dirs_of_makeDirs h (fun _ => isPlain_area) ht
    (hall : (areas.forM fun x => files (makeDirs (inLab env.root labId [x]))) d = _) x hx

/-- A lab that is made leaves its directories. -/
theorem area_of_createLabRecord {now : ℤ} {profileName : String} {requester : RequesterType} {lab : LabRow}
    {s s' : Session β} (h : App.createLabRecord env now profileName requester s = .ok lab s')
    (hx : x ∈ areas) (ht : Tidy (Managed env anyContent) s.disk.tree) :
    lab.id = env.uuid4 s.minted ∧ s'.disk.tree.lookup (inLab env.root lab.id [x]) = some .dir := by
  obtain ⟨decision, s₁, hdecision, h⟩ := bind_eq_ok.mp h
  obtain ⟨-, rfl⟩ := fromExcept_eq_ok.mp hdecision
  obtain ⟨labId, s₁, hid, h⟩ := bind_eq_ok.mp h
  obtain ⟨rfl, rfl⟩ := newId_eq_ok.mp hid
  obtain ⟨allocation, s₂, hallocated, h⟩ := bind_eq_ok.mp h
  obtain ⟨d, hallocate, rfl⟩ := onDisk_eq_ok.mp hallocated
  have hdir := area_of_allocate (env.uuid4_isIdentifier _) hx ht hallocate
  have htree : IsTree d.tree := ((within_allocate (env.uuid4_isIdentifier _)).of_ok hallocate ht).1.tree
  obtain ⟨_, s₃, hlab, h⟩ := bind_eq_ok.mp h
  obtain ⟨_, s₄, hstorage, h⟩ := bind_eq_ok.mp h
  obtain ⟨_, s₅, hasked, h⟩ := bind_eq_ok.mp h
  obtain ⟨_, s₆, hevent, h⟩ := bind_eq_ok.mp h
  obtain ⟨rfl, rfl⟩ := pure_eq_ok.mp h
  -- what follows the allocation works on the rows alone
  have hasks : Within (touching unchanged)
      (App.requestLabApproval env now (env.uuid4 s.minted) decision requester) s₄ :=
    Within.whenever fun _ => within_recordApprovalRequest.bind fun _ _ _ _ => within_recordEvent _
  have hrows := (touching unchanged).trans ((within_addRow _).of_ok hlab)
    ((touching _).trans ((within_addRow _).of_ok hstorage)
      ((touching _).trans (hasks.of_ok hasked) ((within_recordEvent _).of_ok hevent)))
  refine ⟨rfl, ?_⟩
  rw [show s₆.disk.tree = d.tree from hrows.1.symm]
  exact hdir

/-- A lab that is there after it was made is the one that was made. -/
theorem area_of_made {now : ℤ} {profileName : String} {requester : RequesterType} {lab lab' : LabRow}
    {s s' : Session β} (h : App.createLabRecord env now profileName requester s = .ok lab s')
    (hx : x ∈ areas) (ht : Tidy (Managed env anyContent) s.disk.tree)
    (hnone : s.store.labs.get? labId = none) (hlab : s'.store.labs.get? labId = some lab') :
    s'.disk.tree.lookup (inLab env.root labId [x]) = some .dir := by
  obtain ⟨storage, approvals, -, hstore⟩ := createLabRecord_eq_ok h
  rw [hstore] at hlab
  rcases Table.eq_or_of_get?_put hlab with ⟨rfl, -⟩ | ⟨-, hlab⟩
  · exact (area_of_createLabRecord h hx ht).2
  · rw [hnone] at hlab
    cases hlab

theorem area_of_dispatch {now : ℤ} {row : SchedulerJobRow} {lab' : LabRow} {s s' : Session β}
    (hx : x ∈ areas) (ht : Tidy (Managed env anyContent) s.disk.tree)
    (h : App.dispatchNextSchedulerJob env now s = .ok row s')
    (hnone : s.store.labs.get? labId = none) (hlab : s'.store.labs.get? labId = some lab') :
    s'.disk.tree.lookup (inLab env.root labId [x]) = some .dir := by
  simp [App.dispatchNextSchedulerJob, App.recordDispatch, bind_eq_ok] at h
  obtain ⟨s₁, h, rfl⟩ := h
  obtain ⟨job, outcome, s₂, -, hattempt, rfl, rfl⟩ := runNext_eq_ok.mp h
  rcases attempt_eq_ok.mp hattempt with ⟨result, rfl, haction⟩ | ⟨e, rfl, haction⟩
  · rcases SchedulerService.action_eq_ok (rollingBack_eq_ok.mp haction) with
      ⟨profileName, id, -, -, hcreate, -⟩ | ⟨labId', command, id, -, -, -, hcreate, -⟩
    · simp [App.createJobLab] at hcreate
      obtain ⟨lab, hcreate, -⟩ := hcreate
      have hdir : s₂.disk.tree.lookup (inLab env.root labId [x]) = some .dir :=
        area_of_made hcreate hx ht hnone hlab
      exact hdir
    · simp [App.createJobRun] at hcreate
      obtain ⟨run, hcreate, -⟩ := hcreate
      have hsame : s₂.store.labs.get? labId = none := by
        rw [(createRunRecord_eq_ok hcreate).2]
        exact hnone
      cases hsame.symm.trans hlab
  · have hsame : s₂.store.labs.get? labId = none := by
      rw [store_of_rollingBack_error haction]
      exact hnone
    cases hsame.symm.trans hlab

/-- **A step that makes a lab leaves its directories.** -/
theorem area_of_new {a : Action β} {lab : LabRow} (hx : x ∈ areas) (hs : Healthy env anyContent s)
    (hnone : s.store.labs.get? labId = none) (hlab : (step env s a).store.labs.get? labId = some lab) :
    (step env s a).tree.lookup (inLab env.root labId [x]) = some .dir := by
  cases a with
  | guest id entries => cases hnone.symm.trans hlab
  | request r now fates =>
    rcases lab_of_effect (effect_of_answer env s r now fates) hlab with ⟨lab', hlab'⟩ |
      ⟨profileName, requester, storage, hcreation, -⟩
    · cases hnone.symm.trans hlab'
    · cases r with
      | createLab profileName requester =>
        exact tree_of_block (s := s.session fates)
          (P := fun t => t.lookup (inLab env.root labId [x]) = some .dir) hnone hlab
          fun _ _ hbody hthere => area_of_made hbody hx hs.tidy hnone hthere
      | dispatchNextSchedulerJob =>
        exact tree_of_block (s := s.session fates)
          (P := fun t => t.lookup (inLab env.root labId [x]) = some .dir) hnone hlab
          fun _ _ hbody hthere => area_of_dispatch hx hs.tidy hbody hnone hthere
      | _ => cases hcreation

end Made

/-! ### Keeping them -/

section Kept

variable {s : State β} {labId : String} {x : String}

/-- **No request but one that destroys the lab takes its directories away.** -/
theorem diskWork_area {r : Request β} {now : ℤ} {fates : List Fate} (hs : Healthy env anyContent s)
    (h : r ≠ .destroyLab labId) :
    DiskWork env now (standing (inLab env.root labId [x])) (s.session fates) r := by
  have hstorage : ∀ {id storage}, s.store.labStorage.get? id = some storage →
      AtLayout env.root storage ∧ storage.labId = id ∧ isIdentifier id = true := by
    intro id storage hst
    obtain ⟨hlayout, lab, hlab⟩ := hs.sound.layout _ _ hst
    exact ⟨hlayout, Table.key_of_get? hst, (hs.sound.labs _ _ hlab).isIdentifier⟩
  cases r with
  | reconcile => exact hs.sound.quiet
  | createSecretLease | revokeSecretLease | createRun | enqueueSchedulerJob | approveRequest | denyRequest
  | denyExport => exact trivial
  | createLab | dispatchNextSchedulerJob => exact fun _ => within_allocate_standing
  | destroyLab id =>
    intro lab storage hlab hst alive allocation hallocation
    obtain ⟨hlayout, hid, hidentifier⟩ := hstorage hst
    have hlabId : storage.labId = id := hid.trans (Table.key_of_get? hlab)
    refine standing_of_confined
      (within_destroy (hid ▸ hidentifier) hlayout hallocation) hs.tidy fun hpre => ?_
    have hsame : storage.labId = labId := (inLab_prefix_iff.mp (by simpa [inLab] using hpre : inLab env.root
      storage.labId [] <+: inLab env.root labId [x])).1
    exact h (by rw [← hlabId, hsame])
  | createSnapshot id runId requester => exact fun _ _ _ _ _ => SnapshotManager.within_createSnapshot_standing
  | restoreSnapshot snapshotId id requester =>
    intro snapshot lab storage hsnapshot hlab hst
    obtain ⟨hlayout, hid, hidentifier⟩ := hstorage hst
    by_cases hinto : inLab env.root storage.labId ["workspace"] <+: inLab env.root labId [x]
    · -- the workspace the restore fills is cleared and not removed
      obtain ⟨hlabId, hprefix⟩ := inLab_prefix_iff.mp hinto
      obtain rfl : "workspace" = x := by simpa using hprefix
      exact hlabId ▸ SnapshotManager.within_restoreSnapshot_workspace (hid ▸ hidentifier) hlayout hs.tidy
    · exact SnapshotManager.within_restoreSnapshot_standing (hid ▸ hidentifier) hlayout hs.tidy hinto
  | createExport id sourcePath runId requester => exact fun _ _ _ _ _ =>
      ExportGate.within_stageExport_standing
  | releaseExport exportId => exact fun _ _ _ _ => ExportGate.within_releaseExport_standing

/-- A step that does not destroy the lab leaves its directories standing. -/
theorem area_of_step {a : Action β} (hs : Healthy env anyContent s) (hspared : SparesLab env labId s a)
    (h : s.tree.lookup (inLab env.root labId [x]) = some .dir) :
    (step env s a).tree.lookup (inLab env.root labId [x]) = some .dir := by
  cases a with
  | guest id entries =>
    have hkeeps := keeps_of_step (a := .guest id entries) hs.sound carries_any (brings_any s _) hs.tidy
    rw [hkeeps.2 _ fun hguest => ?_, h]
    -- guests write below the directories
    obtain ⟨y, r, -, hbelow, he⟩ := guestArea_iff.mp hguest
    exact hbelow (List.cons.inj (inLab_inj.mp he).2).2.symm
  | request r now fates =>
    by_cases hdestroys : r = .destroyLab labId
    · subst hdestroys
      rw [lookup_of_spared hspared _ (by simp), h]
    · exact ((within_respond (diskWork_area hs hdestroys)).1 hs.tidy.tree.rooted).2 h

end Kept

/-- **The directories of a lab stand until the lab is destroyed.** -/
theorem area_of_run {s₀ : State β} (h₀ : Initial env s₀) {actions : List (Action β)} {labId x : String}
    {lab : LabRow} (hx : x ∈ areas) (hlab : (runFrom env s₀ actions).store.labs.get? labId = some lab)
    (hspared : Runs.Allowed (step env) (SparesLab env labId) s₀ actions) :
    (runFrom env s₀ actions).tree.lookup (inLab env.root labId [x]) = some .dir := by
  induction actions using List.reverseRecOn generalizing lab with
  | nil =>
    rw [show runFrom env s₀ [] = s₀ from rfl, h₀.store] at hlab
    cases hlab
  | append_singleton actions a ih =>
    have hs := healthy_of_actions h₀ actions
    rw [show runFrom env s₀ (actions ++ [a]) = step env (runFrom env s₀ actions) a from Runs.after_append ..]
      at hlab ⊢
    obtain ⟨hsparedBefore, hsparedStep, -⟩ := Runs.allowed_append.mp hspared
    cases hbefore : (runFrom env s₀ actions).store.labs.get? labId with
    | none => exact area_of_new hx hs hbefore hlab
    | some lab' => exact area_of_step hs hsparedStep (ih hbefore hsparedBefore)

/-- The workspace of a lab does. -/
theorem workspace_of_run {s₀ : State β} (h₀ : Initial env s₀) {actions : List (Action β)} {labId : String}
    {lab : LabRow} (hlab : (runFrom env s₀ actions).store.labs.get? labId = some lab)
    (hspared : Runs.Allowed (step env) (SparesLab env labId) s₀ actions) :
    (runFrom env s₀ actions).tree.lookup (workspaceOf env labId) = some .dir :=
  area_of_run h₀ List.mem_cons_self hlab hspared

end LabOS
