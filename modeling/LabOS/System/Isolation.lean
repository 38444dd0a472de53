import LabOS.Library.Standing
import LabOS.System.References
import LabOS.System.Regions

/-!
# Labs kept apart

A request names a lab, or a row of one. Whatever the guests have put into their workspaces and
exports directories, and however the request ends, it leaves the rows of every other lab alone,
and every path outside the root of its own lab, but for the manifest of a snapshot that is
restored.

Of the regions in `Regions` what is left to show concerns the directories above the root of a lab.
Once there is a lab the directory of all labs is there, no program takes it away, and so nothing at
it or above it changes.

## What is proved

* `housed_of_run` — where there is a lab, the directory of all labs is there.
* `lab_isolated` — from every reachable state a request of one lab leaves the others alone.
-/

namespace LabOS

open Exceptional FileOps FileTree ManagedStorageAllocator

variable {β : Type} [Content β] {env : Environment β} {good : String → β → Prop} {d : Disk β} {p : PosixPath}

/-! ### No program takes a directory of ours away -/

namespace ManagedStorageAllocator

omit [Content β] in
theorem within_allocate_standing {root : PosixPath} {labId : String} {policy : StoragePolicy} :
    Within (onTree (standing p)) (allocate root labId policy) d :=
  Within.bind (Within.forM (fun _ => True) trivial (fun _ _ _ _ => within_files within_makeDirs_standing)
    fun _ _ _ _ _ _ _ => trivial) fun _ _ _ _ => Within.pure _

end ManagedStorageAllocator

namespace ExportGate

theorem within_stageExport_standing {exportId : String} {lab : LabRow} {storage : LabStorageRow}
    {sourcePath : String} {runId : Option String} :
    Within (onTree (standing p)) (stageExport env exportId lab storage sourcePath runId) d := by
  refine (Within.fromExcept _).bind fun _ _ _ _ => (Within.raiseIf _ _).bind fun _ _ _ _ =>
    Within.bind ?_ fun _ _ _ _ => (within_files (within_look _ _)).bind fun _ _ _ _ =>
    (within_files (within_look _ _)).bind fun _ _ _ _ => (Within.raiseIf _ _).bind fun _ _ _ _ =>
    (within_files within_makeDirs_standing).bind fun _ _ _ _ =>
    (within_files within_copy2_standing).bind fun _ _ _ _ =>
    (within_files (within_look _ _)).bind fun _ _ _ _ => Within.pure _
  exact (Within.orRaise _ _).bind fun _ _ _ _ => (within_files (within_look _ _)).bind fun _ _ _ _ =>
    (within_files (within_look _ _)).bind fun _ _ _ _ =>
      (Within.raiseIf _ _).bind fun _ _ _ _ => Within.pure _

theorem within_releaseExport_standing {row : ExportRow} {storage : LabStorageRow} :
    Within (onTree (standing p)) (releaseExport row storage) d :=
  (Within.raiseIf _ _).bind fun _ _ _ _ => (Within.raiseIf _ _).bind fun _ _ _ _ =>
    (Within.raiseIf _ _).bind fun _ _ _ _ => (within_files (within_look _ _)).bind fun _ _ _ _ =>
    (within_files (within_look _ _)).bind fun _ _ _ _ => (Within.raiseIf _ _).bind fun _ _ _ _ =>
    (within_files within_makeDirs_standing).bind fun _ _ _ _ =>
    (within_files within_copy2_standing).bind fun _ _ _ _ => Within.pure _

end ExportGate

namespace SnapshotManager

theorem within_createSnapshot_standing {now : ℤ} {sid : String} {lab : LabRow} {storage : LabStorageRow}
    {runId : Option String} :
    Within (onTree (standing p)) (createSnapshot env now sid lab storage runId) d :=
  (Within.raiseIf _ _).bind fun _ _ _ _ => (within_files within_makeDirs_standing).bind fun _ _ _ _ =>
    (within_files within_writeBytes_standing).bind fun _ _ _ _ =>
      (within_files (within_look _ _)).bind fun _ _ _ _ =>
    (within_files within_writeBytes_standing).bind fun _ _ _ _ =>
      (within_files (within_look _ _)).bind fun _ _ _ _ =>
    (within_files within_writeBytes_standing).bind fun _ _ _ _ => Within.pure _

/-- A restore takes away what is in the workspace and no other directory. -/
theorem within_restoreSnapshot_standing {now : ℤ} {row : SnapshotRow} {lab : LabRow} {storage : LabStorageRow}
    (h : isIdentifier storage.labId = true) (hlayout : AtLayout env.root storage)
    (ht : Tidy (Managed env good) d.tree) (hp : ¬ inLab env.root storage.labId ["workspace"] <+: p) :
    Within (onTree (standing p)) (restoreSnapshot env now row lab storage) d := by
  have hworkspace : storage.workspacePath = inLab env.root storage.labId ["workspace"] := by
    rw [hlayout.2.1, hlayout.1]
  have hfirm : Firm (Managed env good) (inLab env.root storage.labId ["workspace"]) :=
    firm_of_ours (ours_dir h (by decide))
  refine within_restoreSnapshot_of fun _ metadata _ _ _ => ?_
  rw [hworkspace]
  refine Within.bind (within_files within_makeDirs_standing) fun _ d₁ h₁ _ => Within.bind ?_ fun _ d₂ _ _ =>
    within_fillWorkspace_of (fun _ _ _ => within_extractall_standing) fun _ _ _ _ =>
      within_writeThrough_standing
  have hmade : Within (confined (Managed env good) (· <+: inLab env.root storage.labId ["workspace"]))
      (makeDirs (inLab env.root storage.labId ["workspace"])) d :=
    within_makeDirs hfirm (fun _ hq => hq) fun _ hq => managed_dir hq (.inl (by simp))
  exact standing_of_confined (within_clearDirectory hfirm fun _ hq => hq)
    (hmade.of_ok (files_eq_ok.mp h₁) ht).1 hp

end SnapshotManager

/-- The directory of all labs. -/
abbrev labsDir (root : PosixPath) : PosixPath := root ++ ["labs"]

theorem not_inLab_prefix_labsDir {root : PosixPath} {labId : String} {q : List String} :
    ¬ inLab root labId q <+: labsDir root := by
  intro h
  have hlen := h.length_le
  simp [inLab, labRoot, labsDir] at hlen

theorem labRoot_eq {root : PosixPath} {labId : String} : labRoot root labId = labsDir root ++ [labId] := by
  simp [labRoot]

/-- **No request takes the directory of all labs away.** -/
theorem diskWork_standing {s : State β} {r : Request β} {now : ℤ} {fates : List Fate}
    (hs : Healthy env good s) : DiskWork env now (standing (labsDir env.root)) (s.session fates) r := by
  have hlab : ∀ {id lab}, s.store.labs.get? id = some lab → isIdentifier id = true :=
    fun hlab => (hs.sound.labs _ _ hlab).isIdentifier
  have hstorage : ∀ {id storage}, s.store.labStorage.get? id = some storage → AtLayout env.root storage ∧
      isIdentifier storage.labId = true := by
    intro id storage hst
    obtain ⟨hlayout, lab, hl⟩ := hs.sound.layout _ _ hst
    have hid : storage.labId = id := Table.key_of_get? hst
    exact ⟨hlayout, hid ▸ hlab hl⟩
  cases r with
  | reconcile => exact hs.sound.quiet
  | createSecretLease | revokeSecretLease | createRun | enqueueSchedulerJob | approveRequest | denyRequest
  | denyExport => exact trivial
  | createLab | dispatchNextSchedulerJob => exact fun _ => within_allocate_standing
  | destroyLab labId =>
    intro lab storage h hst alive allocation hallocation
    obtain ⟨hlayout, hid⟩ := hstorage hst
    refine standing_of_confined (within_destroy hid hlayout hallocation) hs.tidy fun hpre => ?_
    exact not_inLab_prefix_labsDir (q := []) (by simpa [inLab] using hpre)
  | createSnapshot labId runId requester => exact fun _ _ _ _ _ =>
      SnapshotManager.within_createSnapshot_standing
  | restoreSnapshot snapshotId labId requester =>
    intro snapshot lab storage hsnapshot h hst
    obtain ⟨hlayout, hid⟩ := hstorage hst
    exact SnapshotManager.within_restoreSnapshot_standing hid hlayout hs.tidy not_inLab_prefix_labsDir
  | createExport labId sourcePath runId requester => exact fun _ _ _ _ _ =>
      ExportGate.within_stageExport_standing
  | releaseExport exportId => exact fun _ _ _ _ => ExportGate.within_releaseExport_standing

/-! ### Where there is a lab -/

/-- Where there is a lab, the directory of all labs is there. -/
def Housed (env : Environment β) (s : State β) : Prop :=
  ∀ id lab, s.store.labs.get? id = some lab → s.tree.lookup (labsDir env.root) = some .dir

/-- An allocation that returns leaves the directory of all labs. -/
theorem labsDir_of_allocate {labId : String} {policy : StoragePolicy}
    {allocation : StorageAllocation} {d' : Disk β} (h : isIdentifier labId = true)
    (ht : Tidy (Managed env good) d.tree) (hallocate : allocate env.root labId policy d = .ok allocation d') :
    IsTree d'.tree ∧ d'.tree.lookup (labsDir env.root) = some .dir := by
  have hfirm : Firm (Managed env good) (inLab env.root labId ["workspace"]) :=
    firm_of_ours (ours_dir h (by decide))
  have ht' : Tidy (Managed env good) d'.tree := (within_allocate h).of_ok hallocate ht |>.1
  refine ⟨ht'.tree, ?_⟩
  obtain ⟨_, d₂, hall, hreturn⟩ := bind_eq_ok.mp hallocate
  obtain ⟨-, rfl⟩ := pure_eq_ok.mp hreturn
  change (files (makeDirs (labRoot env.root labId ++ ["workspace"])) >>= fun _ =>
    [labRoot env.root labId ++ ["exports"], labRoot env.root labId ++ ["quarantine"],
      labRoot env.root labId ++ ["snapshots"]].forM fun path => files (makeDirs path)) d = _ at hall
  obtain ⟨_, d₁, hworkspace, hrest⟩ := bind_eq_ok.mp hall
  obtain ⟨ht₁, -, hdir, -⟩ := made_of_makeDirs ht.tree (hfirm.noLink_of_tidy ht) hfirm.plain
    (files_eq_ok.mp hworkspace)
  have hlabs : d₁.tree.lookup (labsDir env.root) = some .dir := by
    refine ht₁.dir_of_prefix hdir ⟨[labId, "workspace"], by simp [labRoot]⟩ ?_
    simp [labRoot]
  have hstands : Within (onTree (standing (labsDir env.root)))
      ([labRoot env.root labId ++ ["exports"], labRoot env.root labId ++ ["quarantine"],
        labRoot env.root labId ++ ["snapshots"]].forM fun path => files (makeDirs path)) d₁ :=
    Within.forM (fun _ => True) trivial (fun _ _ _ _ => within_files within_makeDirs_standing)
      fun _ _ _ _ _ _ _ => trivial
  exact (hstands.of_ok hrest ht₁.rooted).2 hlabs

/-- A lab that is made leaves the directory of all labs. -/
theorem labsDir_of_createLabRecord {now : ℤ} {profileName : String} {requester : RequesterType} {lab : LabRow}
    {s s' : Session β} (h : App.createLabRecord env now profileName requester s = .ok lab s')
    (ht : Tidy (Managed env good) s.disk.tree) :
    s'.disk.tree.lookup (labsDir env.root) = some .dir := by
  obtain ⟨decision, s₁, hdecision, h⟩ := bind_eq_ok.mp h
  obtain ⟨-, rfl⟩ := fromExcept_eq_ok.mp hdecision
  obtain ⟨labId, s₁, hid, h⟩ := bind_eq_ok.mp h
  obtain ⟨rfl, rfl⟩ := newId_eq_ok.mp hid
  obtain ⟨allocation, s₂, hallocated, h⟩ := bind_eq_ok.mp h
  obtain ⟨d, hallocate, rfl⟩ := onDisk_eq_ok.mp hallocated
  obtain ⟨htree, hdir⟩ := labsDir_of_allocate (env.uuid4_isIdentifier _) ht hallocate
  -- what follows works on the rows alone
  obtain ⟨_, s₃, hlab, h⟩ := bind_eq_ok.mp h
  obtain ⟨_, s₄, hstorage, h⟩ := bind_eq_ok.mp h
  obtain ⟨_, s₅, hasked, h⟩ := bind_eq_ok.mp h
  obtain ⟨_, s₆, hevent, h⟩ := bind_eq_ok.mp h
  obtain ⟨-, rfl⟩ := pure_eq_ok.mp h
  have hasks : Within (touching (standing (labsDir env.root)))
      (App.requestLabApproval env now (env.uuid4 s.minted) decision requester) s₄ :=
    Within.whenever fun _ => within_recordApprovalRequest.bind fun _ _ _ _ => within_recordEvent _
  have hrows := (touching (standing (labsDir env.root))).trans ((within_addRow _).of_ok hlab)
    ((touching _).trans ((within_addRow _).of_ok hstorage)
      ((touching _).trans (hasks.of_ok hasked) ((within_recordEvent _).of_ok hevent)))
  exact (hrows.1 htree.rooted).2 hdir

/-- A dispatch makes no lab, or leaves the directory of all labs. -/
theorem labsDir_of_dispatch {now : ℤ} {row : SchedulerJobRow} {s s' : Session β}
    (ht : Tidy (Managed env good) s.disk.tree) (h : App.dispatchNextSchedulerJob env now s = .ok row s') :
    s'.store.labs = s.store.labs ∨ s'.disk.tree.lookup (labsDir env.root) = some .dir := by
  simp [App.dispatchNextSchedulerJob, App.recordDispatch, bind_eq_ok] at h
  obtain ⟨s₁, h, rfl⟩ := h
  obtain ⟨job, outcome, s₂, -, hattempt, rfl, rfl⟩ := runNext_eq_ok.mp h
  rcases attempt_eq_ok.mp hattempt with ⟨result, rfl, haction⟩ | ⟨e, rfl, haction⟩
  · rcases SchedulerService.action_eq_ok (rollingBack_eq_ok.mp haction) with
      ⟨profileName, id, -, -, hcreate, -⟩ | ⟨labId, command, id, -, -, -, hcreate, -⟩
    · simp [App.createJobLab] at hcreate
      obtain ⟨lab, hcreate, -⟩ := hcreate
      have hdir : s₂.disk.tree.lookup (labsDir env.root) = some .dir := labsDir_of_createLabRecord hcreate ht
      exact .inr hdir
    · simp [App.createJobRun] at hcreate
      obtain ⟨run, hcreate, -⟩ := hcreate
      have hstore := (createRunRecord_eq_ok hcreate).2
      exact .inl (by rw [hstore])
  · have hstore := store_of_rollingBack_error haction
    exact .inl (by rw [hstore])

omit [Content β] in
/-- A block that leaves a row of a lab that was not there has returned. -/
theorem tree_of_block {α : Type} {f : α → Response} {body : SessionM β α} {s : Session β} {id : String}
    {lab : LabRow} {P : FileTree β → Prop} (hnone : s.store.labs.get? id = none)
    (hlab : (endState ((f <$> withSession body) s)).store.labs.get? id = some lab)
    (h : ∀ a s₁, body s = .ok a s₁ → s₁.store.labs.get? id = some lab → P s₁.disk.tree) :
    P (endState ((f <$> withSession body) s)).disk.tree := by
  rw [endState_map] at hlab ⊢
  cases hblock : withSession body s with
  | ok a s' =>
    rw [hblock] at hlab
    obtain ⟨s₁, hbody, hstore, htree, -⟩ := withSession_eq_ok hblock
    rw [endState_ok, hstore] at hlab
    rw [endState_ok, htree]
    exact h a s₁ hbody hlab
  | error e s' =>
    rw [hblock, endState_error, store_of_rollingBack_error hblock, hnone] at hlab
    cases hlab

/-- A request that makes the first lab leaves the directory of all labs. -/
theorem labsDir_of_answer {s : State β} {r : Request β} {now : ℤ} {fates : List Fate}
    {id : String} {lab : LabRow} (hs : Healthy env good s) (hnone : s.store.labs.get? id = none)
    (hlab : (endState (answer env s r now fates)).store.labs.get? id = some lab) :
    (endState (answer env s r now fates)).disk.tree.lookup (labsDir env.root) = some .dir := by
  rcases lab_of_effect (effect_of_answer env s r now fates) hlab with ⟨lab', hlab'⟩ |
    ⟨profileName, requester, storage, hcreation, -⟩
  · rw [hnone] at hlab'
    cases hlab'
  · cases r with
    | createLab profileName requester =>
      exact tree_of_block (s := s.session fates)
        (P := fun t => t.lookup (labsDir env.root) = some .dir) hnone hlab
        fun _ _ hbody _ => labsDir_of_createLabRecord hbody hs.tidy
    | dispatchNextSchedulerJob =>
      refine tree_of_block (s := s.session fates)
        (P := fun t => t.lookup (labsDir env.root) = some .dir) hnone hlab
        fun _ s₁ hbody hthere => ?_
      rcases labsDir_of_dispatch hs.tidy hbody with hsame | hdir
      · rw [hsame] at hthere
        rw [show s.store.labs.get? id = some lab from hthere] at hnone
        cases hnone
      · exact hdir
    | _ => cases hcreation

/-- **The directory of all labs stays**, once there is a lab. -/
theorem housed_of_step {s : State β} {a : Action β} (hs : Healthy env anyContent s) (h : Housed env s) :
    Housed env (step env s a) := by
  intro id lab' hlab'
  cases a with
  | guest labId entries =>
    have hkeeps := keeps_of_step (a := .guest labId entries) hs.sound carries_any (brings_any s _) hs.tidy
    rw [hkeeps.2 _ fun hguest => ?_, h id lab' hlab']
    obtain ⟨x, r, -, -, he⟩ := guestArea_iff.mp hguest
    exact not_inLab_prefix_labsDir
      (he.symm ▸ List.prefix_rfl : inLab env.root labId (x :: r) <+: labsDir env.root)
  | request r now fates =>
    cases hlab : s.store.labs.get? id with
    | none => exact labsDir_of_answer hs hlab hlab'
    | some lab => exact ((within_respond (diskWork_standing hs)).1 hs.tidy.tree.rooted).2 (h id lab hlab)

/-- **In every reachable state with a lab the directory of all labs is there.** -/
theorem housed_of_run {s₀ : State β} (h₀ : Initial env s₀) (actions : List (Action β)) :
    Housed env (runFrom env s₀ actions) := by
  refine (Runs.after_keeps (I := fun s => Healthy env anyContent s ∧ Housed env s)
    (fun s a hs => ⟨healthy_of_step carries_any hs.1 (brings_any s a), housed_of_step hs.1 hs.2⟩)
    ⟨healthy_of_initial h₀, fun id lab hlab => ?_⟩).2
  rw [h₀.store] at hlab
  cases hlab

/-! ### Requests of a lab -/

/-- The request names the lab, or a row of it. -/
def NamesLab (st : Store) (labId : String) : Request β → Prop
  | .destroyLab id | .createSecretLease id _ _ _ | .createRun id _ _ | .createSnapshot id _ _
  | .restoreSnapshot _ id _ | .createExport id _ _ _ => id = labId
  | .enqueueSchedulerJob request => request.labId = some labId
  | .revokeSecretLease leaseId _ _ => ∃ lease, st.secretLeases.get? leaseId = some lease ∧ lease.labId = labId
  | .approveRequest approvalId _ _ | .denyRequest approvalId _ _ =>
    ∃ a, st.approvals.get? approvalId = some a ∧ a.labId = some labId
  | .releaseExport exportId | .denyExport exportId _ =>
    ∃ row, st.exports.get? exportId = some row ∧ row.labId = labId
  | _ => False

/-- The run a request names, beside a lab. -/
def namedRun : Request β → Option String
  | .createSnapshot _ runId _ | .createExport _ _ runId _ => runId
  | _ => none

/-- The request is addressed to the lab: it names the lab, or a row or a run of it. -/
def Addresses (st : Store) (labId : String) (r : Request β) : Prop :=
  NamesLab st labId r ∨ ∃ runId run, namedRun r = some runId ∧ st.runs.get? runId = some run ∧
    run.labId = labId

/-- The request names a lab and a run that is not of it. -/
def NamesForeignRun (st : Store) : Request β → Prop
  | .createSnapshot id runId _ | .createExport id _ runId _ => runOf st runId id = false
  | _ => False

/-- The snapshot a request restores. -/
def restored (st : Store) : Request β → Option SnapshotRow
  | .restoreSnapshot snapshotId _ _ => st.snapshots.get? snapshotId
  | _ => none

omit [Content β] in
theorem names_of_addresses {st : Store} {labId : String} {r : Request β} (h : Addresses st labId r) :
    NamesLab st labId r ∨ NamesForeignRun st r := by
  rcases h with h | ⟨runId, run, hnamed, hrun, hlab⟩
  · exact .inl h
  cases r with
  | createSnapshot id _ requester | createExport id _ _ requester =>
    obtain rfl : _ = some runId := hnamed
    by_cases hid : id = labId
    · exact .inl hid
    · right
      simp [NamesForeignRun, runOf, hrun, hlab, Ne.symm hid]
  | _ => cases hnamed

/-! ### Rows -/

/-- The rows of a lab are the same. -/
structure SameRows (labId : String) (st st' : Store) : Prop where
  lab : st'.labs.get? labId = st.labs.get? labId
  storage : st'.labStorage.get? labId = st.labStorage.get? labId
  runs : ∀ id (run : RunRow), run.labId = labId → (st'.runs.get? id = some run ↔ st.runs.get? id = some run)
  approvals : ∀ id (a : ApprovalRow), a.labId = some labId →
    (st'.approvals.get? id = some a ↔ st.approvals.get? id = some a)
  exports : ∀ id (row : ExportRow), row.labId = labId →
    (st'.exports.get? id = some row ↔ st.exports.get? id = some row)
  snapshots : ∀ id (row : SnapshotRow), row.labId = labId →
    (st'.snapshots.get? id = some row ↔ st.snapshots.get? id = some row)
  leases : ∀ id (lease : SecretLeaseRow), lease.labId = labId →
    (st'.secretLeases.get? id = some lease ↔ st.secretLeases.get? id = some lease)

theorem SameRows.refl (labId : String) (st : Store) : SameRows labId st st where
  lab := rfl
  storage := rfl
  runs _ _ _ := Iff.rfl
  approvals _ _ _ := Iff.rfl
  exports _ _ _ := Iff.rfl
  snapshots _ _ _ := Iff.rfl
  leases _ _ _ := Iff.rfl

section Rows

variable {now : ℤ} {r : Request β} {m m' : ℕ} {st st' : Store} {labId other : String}

omit [Content β] in
/-- The approval that is decided is of the lab. -/
theorem lab_of_decided {decision : App.Decision} {approvalId actor : String} {comment : Option String}
    {a : ApprovalRow} (decides : Decides now st decision approvalId comment a)
    (hnames : @NamesLab β st labId (decisionRequest decision approvalId actor comment)) :
    a.labId = some labId := by
  have hnames : ∃ a, st.approvals.get? approvalId = some a ∧ a.labId = some labId := by
    cases decision <;> exact hnames
  obtain ⟨a', ha', hof⟩ := hnames
  obtain rfl := Option.some.inj (ha'.symm.trans decides.row)
  exact hof

/-- **A request that names a lab leaves the rows of the others as they are.** -/
theorem sameRows_of_effect (h : Effect env now r m m' st st') (hst : References st) (hst' : References st')
    (hnames : NamesLab st labId r) (hne : labId ≠ other) : SameRows other st st' := by
  have hrefl := SameRows.refl other st
  have hlab : ∀ {id}, id = labId → ¬ id = other := fun hid he => hne (hid.symm.trans he)
  have hlab? : ∀ {id}, id = some labId → ¬ id = some other :=
    fun hid he => hne (Option.some.inj (hid.symm.trans he))
  cases h with
  | labCreated | jobFailed | jobMadeLab | jobMadeRun | reconciled => exact hnames.elim
  | onlyEvents => exact { hrefl with }
  | jobQueued => exact { hrefl with }
  | labDestroyed hrow alive =>
    have hid := (Table.key_of_get? hrow).trans hnames
    exact { hrefl with lab := Table.get?_put_ne (Ne.symm (hlab hid)) }
  | leaseIssued new =>
    have hof := hlab (new.labId.trans hnames)
    exact { hrefl with
      leases := fun id lease hlease => Table.get?_put_iff_of_fresh
        (P := fun lease => lease.labId = other) new.fresh hof hlease }
  | leaseRevoked hrow =>
    obtain ⟨lease, hlease, hof⟩ := hnames
    obtain rfl := Option.some.inj (hlease.symm.trans hrow)
    have hid := Table.key_of_get? hrow
    exact { hrefl with
      leases := fun id lease hlease => Table.get?_put_iff_of_move
        (P := fun lease => lease.labId = other) hrow hid (hlab hof) (hlab hof) hlease }
  | runCreated new =>
    have hof := hlab (new.labId.trans hnames)
    exact { hrefl with
      runs := fun id run hrun => Table.get?_put_iff_of_fresh
        (P := fun run => run.labId = other) new.fresh hof hrun }
  | @labDecided decision approvalId actor comment _ _ _ a lab _ decides type hrow =>
    have hof := lab_of_decided decides hnames
    have hid := Table.key_of_get? hrow
    have hid' := Table.key_of_get? decides.row
    have hsubject : a.resourceId = labId :=
      Option.some.inj (((hst.approvals _ _ decides.row).lab type).symm.trans hof)
    exact { hrefl with
      lab := Table.get?_put_ne (Ne.symm (hlab (hid.trans hsubject)))
      approvals := fun id a ha => Table.get?_put_iff_of_move (P := fun a => a.labId = some other)
        decides.row hid' (hlab? hof) (hlab? hof) ha }
  | @exportDecided decision approvalId actor comment _ _ _ a row _ decides type hrow =>
    have hof := lab_of_decided decides hnames
    have hid := Table.key_of_get? hrow
    have hid' := Table.key_of_get? decides.row
    have hsubject : row.labId = labId :=
      Option.some.inj (((hst.approvals _ _ decides.row).export type hrow).symm.trans hof)
    have hdecided : (App.decidedExport decision comment row).labId = labId := by
      cases decision <;> exact hsubject
    exact { hrefl with
      exports := fun id row hrow' => Table.get?_put_iff_of_move (P := fun row => row.labId = other)
        hrow ((decidedExport_id ..).trans hid) (hlab hsubject) (hlab hdecided) hrow'
      approvals := fun id a ha => Table.get?_put_iff_of_move (P := fun a => a.labId = some other)
        decides.row hid' (hlab? hof) (hlab? hof) ha }
  | @otherDecided decision approvalId actor comment _ _ _ a _ decides =>
    have hof := lab_of_decided decides hnames
    have hid := Table.key_of_get? decides.row
    exact { hrefl with
      approvals := fun id a ha => Table.get?_put_iff_of_move
        (P := fun a => a.labId = some other) decides.row hid (hlab? hof) (hlab? hof) ha }
  | snapshotCreated new =>
    have hof := hlab (new.labId.trans hnames)
    exact { hrefl with
      snapshots := fun id row hrow => Table.get?_put_iff_of_fresh
        (P := fun row => row.labId = other) new.fresh hof hrow }
  | @exportStaged _ _ _ _ _ _ _ row approvals _ new =>
    have hof : row.labId = labId := new.labId.trans hnames
    refine { hrefl with
      exports := fun id row hrow => Table.get?_put_iff_of_fresh
        (P := fun row => row.labId = other) new.fresh (hlab hof) hrow
      approvals := fun id b hb => ?_ }
    cases new.asks with
    | no => exact Iff.rfl
    | yes _ a fresh type resource =>
      refine Table.get?_put_iff_of_fresh (P := fun a => a.labId = some other) fresh ?_ hb
      -- the approval that is asked for is for the export
      have hsubject : (st.exports.put row).get? a.resourceId = some row := by
        rw [resource, Table.get?_put_self]
      have hlabId := (hst'.approvals a.id a (Table.get?_put_self _ _)).export type hsubject
      exact hlab? (hlabId.trans (congrArg some hof))
  | exportReleased hrow =>
    obtain ⟨row, hrow', hof⟩ := hnames
    obtain rfl := Option.some.inj (hrow'.symm.trans hrow)
    have hid := Table.key_of_get? hrow
    exact { hrefl with
      exports := fun id row hrow' => Table.get?_put_iff_of_move
        (P := fun row => row.labId = other) hrow hid (hlab hof) (hlab hof) hrow' }
  | exportDenied hrow =>
    obtain ⟨row, hrow', hof⟩ := hnames
    obtain rfl := Option.some.inj (hrow'.symm.trans hrow)
    have hid := Table.key_of_get? hrow
    exact { hrefl with
      exports := fun id row hrow' => Table.get?_put_iff_of_move
        (P := fun row => row.labId = other) hrow hid (hlab hof) (hlab hof) hrow' }

end Rows

/-! ### A run of another lab -/

section Requests

variable {s : State β} {r : Request β} {now : ℤ} {fates : List Fate} {labId other : String}

omit [Content β] in
theorem checkRun_of_foreign {s s' : Session β} {id : String} {lab : LabRow} {runId : Option String}
    {mismatch : Exc} {u : Unit} (hlab : s.store.labs.get? id = some lab)
    (h : runOf s.store runId id = false) : ¬ App.checkRun runId lab mismatch s = .ok u s' := by
  intro hcheck
  have hid : lab.id = id := Table.key_of_get? hlab
  have hrun := runOf_of_checkRun hcheck
  rw [hid, h] at hrun
  cases hrun

/-- A request that names a run of another lab changes no row. -/
theorem store_of_foreignRun (h : NamesForeignRun s.store r) :
    (endState (answer env s r now fates)).store = s.store := by
  rcases store_of_answer env s r now fates with hstore | ⟨result, s₁, hhandler, -⟩
  · exact hstore
  cases r with
  | createSnapshot id runId requester =>
    obtain ⟨row, hrow, -⟩ := map_eq_ok.mp hhandler
    simp only [App.createSnapshot, bind_eq_ok, getOr_eq_ok] at hrow
    obtain ⟨lab, _, ⟨hlab, rfl⟩, storage, _, ⟨-, rfl⟩, _, _, hcheck, -⟩ := hrow
    exact absurd hcheck (checkRun_of_foreign hlab h)
  | createExport id sourcePath runId requester =>
    obtain ⟨row, hrow, -⟩ := map_eq_ok.mp hhandler
    simp only [App.createExport, bind_eq_ok, getOr_eq_ok] at hrow
    obtain ⟨lab, _, ⟨hlab, rfl⟩, storage, _, ⟨-, rfl⟩, _, _, hcheck, -⟩ := hrow
    exact absurd hcheck (checkRun_of_foreign hlab h)
  | _ => exact h.elim

/-- What answering does is nothing when there is no work. -/
theorem tree_of_idle (hs : Healthy env good s)
    (h : DiskWork env now (keeping (Managed env good) fun _ => False) (s.session fates) r) (p : PosixPath) :
    (endState (answer env s r now fates)).disk.tree.lookup p = s.tree.lookup p :=
  ((within_respond h).1 hs.tidy).2 p id

/-- A request that names a run of another lab changes no path. -/
theorem tree_of_foreignRun (hs : Healthy env good s) (h : NamesForeignRun s.store r) (p : PosixPath) :
    (endState (answer env s r now fates)).disk.tree.lookup p = s.tree.lookup p := by
  refine tree_of_idle hs ?_ p
  cases r with
  | createSnapshot id runId requester | createExport id sourcePath runId requester =>
    intro lab storage _ _ hrun
    rw [show runOf (s.session fates).store runId id = false from h] at hrun
    cases hrun
  | _ => exact h.elim

/-! ### Paths -/

/-- What is above a place of a lab, and not below the root of that lab, is the directory of all labs or
above it. -/
theorem prefix_labsDir {q : List String} (h : Comparable (inLab env.root labId q) p)
    (hout : ¬ labRoot env.root labId <+: p) : p <+: labsDir env.root := by
  have hplace : labRoot env.root labId <+: inLab env.root labId q := List.prefix_append ..
  have habove : p <+: inLab env.root labId q := h.resolve_left fun hbelow => hout (hplace.trans hbelow)
  have hroot : p <+: labsDir env.root ++ [labId] := by
    rw [← labRoot_eq]
    exact (List.prefix_or_prefix_of_prefix habove hplace).resolve_right hout
  rcases List.prefix_concat_iff.mp hroot with rfl | hlabs
  · exact absurd (labRoot_eq ▸ List.prefix_rfl) hout
  · exact hlabs

/-- The manifest of a snapshot is in the directory of its lab. -/
theorem manifestPathFor_of_sound (hs : SoundState env s) {id : String} {row : SnapshotRow}
    (hrow : s.store.snapshots.get? id = some row) :
    SnapshotManager.manifestPathFor row =
      SnapshotManager.manifestPath (inLab env.root row.labId ["snapshots"]) id := by
  obtain rfl : row.id = id := Table.key_of_get? hrow
  obtain ⟨htaken, -, href⟩ := hs.snapshots _ _ hrow
  exact SnapshotManager.manifestPathFor_eq htaken.isIdentifier href

/-- What a request touches outside the root of its lab is a directory that stays. -/
theorem above_of_touches (hs : Healthy env good s) (hhoused : Housed env s)
    (hnames : NamesLab s.store labId r)
    (hmanifest : ∀ snapshot, restored s.store r = some snapshot →
      p ≠ SnapshotManager.manifestPathFor snapshot) (h : Touches env s r p)
        (hout : ¬ labRoot env.root labId <+: p) :
    p <+: labsDir env.root ∧ s.tree.lookup (labsDir env.root) = some .dir := by
  have hlabs : s.tree.lookup (labRoot env.root labId) = some .dir →
      s.tree.lookup (labsDir env.root) = some .dir := by
    intro hdir
    rw [labRoot_eq] at hdir
    exact hs.tidy.tree.dir_of_prefix hdir (List.prefix_append ..) (by simp)
  cases r with
  | destroyLab id =>
    obtain rfl : id = labId := hnames
    exact absurd h.2 hout
  | createSnapshot id runId requester =>
    obtain rfl : id = labId := hnames
    obtain ⟨⟨lab, hlab, -⟩, -, habove | rfl | rfl⟩ := h
    · exact ⟨prefix_labsDir (.inr habove) hout, hhoused _ _ hlab⟩
    · rw [SnapshotManager.archivePath_inLab] at hout
      exact absurd (labRoot_prefix_inLab.mpr rfl) hout
    · rw [SnapshotManager.manifestPath_inLab] at hout
      exact absurd (labRoot_prefix_inLab.mpr rfl) hout
  | restoreSnapshot snapshotId id requester =>
    obtain rfl : id = labId := hnames
    obtain ⟨snapshot, lab, hsnapshot, hlab, -, hcomp | rfl⟩ := h
    · exact ⟨prefix_labsDir hcomp hout, hhoused _ _ hlab⟩
    · exact absurd (manifestPathFor_of_sound hs.sound hsnapshot).symm (hmanifest snapshot hsnapshot)
  | createExport id sourcePath runId requester =>
    obtain rfl : id = labId := hnames
    obtain ⟨hdir, hcomp⟩ := h
    exact ⟨prefix_labsDir hcomp hout, hlabs hdir⟩
  | releaseExport exportId =>
    obtain ⟨row, hrow, hof⟩ := hnames
    obtain ⟨row', hrow', -, hdir, hcomp⟩ := h
    obtain rfl := Option.some.inj (hrow'.symm.trans hrow)
    rw [hof] at hdir hcomp
    exact ⟨prefix_labsDir hcomp hout, hlabs hdir⟩
  | createLab | dispatchNextSchedulerJob => exact hnames.elim
  | _ => exact h.elim

/-- **A request of a lab changes no path outside its root**, but for the manifest of a snapshot that is
restored. -/
theorem tree_of_names (hs : Healthy env anyContent s) (hhoused : Housed env s)
    (hnames : NamesLab s.store labId r)
    (hmanifest : ∀ snapshot, restored s.store r = some snapshot →
      p ≠ SnapshotManager.manifestPathFor snapshot) (hout : ¬ labRoot env.root labId <+: p) :
    (endState (answer env s r now fates)).disk.tree.lookup p = s.tree.lookup p := by
  have hbrings : Brings env anyContent s (.request r now fates) := brings_any s _
  have hkeeps := keeps_of_answer hs.sound carries_any hbrings hs.tidy
  by_cases htouches : Touches env s r p
  · -- the directory was there, and no request takes the directory of all labs away
    obtain ⟨habove, hlabs⟩ := above_of_touches hs hhoused hnames hmanifest htouches hout
    have hwork : DiskWork env now (standing (labsDir env.root)) (s.session fates) r := diskWork_standing hs
    have hlabs' := ((within_respond hwork).1 hs.tidy.tree.rooted).2 hlabs
    have hdir : ∀ {t : FileTree β}, IsTree t → t.lookup (labsDir env.root) = some .dir →
        t.lookup p = some .dir := by
      intro t ht hlabs
      by_cases hp : p = labsDir env.root
      · rw [hp, hlabs]
      · exact ht.dir_of_prefix hlabs habove hp
    rw [hdir hs.tidy.tree hlabs]
    exact hdir hkeeps.1.tree hlabs'
  · exact hkeeps.2 p htouches

/-- A request of a lab that is not there has no work to do. -/
theorem diskWork_of_unknown {G : Frame (FileTree β)} (hst : References s.store)
    (hnames : NamesLab s.store labId r) (hlab : s.store.labs.get? labId = none) :
    DiskWork env now G (s.session fates) r := by
  have hnone : ∀ {lab}, ¬ s.store.labs.get? labId = some lab := by
    intro lab h
    rw [hlab] at h
    cases h
  cases r with
  | createSecretLease | revokeSecretLease | createRun | enqueueSchedulerJob | approveRequest | denyRequest
  | denyExport => exact trivial
  | createLab | dispatchNextSchedulerJob | reconcile => exact hnames.elim
  | destroyLab id | createSnapshot id runId requester | createExport id sourcePath runId requester =>
    obtain rfl : id = labId := hnames
    exact fun _ _ h => absurd h hnone
  | restoreSnapshot snapshotId id requester =>
    obtain rfl : id = labId := hnames
    exact fun _ _ _ _ h => absurd h hnone
  | releaseExport exportId =>
    intro row storage hrow _
    obtain ⟨row', hrow', hof⟩ := hnames
    obtain rfl := Option.some.inj (hrow'.symm.trans hrow)
    obtain ⟨lab, h⟩ := hst.exports _ _ hrow'
    exact absurd (hof ▸ h) hnone

end Requests

/-! ### Isolation -/

/-- What a request leaves alone of a lab: its rows, and what is below its root, but for the manifest of a
snapshot of it that is restored. -/
structure LeavesAlone (other : String) (r : Request β) (s s' : State β) : Prop where
  rows : SameRows other s.store s'.store
  files : ∀ storage, s.store.labStorage.get? other = some storage → ∀ p, storage.rootPath <+: p →
    (∀ snapshot, restored s.store r = some snapshot → snapshot.labId = other →
      p ≠ SnapshotManager.manifestPathFor snapshot) →
    s'.tree.lookup p = s.tree.lookup p

/-- **Labs are isolated.** From every reachable state, whatever its guests have written, a request that is
addressed to a lab, to a row of it or to a run of it leaves every other lab alone, and changes no path
outside the root of its own lab, but for the manifest of a snapshot that is restored, however it ends. -/
theorem lab_isolated (env : Environment β) (s₀ : State β) (h₀ : Initial env s₀) (actions : List (Action β))
    (labId : String) (r : Request β) (now : ℤ) (fates : List Fate)
    (haddressed : Addresses (runFrom env s₀ actions).store labId r) :
    (∀ other, labId ≠ other →
      LeavesAlone other r (runFrom env s₀ actions)
        (step env (runFrom env s₀ actions) (.request r now fates))) ∧
    ∀ p, (∀ storage, (runFrom env s₀ actions).store.labStorage.get? labId = some storage →
        ¬ storage.rootPath <+: p) →
      (∀ snapshot, restored (runFrom env s₀ actions).store r = some snapshot →
        p ≠ SnapshotManager.manifestPathFor snapshot) →
      (step env (runFrom env s₀ actions) (.request r now fates)).tree.lookup p =
        (runFrom env s₀ actions).tree.lookup p := by
  have hs := healthy_of_actions h₀ actions
  have hst := references_of_run h₀ actions
  have hst' : References (step env (runFrom env s₀ actions) (.request r now fates)).store := by
    have h := references_of_run h₀ (actions ++ [.request r now fates])
    rwa [runFrom, Runs.after_append] at h
  have hhoused := housed_of_run h₀ actions
  generalize runFrom env s₀ actions = s at *
  have hrows : ∀ other, labId ≠ other → SameRows other s.store (step env s (.request r now fates)).store := by
    intro other hne
    rcases names_of_addresses haddressed with hnames | hforeign
    · exact sameRows_of_effect (effect_of_answer env s r now fates) hst hst' hnames hne
    · have hstore : (step env s (.request r now fates)).store = s.store := store_of_foreignRun hforeign
      rw [hstore]
      exact .refl other s.store
  have houtside : ∀ p, (∀ storage, s.store.labStorage.get? labId = some storage → ¬ storage.rootPath <+: p) →
      (∀ snapshot, restored s.store r = some snapshot → p ≠ SnapshotManager.manifestPathFor snapshot) →
      (step env s (.request r now fates)).tree.lookup p = s.tree.lookup p := by
    intro p hout hmanifest
    rcases names_of_addresses haddressed with hnames | hforeign
    · cases hlab : s.store.labs.get? labId with
      | none => exact tree_of_idle hs (diskWork_of_unknown hst hnames hlab) p
      | some lab =>
        obtain ⟨storage, hstorage⟩ := hst.storage labId lab hlab
        have hroot := (hs.sound.layout _ _ hstorage).1.1
        rw [show storage.labId = labId from Table.key_of_get? hstorage] at hroot
        exact tree_of_names hs hhoused hnames hmanifest (hroot ▸ hout storage hstorage)
    · exact tree_of_foreignRun hs hforeign p
  refine ⟨fun other hne => ⟨hrows other hne, fun storage hstorage p hp hmanifest => ?_⟩, houtside⟩
  have hroot := (hs.sound.layout _ _ hstorage).1.1
  rw [show storage.labId = other from Table.key_of_get? hstorage] at hroot
  obtain ⟨q, rfl⟩ := hp
  rw [hroot] at hmanifest ⊢
  refine houtside _ (fun own hown hbelow => ?_) fun snapshot hsnapshot => ?_
  · have hroot' := (hs.sound.layout _ _ hown).1.1
    rw [show own.labId = labId from Table.key_of_get? hown] at hroot'
    rw [hroot'] at hbelow
    exact hne (labRoot_prefix_inLab.mp hbelow)
  · intro he
    obtain ⟨id, hid⟩ : ∃ id, s.store.snapshots.get? id = some snapshot := by
      cases r with
      | restoreSnapshot snapshotId => exact ⟨snapshotId, hsnapshot⟩
      | _ => cases hsnapshot
    have hplace := he.trans (manifestPathFor_of_sound hs.sound hid)
    rw [SnapshotManager.manifestPath_inLab] at hplace
    exact hmanifest snapshot hsnapshot (inLab_inj.mp hplace).1.symm he

/-- Two labs, and in the workspace of the first a link to that of the second. -/
def neighbourRun : List (Action Blob) :=
  [.request (.createLab "safe-dev" .human) 0 [],
   .request (.createLab "safe-dev" .human) 1 [],
   .guest "aa" [(["srv", "labs", "aa", "workspace", "notes.txt"], .file (.data "aa" ['x']))],
   .guest "a" [(["srv", "labs", "a", "workspace", "notes"],
     .symlink ["", "srv", "labs", "aa", "workspace"])]]

/-- Destroying the first lab takes the link away and leaves the second lab with its rows and its file. -/
theorem lab_isolated_neighbourRun :
    (step (symbolic defaultProfiles) (runFrom (symbolic defaultProfiles) emptyState neighbourRun)
        (.request (.destroyLab "a") 2 [])).tree.lookup ["srv", "labs", "a", "workspace", "notes"] = none ∧
    ((step (symbolic defaultProfiles) (runFrom (symbolic defaultProfiles) emptyState neighbourRun)
        (.request (.destroyLab "a") 2 [])).tree.lookup
          ["srv", "labs", "aa", "workspace", "notes.txt"]).isSome ∧
    LeavesAlone "aa" (.destroyLab "a") (runFrom (symbolic defaultProfiles) emptyState neighbourRun)
      (step (symbolic defaultProfiles) (runFrom (symbolic defaultProfiles) emptyState neighbourRun)
        (.request (.destroyLab "a") 2 [])) := by
  have hfile : ((runFrom (symbolic defaultProfiles) emptyState neighbourRun).tree.lookup
      ["srv", "labs", "aa", "workspace", "notes.txt"]).isSome = true := by
    decide +kernel
  have hroot : ((runFrom (symbolic defaultProfiles) emptyState neighbourRun).store.labStorage.get? "aa").any
      (fun storage => storage.rootPath = ["srv", "labs", "aa"]) = true := by
    decide +kernel
  obtain ⟨storage, hstorage, hroot⟩ := (Option.any_eq_true ..).mp hroot
  have hroot : storage.rootPath = ["srv", "labs", "aa"] := of_decide_eq_true hroot
  have halone := (lab_isolated (symbolic defaultProfiles) emptyState (initial_emptyState _) neighbourRun "a"
    (.destroyLab "a") 2 [] (.inl rfl)).1 "aa" (by decide)
  refine ⟨by decide +kernel, ?_, halone⟩
  rw [halone.files storage hstorage _ (hroot ▸ ⟨["workspace", "notes.txt"], rfl⟩) (fun _ h => nomatch h)]
  exact hfile

end LabOS
