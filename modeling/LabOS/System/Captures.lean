import LabOS.System.Areas
import LabOS.System.Manifests
import LabOS.System.SnapshotRoundTrip

/-!
# Snapshots over time

A snapshot is restored long after it was made: the guests have written in the meantime, other labs have come
and gone, and the snapshot itself may have been restored before. Its archive is written once; only its manifest
is written again, by each restore, and says the same of where the archive is and of what runtime. So as long as
the lab of the snapshot is not destroyed, a restore finds what was captured.

## What is proved

* `captured_of_run` — the archive of a snapshot, and what its manifest says of it, stay until its lab is
  destroyed.
* `inState_of_run` — until then its manifest says that it is created, or restored.
* `snapshot_kept` — **a snapshot is restored to what it captured, whenever that is**.
-/

namespace LabOS

open Exceptional FileOps FileTree ManagedStorageAllocator SnapshotManager

variable {β : Type} [Content β] {env : Environment β}

/-! ### What a snapshot holds -/

/-- The archive of a snapshot lists `xs`, and its manifest is one of a container and says where that is. -/
structure Captured (env : Environment β) (t : FileTree β) (row : SnapshotRow)
    (xs : List (List String × Entry β)) (metadata : SnapshotMetadata) : Prop where
  described : Described env t row metadata
  container : metadata.runtimeClass = RuntimeClass.container.value
  backendRef : metadata.backendRef = row.backendRef
  archived : t.lookup row.backendRef = some (.file (env.codec.tarGz (xs.map (TarFile.member "workspace"))))

/-- No restore of the snapshot stops while it writes the manifest: it comes to report what it has restored,
whatever becomes of its commit, or leaves the manifest as it was. -/
def SparesManifest (env : Environment β) (row : SnapshotRow) (s : State β) : Action β → Prop
  | .request (.restoreSnapshot id labId requester) now fates =>
    id = row.id →
      (reported env id s (.request (.restoreSnapshot id labId requester) now fates)).isSome = true ∨
      (step env s (.request (.restoreSnapshot id labId requester) now fates)).tree.lookup
        (SnapshotManager.manifestPathFor row) = s.tree.lookup (SnapshotManager.manifestPathFor row)
  | _ => True

section Steps

variable {s : State β} {a : Action β} {row : SnapshotRow} {metadata : SnapshotMetadata} {now : ℤ}
  {labId : String} {runId : Option String} {requester : RequesterType} {fates : List Fate}
  {xs : List (List String × Entry β)}

theorem labId_of_createSnapshot {s s' : Session β}
    (h : App.createSnapshot env now labId runId requester s = .ok row s') : row.labId = labId := by
  simp [App.createSnapshot, adaptExcept_eq_ok, bind_eq_ok] at h
  obtain ⟨lab, hlab, _, -, _, _, -, _, _, -, -, rfl, rfl⟩ := h
  have hid : lab.id = labId := Table.key_of_get? hlab
  exact hid

/-- **A snapshot that is created holds the workspace** of its lab as it is. -/
theorem captured_of_creation {s' : Session β} (hs : Healthy env anyContent s)
    (hdir : s.tree.lookup (workspaceOf env labId) = some .dir)
    (h : answer env s (.createSnapshot labId runId requester) now fates = .ok (.snapshot row) s') :
    row.labId = labId ∧ s'.store.snapshots.get? row.id = some row ∧
      ∃ metadata, Captured env s'.disk.tree row (s.tree.contents (workspaceOf env labId)) metadata := by
  obtain ⟨created, hblock, hrow⟩ := map_eq_ok.mp h
  obtain rfl := Response.snapshot.inj hrow
  obtain ⟨s₁, hbody, hstore, htree, -⟩ := withSession_eq_ok hblock
  obtain ⟨lab, storage, metadata, d, hlab, hstorage, -, hid, hcreated, href, htree₁, hsnapshots⟩ :=
    createSnapshot_disk hbody
  rw [hstore, htree, htree₁, hsnapshots]
  refine ⟨labId_of_createSnapshot hbody, Table.get?_put_self .., metadata, ?_⟩
  obtain ⟨hlayout, -⟩ := hs.sound.layout _ _ hstorage
  have hstorageId : storage.labId = labId := Table.key_of_get? hstorage
  have hlabId : isIdentifier storage.labId = true := hstorageId ▸ (hs.sound.labs _ _ hlab).isIdentifier
  have hsid : isIdentifier created.id = true := hid ▸ env.uuid4_isIdentifier _
  have hworkspace : storage.workspacePath = workspaceOf env labId := by
    rw [hlayout.2.1, hlayout.1, hstorageId]
  have hsnapshotsPath : storage.snapshotsPath = inLab env.root storage.labId ["snapshots"] := by
    rw [hlayout.2.2.2.2, hlayout.1]
  have hfirmArchive : Firm (Managed env anyContent)
      (SnapshotManager.archivePath storage.snapshotsPath created.id) :=
    hsnapshotsPath ▸ SnapshotManager.firm_archivePath hlabId hsid
  have hfirmManifest :
      Firm (Managed env anyContent) (SnapshotManager.manifestPath storage.snapshotsPath created.id) :=
    hsnapshotsPath ▸ SnapshotManager.firm_manifestPath hlabId hsid
  obtain ⟨hcontainer, hbackend, hmanifest, harchived, hwritten⟩ := saved_of_createSnapshot hlabId hsid hlayout
    hs.tidy.tree (by rw [hworkspace]; exact hdir) (hfirmArchive.noLink_of_tidy hs.tidy)
    (hfirmManifest.noLink_of_tidy hs.tidy) hcreated
  have hplace : metadata.manifestPath = SnapshotManager.manifestPathFor created := by
    rw [hmanifest, SnapshotManager.manifestPathFor_eq hsid (href.trans hbackend)]
  exact
    { described := ⟨hplace, hplace ▸ hwritten⟩
      container := hcontainer
      backendRef := href.symm
      archived := by rw [href, harchived, hworkspace]; rfl }

theorem archive_inj {sid sid' : String} (h : sid ++ ".tar.gz" = sid' ++ ".tar.gz") : sid = sid' := by
  have hchars := congrArg String.toList h
  simp only [String.toList_append] at hchars
  exact String.toList_inj.mp (List.append_cancel_right hchars)

/-- **What changes the archive of a snapshot**: its lab is made or destroyed, or it is created. -/
theorem changes_archive {id : String}
    (h : Changes env s a (SnapshotManager.archivePath (inLab env.root labId ["snapshots"]) id)) :
    labId = env.uuid4 s.minted ∨ (∃ now fates, a = .request (.destroyLab labId) now fates) ∨
      id = env.uuid4 s.minted := by
  rw [SnapshotManager.archivePath_inLab] at h
  cases changesLab_of_changes h with
  | written area _ place =>
    obtain ⟨rfl, -⟩ := List.cons.inj place
    exact absurd area (by decide)
  | made _ new => exact .inl new
  | destroyed => exact .inr (.inl ⟨_, _, rfl⟩)
  | archived _ _ _ place =>
    simp only [List.cons_prefix_cons, List.prefix_nil, List.cons.injEq, and_true, true_and] at place
    rcases place with hnil | harchive | hmanifest
    · cases hnil
    · exact .inr (.inr (archive_inj harchive))
    · exact absurd hmanifest (archive_ne_manifest _ _)
  | restored _ _ _ place => simp at place
  | described place =>
    simp only [List.cons.injEq, and_true, true_and] at place
    exact absurd place (archive_ne_manifest _ _)
  | staged _ place => simp at place
  | released _ _ _ _ place => simp at place

/-- **The archive of a snapshot is written once**: no step but one that destroys its lab changes it. -/
theorem lookup_archive_of_step (hs : Healthy env anyContent s)
    (hrow : s.store.snapshots.get? row.id = some row) (hspared : SparesLab env row.labId s a) :
    (step env s a).tree.lookup row.backendRef = s.tree.lookup row.backendRef := by
  obtain ⟨htaken, ⟨lab, hlab, -⟩, href⟩ := hs.sound.snapshots _ _ hrow
  rw [href]
  by_cases hchanges : Changes env s a
      (SnapshotManager.archivePath (inLab env.root row.labId ["snapshots"]) row.id)
  · rcases changes_archive hchanges with hnew | ⟨now, fates, rfl⟩ | hnew
    · exact absurd hnew ((hs.sound.labs _ _ hlab).ne_uuid4 le_rfl)
    · exact lookup_of_spared hspared _
        (SnapshotManager.archivePath_inLab env.root row.labId row.id ▸ List.prefix_append _ _)
    · exact absurd hnew (htaken.ne_uuid4 le_rfl)
  · exact (keeps_of_step hs.sound carries_any (brings_any s a) hs.tidy).2 _ hchanges

theorem snapshot_stays_of_effect {r : Request β} {m m' : ℕ} {st st' : Store} {id : String}
    (h : Effect env now r m m' st st') (hrow : st.snapshots.get? id = some row) :
    st'.snapshots.get? id = some row := by
  cases h with
  | snapshotCreated new => exact Table.get?_put_of_fresh new.fresh hrow
  | reconciled sweeps => exact (addsNone_of_sweeps sweeps).others.2.1 ▸ hrow
  | _ => exact hrow

/-- A snapshot is never deleted. -/
theorem snapshot_stays (env : Environment β) (s : State β) (a : Action β) {id : String}
    (hrow : s.store.snapshots.get? id = some row) : (step env s a).store.snapshots.get? id = some row := by
  cases a with
  | guest labId entries => exact hrow
  | request r now fates => exact snapshot_stays_of_effect (effect_of_answer env s r now fates) hrow

theorem SnapshotManager.state_of_createSnapshot {snapshotId : String} {lab : LabRow} {storage : LabStorageRow}
    {d d' : Disk β} (h : SnapshotManager.createSnapshot env now snapshotId lab storage runId d =
      .ok metadata d') :
    metadata.state = SnapshotState.created.value := by
  unfold SnapshotManager.createSnapshot at h
  simp only [bind_eq_ok, pure_eq_ok] at h
  obtain ⟨_, _, -, _, _, -, _, _, -, _, _, -, _, _, -, _, _, -, _, _, -, rfl, -⟩ := h
  rfl

/-- What a restore reports differs from what its manifest held in the restore alone. -/
theorem restored_eq {now : ℤ} {lab : LabRow} {storage : LabStorageRow} {restored : SnapshotMetadata}
    {d d' : Disk β} (ht : IsTree d.tree) (hdescribed : Described env d.tree row metadata)
    (h : SnapshotManager.restoreSnapshot env now row lab storage d = .ok restored d') :
    restored = { metadata with
      state := "restored", restoredAt := some (.utc now), restoredLabId := some lab.id } := by
  unfold SnapshotManager.restoreSnapshot at h
  rw [bind_run_of_ok (SnapshotManager.loadMetadata_of_described ht hdescribed d.fates)] at h
  obtain ⟨loaded, d₁, hloaded, h⟩ := bind_eq_ok.mp h
  obtain ⟨hsome, rfl⟩ := orRaise_eq_ok.mp hloaded
  obtain rfl := Option.some.inj hsome
  simp only [bind_eq_ok, pure_eq_ok] at h
  obtain ⟨_, _, -, _, _, -, _, _, -, _, _, -, _, _, -, _, _, -, _, _, -, _, _, -, _, _, -, _, _, -, _, _, -,
    _, _, -, _, _, -, rfl, -⟩ := h
  rfl

/-- **What a step does to the manifest of a snapshot**: nothing, or what a restore does that succeeds. -/
theorem manifest_of_step (hs : Healthy env anyContent s) (hrow : s.store.snapshots.get? row.id = some row)
    (hspared : SparesLab env row.labId s a) (hmanifest : SparesManifest env row s a)
    (h : Described env s.tree row metadata) :
    ∃ metadata', Described env (step env s a).tree row metadata' ∧
      (metadata' = metadata ∨ ∃ at' target, metadata' = { metadata with
        state := SnapshotState.restored.value, restoredAt := some at', restoredLabId := some target }) := by
  by_cases hsame : (step env s a).tree.lookup (SnapshotManager.manifestPathFor row) =
      s.tree.lookup (SnapshotManager.manifestPathFor row)
  · exact ⟨metadata, ⟨h.manifestPath, hsame.trans h.written⟩, .inl rfl⟩
  · have hrestore : ∃ target requester now fates,
        a = .request (.restoreSnapshot row.id target requester) now fates := by
      by_contra hother
      exact hsame (lookup_manifest_of_step hs hrow hspared (by simpa using hother))
    obtain ⟨target, requester, now, fates, rfl⟩ := hrestore
    obtain ⟨restored, hreported⟩ := Option.isSome_iff_exists.mp ((hmanifest rfl).resolve_right hsame)
    have hdescribed := described_of_restore hs hrow hreported h
    rw [reported, if_pos rfl] at hreported
    simp only [Option.bind_eq_bind, Option.bind_eq_some_iff] at hreported
    obtain ⟨row', hrow', lab, -, storage, -, hreturned⟩ := hreported
    obtain rfl : row = row' := Option.some.inj (hrow.symm.trans hrow')
    obtain ⟨d', hrestored⟩ := returned_eq_some.mp hreturned
    exact ⟨restored, hdescribed, .inr ⟨_, _, restored_eq hs.tidy.tree h hrestored⟩⟩

/-- **A snapshot keeps what it holds** in a step that does not destroy its lab: its archive as it was written,
its manifest as it was or as a restore has left it. -/
theorem captured_of_step (hs : Healthy env anyContent s) (hrow : s.store.snapshots.get? row.id = some row)
    (hspared : SparesLab env row.labId s a) (hmanifest : SparesManifest env row s a)
    (h : Captured env s.tree row xs metadata) :
    ∃ metadata', Captured env (step env s a).tree row xs metadata' := by
  have harchived : (step env s a).tree.lookup row.backendRef =
      some (.file (env.codec.tarGz (xs.map (TarFile.member "workspace")))) := by
    rw [lookup_archive_of_step hs hrow hspared, h.archived]
  obtain ⟨metadata', hdescribed, rfl | ⟨at', target, rfl⟩⟩ :=
    manifest_of_step hs hrow hspared hmanifest h.described
  · exact ⟨_, ⟨hdescribed, h.container, h.backendRef, harchived⟩⟩
  · exact ⟨_, ⟨hdescribed, h.container, h.backendRef, harchived⟩⟩

/-- **A snapshot keeps what it holds**, over a run that does not destroy its lab. -/
theorem captured_of_run {actions : List (Action β)} (hs : Healthy env anyContent s)
    (hrow : s.store.snapshots.get? row.id = some row)
    (hspared : Runs.Allowed (step env) (SparesLab env row.labId) s actions)
    (hmanifest : Runs.Allowed (step env) (SparesManifest env row) s actions)
    (h : Captured env s.tree row xs metadata) :
    (runFrom env s actions).store.snapshots.get? row.id = some row ∧
      ∃ metadata', Captured env (runFrom env s actions).tree row xs metadata' := by
  induction actions generalizing s metadata with
  | nil => exact ⟨hrow, metadata, h⟩
  | cons a actions ih =>
    obtain ⟨metadata', hstep⟩ := captured_of_step hs hrow hspared.1 hmanifest.1 h
    exact ih (healthy_of_step carries_any hs (brings_any s a)) (snapshot_stays env s a hrow) hspared.2
      hmanifest.2 hstep

/-! ### Its state -/

/-- The manifest of a snapshot gives it a state. -/
def InState (env : Environment β) (t : FileTree β) (row : SnapshotRow) (state : SnapshotState) : Prop :=
  ∃ metadata, Described env t row metadata ∧ metadata.state = state.value

/-- A snapshot that is created is in the state of that. -/
theorem inState_of_creation (hs : Healthy env anyContent s) (hnew : s.store.snapshots.get? row.id = none)
    (hrow : (step env s (.request
      (.createSnapshot labId runId requester) now fates)).store.snapshots.get? row.id = some row) :
    InState env (step env s (.request (.createSnapshot labId runId requester) now fates)).tree
      row .created := by
  obtain ⟨metadata, hreported, hdescribed⟩ := described_of_creation hs hnew hrow
  refine ⟨metadata, hdescribed, ?_⟩
  rw [reported] at hreported
  split at hreported
  · simp only [Option.bind_eq_bind, Option.bind_eq_some_iff] at hreported
    obtain ⟨lab, -, storage, -, hreturned⟩ := hreported
    obtain ⟨d', hcreated⟩ := returned_eq_some.mp hreturned
    exact SnapshotManager.state_of_createSnapshot hcreated
  · cases hreported

/-- A step leaves a snapshot in its state, or restores it. -/
theorem inState_of_step {state : SnapshotState} (hs : Healthy env anyContent s)
    (hrow : s.store.snapshots.get? row.id = some row) (hspared : SparesLab env row.labId s a)
    (hmanifest : SparesManifest env row s a) (h : InState env s.tree row state) :
    InState env (step env s a).tree row state ∨ InState env (step env s a).tree row .restored := by
  obtain ⟨metadata, hdescribed, hstate⟩ := h
  obtain ⟨metadata', hdescribed', rfl | ⟨at', target, rfl⟩⟩ :=
    manifest_of_step hs hrow hspared hmanifest hdescribed
  · exact .inl ⟨_, hdescribed', hstate⟩
  · exact .inr ⟨_, hdescribed', rfl⟩

end Steps

/-! ### A restore, later -/

omit [Content β] in
/-- A directory that is there is not made again. -/
theorem withDirs_of_dir {t : FileTree β} {p : PosixPath} (ht : IsTree t)
    (h : t.lookup p = some .dir) : t.withDirs p = t := by
  induction p using List.reverseRecOn with
  | nil => rfl
  | append_singleton p n ih =>
    have hp : t.lookup p = some .dir :=
      ht.dir_of_prefix h (PosixPath.prefix_concat_self p n) fun heq =>
        PosixPath.not_concat_prefix p n ⟨[], by simp [← heq]⟩
    rw [withDirs_concat, ih hp, h]
    rfl

namespace SnapshotManager

variable {d : Disk β}

omit [Content β] in
theorem within_clearDirectory_faultless (p : PosixPath) : Within faultless (clearDirectory p) d := by
  refine (within_files (within_look _ _)).bind fun names _ _ _ =>
    Within.forM (fun _ => True) trivial (fun n _ d _ => ?_) fun _ _ _ _ _ _ _ => trivial
  refine (within_files (within_look _ _)).bind fun directory d₁ _ _ => ?_
  cases directory with
  | true => exact within_files (within_effect_faultless _ _ _)
  | false => exact within_files (within_effect_faultless _ _ _)

/-- A restore brings no fault to a disk. -/
theorem within_restoreSnapshot_faultless {now : ℤ} {row : SnapshotRow} {lab : LabRow}
    {storage : LabStorageRow} {L : PosixPath} (hworkspace : storage.workspacePath = L ++ ["workspace"]) :
    Within faultless (restoreSnapshot env now row lab storage) d := by
  refine within_restoreSnapshot_of fun _ metadata _ _ _ => ?_
  rw [hworkspace]
  exact (within_files (within_makeDirs_of fun _ _ _ => within_effect_faultless _ _ _)).bind fun _ _ _ _ =>
    (within_clearDirectory_faultless _).bind fun _ _ _ _ =>
      within_fillWorkspace_of within_extractall_faultless fun _ _ _ _ => within_effect_faultless _ _ _

end SnapshotManager

/-- The workspace of a lab can be cleared, and a listing then passes the filter there. -/
structure Admits (env : Environment β) (t : FileTree β) (labId : String) (xs : List (List String × Entry β)) :
    Prop where
  clearable : Clearable t (workspaceOf env labId) (t.children (workspaceOf env labId))
  passes : TarFile.AllPass (emptied t (workspaceOf env labId)) (labRoot env.root labId) "workspace" [] xs

section Restored

variable {s : State β} {row : SnapshotRow} {metadata : SnapshotMetadata} {target : LabRow}
  {xs : List (List String × Entry β)}

section Answered

variable {now : ℤ} {requester : RequesterType} {storage : LabStorageRow} {d : Disk β}

/-- A restore the manager has made is committed where no fault of the disk is left. -/
theorem answer_of_restored {restored : SnapshotMetadata} (hrow : s.store.snapshots.get? row.id = some row)
    (htarget : s.store.labs.get? target.id = some target)
    (hstorage : s.store.labStorage.get? target.id = some storage)
    (h : SnapshotManager.restoreSnapshot env now row target storage ⟨s.tree, []⟩ = .ok restored d)
    (hfates : d.fates = []) :
    Succeeds env s (.restoreSnapshot row.id target.id requester) now [] ∧
      (step env s (.request (.restoreSnapshot row.id target.id requester) now [])).tree = d.tree := by
  have hbody : ∃ s', App.restoreSnapshot env now row.id target.id requester (s.session []) = .ok row s' ∧
      s'.disk = d := by
    simp [App.restoreSnapshot, adaptExcept_eq_ok, bind_eq_ok]
    exact ⟨hrow, target, htarget, storage, hstorage, restored, h⟩
  obtain ⟨s₁, hbody, rfl⟩ := hbody
  obtain ⟨s', hblock⟩ := withSession_of_ok hbody hfates
  have hanswer : answer env s (.restoreSnapshot row.id target.id requester) now [] =
      .ok (.snapshot row) s' :=
    map_eq_ok.mpr ⟨row, hblock, rfl⟩
  obtain ⟨s₂, hbody', -, htree, -⟩ := withSession_eq_ok hblock
  obtain rfl := (EStateM.Result.ok.inj (hbody.symm.trans hbody')).2
  refine ⟨⟨_, _, hanswer⟩, ?_⟩
  simp only [step, hanswer, endState_ok, Session.state]
  exact htree

/-- A restore the manager refuses fails. -/
theorem not_succeeds_of_raised {e : Exc} {fates : List Fate}
    (hrow : s.store.snapshots.get? row.id = some row)
    (htarget : s.store.labs.get? target.id = some target)
    (hstorage : s.store.labStorage.get? target.id = some storage)
    (h : SnapshotManager.restoreSnapshot env now row target storage ⟨s.tree, fates⟩ = .error e d) :
    ¬ Succeeds env s (.restoreSnapshot row.id target.id requester) now fates := by
  rintro ⟨response, s', hanswer⟩
  obtain ⟨row', hblock, -⟩ := map_eq_ok.mp hanswer
  obtain ⟨s₁, hbody, -⟩ := withSession_eq_ok hblock
  obtain ⟨lab, storage', restored, d', hrow', hlab, hstorage', hrestored, -⟩ := restoreSnapshot_disk hbody
  obtain rfl : row = row' := Option.some.inj (hrow.symm.trans hrow')
  obtain rfl : target = lab := Option.some.inj (htarget.symm.trans hlab)
  obtain rfl : storage = storage' := Option.some.inj (hstorage.symm.trans hstorage')
  cases h.symm.trans hrestored

end Answered

/-- **What a snapshot holds is put back** on request into the workspace of a container lab, where that admits
it; otherwise the request fails. -/
theorem restores_of_captured (now : ℤ) (requester : RequesterType) (hs : Healthy env anyContent s)
    (hrow : s.store.snapshots.get? row.id = some row) (h : Captured env s.tree row xs metadata)
    (hxs : Listed xs) (hnames : ∀ x ∈ xs, ∀ n ∈ x.1, PosixPath.isPlain n = true)
    (htarget : s.store.labs.get? target.id = some target) (hcontainer : target.runtimeClass = .container)
    (hdir : s.tree.lookup (workspaceOf env target.id) = some .dir) :
    (Admits env s.tree target.id xs ∧
      Succeeds env s (.restoreSnapshot row.id target.id requester) now [] ∧
        ∀ r, (step env s (.request (.restoreSnapshot row.id target.id requester) now [])).tree.lookup
            (workspaceOf env target.id ++ r) =
          ((emptied s.tree (workspaceOf env target.id)).putBack (workspaceOf env target.id)
            (normalised xs)).lookup (workspaceOf env target.id ++ r)) ∨
    (¬ Admits env s.tree target.id xs ∧
      ¬ Succeeds env s (.restoreSnapshot row.id target.id requester) now []) := by
  obtain ⟨storage, hstorage⟩ := hs.sound.stored _ _ htarget
  obtain ⟨hlayout, -⟩ := hs.sound.layout _ _ hstorage
  have hstorageId : storage.labId = target.id := Table.key_of_get? hstorage
  have hidentifier := (hs.sound.labs _ _ htarget).isIdentifier
  have hworkspace : storage.workspacePath = labRoot env.root target.id ++ ["workspace"] := by
    rw [hlayout.2.1, hlayout.1, hstorageId]
  obtain ⟨htaken, ⟨source, hsource, -⟩, href⟩ := hs.sound.snapshots _ _ hrow
  have hsourceId := (hs.sound.labs _ _ hsource).isIdentifier
  have ht := hs.tidy.tree
  have hwritten : s.tree.lookup metadata.manifestPath = some (.file (env.codec.dumps metadata.toDict)) :=
    h.described.manifestPath ▸ h.described.written
  have hbackendApart : ¬ Comparable (labRoot env.root target.id ++ ["workspace"]) metadata.backendRef := by
    rw [h.backendRef, href, SnapshotManager.archivePath_inLab]
    simp
  have hmanifestApart : ¬ Comparable (labRoot env.root target.id ++ ["workspace"]) metadata.manifestPath := by
    rw [h.described.manifestPath, manifestPathFor_of_sound hs.sound hrow, SnapshotManager.manifestPath_inLab]
    simp
  have hvalue : target.runtimeClass.value = RuntimeClass.container.value := by rw [hcontainer]
  have hrestored := restore_of_listing now hworkspace (plain_inLab hidentifier (by decide)) ht
    (ht.open_of_dir hdir) hxs hnames (h.backendRef ▸ h.archived) hwritten hbackendApart hmanifestApart
    (ht.stat_of_lookup h.described.written (by simp)) (parseManifest_dumps env metadata) h.container hvalue
  rw [withDirs_of_dir ht hdir] at hrestored
  rcases hrestored with ⟨hboth, restored, d, hrestored, hlook⟩ | ⟨hnot, e, d, hraises⟩
  · have hfates : d.fates = [] :=
      (SnapshotManager.within_restoreSnapshot_faultless hworkspace).of_ok hrestored rfl
    obtain ⟨hsucceeds, htree⟩ := answer_of_restored hrow htarget hstorage hrestored hfates
    exact .inl ⟨⟨hboth.1, hboth.2⟩, hsucceeds, fun r => htree ▸ hlook r⟩
  · exact .inr ⟨fun hadmits => hnot ⟨hadmits.clearable, hadmits.passes⟩,
      not_succeeds_of_raised hrow htarget hstorage hraises⟩

end Restored

/-! ### Runs -/

/-- **In every run** a snapshot is created or restored, where its lab is not destroyed and none of its
restores stops while it writes the manifest. -/
theorem inState_of_run {s₀ : State β} (h₀ : Initial env s₀) {actions : List (Action β)} {row : SnapshotRow}
    (hrow : (runFrom env s₀ actions).store.snapshots.get? row.id = some row)
    (hspared : Runs.Allowed (step env) (SparesLab env row.labId) s₀ actions)
    (hmanifest : Runs.Allowed (step env) (SparesManifest env row) s₀ actions) :
    InState env (runFrom env s₀ actions).tree row .created ∨
      InState env (runFrom env s₀ actions).tree row .restored := by
  induction actions using List.reverseRecOn with
  | nil =>
    rw [show runFrom env s₀ [] = s₀ from rfl, h₀.store] at hrow
    cases hrow
  | append_singleton actions a ih =>
    have hs := healthy_of_actions h₀ actions
    rw [show runFrom env s₀ (actions ++ [a]) = step env (runFrom env s₀ actions) a from Runs.after_append ..]
      at hrow ⊢
    obtain ⟨hsparedBefore, hsparedStep, -⟩ := Runs.allowed_append.mp hspared
    obtain ⟨hmanifestBefore, hmanifestStep, -⟩ := Runs.allowed_append.mp hmanifest
    rcases snapshot_of_step hrow with hold | ⟨hnew, labId, runId, requester, now, fates, rfl⟩
    · rcases ih hold hsparedBefore hmanifestBefore with hcreated | hrestored
      · exact inState_of_step hs hold hsparedStep hmanifestStep hcreated
      · exact .inr ((inState_of_step hs hold hsparedStep hmanifestStep hrestored).elim id id)
    · exact .inl (inState_of_creation hs hnew hrow)

/-- A snapshot is made in the middle of a run. -/
abbrev captureRun (before after : List (Action β)) (labId : String) (runId : Option String)
    (requester : RequesterType) (now : ℤ) (fates : List Fate) : List (Action β) :=
  before ++ .request (.createSnapshot labId runId requester) now fates :: after

/-- At the end of such a run the snapshot holds what its lab held when it was made. -/
theorem captured_of_captureRun {s₀ : State β} (h₀ : Initial env s₀) {before after : List (Action β)}
    {labId : String} {runId : Option String} {requester : RequesterType} {now : ℤ} {fates : List Fate}
    {row : SnapshotRow} {created : Session β}
    (hcreated : answer env (runFrom env s₀ before) (.createSnapshot labId runId requester) now fates =
      .ok (.snapshot row) created)
    (hdir : (runFrom env s₀ before).tree.lookup (workspaceOf env labId) = some .dir)
    (hspared : Runs.Allowed (step env) (SparesLab env labId) s₀
      (captureRun before after labId runId requester now fates))
    (hmanifest : Runs.Allowed (step env) (SparesManifest env row) s₀
      (captureRun before after labId runId requester now fates)) :
    (runFrom env s₀ (captureRun before after labId runId requester now fates)).store.snapshots.get? row.id =
      some row ∧
    ∃ metadata, Captured env
      (runFrom env s₀ (captureRun before after labId runId requester now fates)).tree row
      ((runFrom env s₀ before).tree.contents (workspaceOf env labId)) metadata := by
  have hs := healthy_of_actions h₀ before
  obtain ⟨hsource, hrow, metadata, hcaptured⟩ := captured_of_creation hs hdir hcreated
  have hstep : step env (runFrom env s₀ before) (.request (.createSnapshot labId runId requester) now fates) =
      created.state := by
    rw [step, hcreated, endState_ok]
  have hrun : runFrom env s₀ (captureRun before after labId runId requester now fates) =
      runFrom env created.state after := by
    rw [← hstep]
    exact Runs.after_append s₀ before (_ :: after)
  have hcut := (Runs.allowed_append.mp hspared).2.2
  have hcut' := (Runs.allowed_append.mp hmanifest).2.2
  have hcreatedHealthy : Healthy env anyContent created.state :=
    hstep ▸ healthy_of_step carries_any hs (brings_any _ _)
  have hsparedAfter : Runs.Allowed (step env) (SparesLab env row.labId) created.state after :=
    hsource ▸ hstep ▸ hcut
  rw [hrun]
  exact captured_of_run hcreatedHealthy hrow hsparedAfter (hstep ▸ hcut') hcaptured

/-- **A snapshot is restored to what it captured, whenever that is.** In every run in which a snapshot is made,
whatever is asked for and whatever the guests write before and after, restoring it at the end into a container
lab succeeds exactly when the workspace of that lab can be cleared and what was captured passes the filter;
and the workspace then is what that of the source was when the snapshot was made, with the targets of its links
in normal form: the very same exactly where they were so before. Neither lab is destroyed in the run, and no
restore of the snapshot stops while it writes the manifest. -/
theorem snapshot_kept (env : Environment β) (s₀ : State β) (h₀ : Initial env s₀)
    (before after : List (Action β)) (labId : String) (runId : Option String)
    (requester requester' : RequesterType) (now now' : ℤ) (fates : List Fate) (row : SnapshotRow)
    (created : Session β) (target : LabRow) (s s' : State β) (hbefore : runFrom env s₀ before = s)
    (hafter : runFrom env s₀ (captureRun before after labId runId requester now fates) = s')
    (hcreated : answer env s (.createSnapshot labId runId requester) now fates = .ok (.snapshot row) created)
    (hspared : ∀ id ∈ [labId, target.id], Runs.Allowed (step env) (SparesLab env id) s₀
      (captureRun before after labId runId requester now fates))
    (hmanifest : Runs.Allowed (step env) (SparesManifest env row) s₀
      (captureRun before after labId runId requester now fates))
    (htarget : s'.store.labs.get? target.id = some target) (hcontainer : target.runtimeClass = .container) :
    (Succeeds env s' (.restoreSnapshot row.id target.id requester') now' [] ↔
      Admits env s'.tree target.id (s.tree.contents (workspaceOf env labId))) ∧
    (Succeeds env s' (.restoreSnapshot row.id target.id requester') now' [] →
      (∀ r, (step env s' (.request (.restoreSnapshot row.id target.id requester') now' [])).tree.lookup
          (workspaceOf env target.id ++ r) =
        (s.tree.lookup (workspaceOf env labId ++ r)).map Entry.normal) ∧
      ((∀ r, (step env s' (.request (.restoreSnapshot row.id target.id requester') now' [])).tree.lookup
          (workspaceOf env target.id ++ r) =
        s.tree.lookup (workspaceOf env labId ++ r)) ↔
          Normal (s.tree.contents (workspaceOf env labId)))) := by
  subst hbefore
  have hs := healthy_of_actions h₀ before
  have hs' := healthy_of_actions h₀ (captureRun before after labId runId requester now fates)
  rw [hafter] at hs'
  -- the workspaces of both labs stand
  obtain ⟨created', hblock, -⟩ := map_eq_ok.mp hcreated
  obtain ⟨s₁, hbody, -⟩ := withSession_eq_ok hblock
  obtain ⟨lab, storage, -, -, hlab, -⟩ := createSnapshot_disk hbody
  have hdir : (runFrom env s₀ before).tree.lookup (workspaceOf env labId) = some .dir :=
    workspace_of_run h₀ hlab (Runs.allowed_append.mp (hspared labId (by simp))).1
  have hdir' : s'.tree.lookup (workspaceOf env target.id) = some .dir :=
    hafter ▸ workspace_of_run h₀ (hafter ▸ htarget) (hspared target.id (by simp))
  -- the snapshot holds what it held
  obtain ⟨hrow, metadata, hcaptured⟩ :=
    captured_of_captureRun h₀ hcreated hdir (hspared labId (by simp)) hmanifest
  rw [hafter] at hrow hcaptured
  have hlisted : Listed ((runFrom env s₀ before).tree.contents (workspaceOf env labId)) :=
    listed_contents hs.tidy.tree (by simp) hdir
  have hnames : ∀ x ∈ (runFrom env s₀ before).tree.contents (workspaceOf env labId), ∀ n ∈ x.1,
      PosixPath.isPlain n = true := fun x hx n hn =>
    hs.tidy.tree.plain_of_lookup ((mem_contents (by simp)).mp hx) n (List.mem_append_right _ hn)
  have hplain : ∀ n ∈ workspaceOf env target.id, PosixPath.isPlain n = true :=
    plain_inLab (hs'.sound.labs _ _ htarget).isIdentifier (by decide)
  rcases restores_of_captured now' requester' hs' hrow hcaptured hlisted hnames htarget hcontainer hdir' with
    ⟨hboth, hsucceeds, hlook⟩ | ⟨hnot, hfails⟩
  · have hempty := (emptied_withDirs hs'.tidy.tree hplain (hs'.tidy.tree.open_of_dir hdir')).2.1
    rw [withDirs_of_dir hs'.tidy.tree hdir'] at hempty
    refine ⟨iff_of_true hsucceeds hboth, fun _ => ⟨fun r => ?_, ?_⟩⟩
    · rw [hlook r]
      exact lookup_putBack_contents (by simp) hdir hempty r
    · simp only [hlook]
      exact same_putBack_contents_iff (by simp) hdir hempty
  · exact ⟨iff_of_false hfails hnot, fun hsucceeds => absurd hsucceeds hfails⟩

/-- A guest writes a text. -/
def notesRun : List (Action Blob) :=
  [.request (.createLab "safe-dev" .human) 0 [],
   .guest "a" [(["srv", "labs", "a", "workspace", "notes.txt"], .file (.data "a" ['x']))]]

/-- What it has written is restored into another lab, and is then gone from its own. -/
def goneRun : List (Action Blob) :=
  [.request (.createLab "safe-dev" .human) 2 [],
   .request (.restoreSnapshot "aa" "aaa" .human) 3 [],
   .guest "a" [(["srv", "labs", "a", "workspace", "src"], .dir)]]

/-- The text is there again when the snapshot is restored into the lab it is of. -/
theorem snapshot_kept_goneRun :
    let env := symbolic defaultProfiles
    let s := runFrom env emptyState notesRun
    let s' := runFrom env emptyState (captureRun notesRun goneRun "a" none .human 1 [])
    s'.tree.lookup ["srv", "labs", "a", "workspace", "notes.txt"] = none ∧
      Admits env s'.tree "a" (s.tree.contents (workspaceOf env "a")) ∧
      (∀ r, (step env s' (.request (.restoreSnapshot "aa" "a" .human) 4 [])).tree.lookup
        (workspaceOf env "a" ++ r) =
        (s.tree.lookup (workspaceOf env "a" ++ r)).map Entry.normal) ∧
      ((∀ r, (step env s' (.request (.restoreSnapshot "aa" "a" .human) 4 [])).tree.lookup
        (workspaceOf env "a" ++ r) =
        s.tree.lookup (workspaceOf env "a" ++ r)) ↔ Normal (s.tree.contents (workspaceOf env "a"))) := by
  intro env s s'
  have hcreated : returns (fun row _ => row.id = "aa")
      (withSession (App.createSnapshot env 1 "a" none .human) (s.session [])) = true := by
    decide +kernel
  have htarget : (s'.store.labs.get? "a").any (fun lab => lab.runtimeClass = .container) = true := by
    decide +kernel
  obtain ⟨row, created, hblock, hrow⟩ := returns_eq_true.mp hcreated
  obtain ⟨target, htarget, hcontainer⟩ := (Option.any_eq_true ..).mp htarget
  have hid : row.id = "aa" := of_decide_eq_true hrow
  have htargetId : target.id = "a" := Table.key_of_get? htarget
  have hrestored : Succeeds env s' (.restoreSnapshot "aa" "a" .human) 4 [] := by
    decide +kernel
  have hkept := snapshot_kept env emptyState
    (initial_emptyState defaultProfiles) notesRun goneRun "a" none .human
    .human 1 4 [] row created target s s' rfl rfl (map_eq_ok.mpr ⟨row, hblock, rfl⟩)
    (fun _ _ => ⟨trivial, trivial, trivial, trivial, trivial, trivial, trivial⟩)
    ⟨trivial, trivial, trivial, trivial, fun _ => .inl (by decide +kernel), trivial, trivial⟩
    (htargetId ▸ htarget) (of_decide_eq_true hcontainer)
  rw [hid, htargetId] at hkept
  exact ⟨by decide +kernel, hkept.1.mp hrestored, hkept.2 hrestored⟩

end LabOS
