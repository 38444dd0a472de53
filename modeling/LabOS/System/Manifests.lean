import LabOS.System.Isolation
import LabOS.System.Releases

/-!
# What a manifest says

A snapshot has a row in the database, which names its archive, and a manifest on the disk, which holds all
else that was reported when it was created or last restored. The manifest is read where `_manifest_path_for`
finds it from the row, and written where the manifest that was read says it is.

## What is proved

* `described_of_step` — a step that restores a snapshot, and a step that does not, leave in its manifest
  what was last reported of it.
* `metadata_last_reported` — in every run in which the restores of a snapshot succeed and its lab is not
  destroyed, `load_metadata` returns what the last creation or restore of the snapshot returned.
-/

namespace LabOS

open Exceptional FileOps FileTree ManagedStorageAllocator

variable {β : Type} [Content β] {env : Environment β}

/-! ### What is reported -/

/-- What the snapshot manager returns for a snapshot while a step is taken: the metadata of its creation, or
of a restore. -/
def reported (env : Environment β) (snapshotId : String) (s : State β) : Action β → Option SnapshotMetadata
  | .request (.createSnapshot labId runId _) now fates =>
    if snapshotId = env.uuid4 s.minted ∧ runOf s.store runId labId = true then do
      let lab ← s.store.labs.get? labId
      let storage ← s.store.labStorage.get? labId
      returned (SnapshotManager.createSnapshot env now snapshotId lab storage runId ⟨s.tree, fates⟩)
    else none
  | .request (.restoreSnapshot id labId _) now fates =>
    if snapshotId = id then do
      let snapshot ← s.store.snapshots.get? id
      let lab ← s.store.labs.get? labId
      let storage ← s.store.labStorage.get? lab.id
      returned (SnapshotManager.restoreSnapshot env now snapshot lab storage ⟨s.tree, fates⟩)
    else none
  | _ => none

/-- What was last reported of a snapshot in a run. -/
abbrev lastReported (env : Environment β) (snapshotId : String) (s : State β) (actions : List (Action β)) :
    Option SnapshotMetadata :=
  Runs.lastOutput (step env) (reported env snapshotId) s actions

theorem lastReported_append_singleton (snapshotId : String) (s : State β) (actions : List (Action β))
    (a : Action β) : lastReported env snapshotId s (actions ++ [a]) =
      (reported env snapshotId (runFrom env s actions) a).or (lastReported env snapshotId s actions) :=
  Runs.lastOutput_append_singleton ..

/-- The step is no restore of the snapshot that fails. -/
def RestoreSucceeds (env : Environment β) (snapshotId : String) (s : State β) : Action β → Prop
  | .request (.restoreSnapshot id labId requester) now fates =>
    id = snapshotId → Succeeds env s (.restoreSnapshot id labId requester) now fates
  | _ => True

/-! ### The manifest of a snapshot -/

/-- The manifest of a snapshot holds the metadata, and is where the metadata says it is. -/
structure Described (env : Environment β) (t : FileTree β) (row : SnapshotRow) (metadata : SnapshotMetadata) :
    Prop where
  manifestPath : metadata.manifestPath = SnapshotManager.manifestPathFor row
  written : t.lookup (SnapshotManager.manifestPathFor row) = some (.file (env.codec.dumps metadata.toDict))

namespace SnapshotManager

variable {now : ℤ} {d d' : Disk β} {lab : LabRow} {storage : LabStorageRow}

/-- **What a manifest holds is what is loaded.** -/
theorem loadMetadata_of_described {t : FileTree β} {row : SnapshotRow} {metadata : SnapshotMetadata}
    (ht : IsTree t) (h : Described env t row metadata) (fates : List Fate) :
    loadMetadata env row ⟨t, fates⟩ = .ok (some metadata) ⟨t, fates⟩ :=
  loadMetadata_run (ht.stat_of_lookup h.written (by simp)) (parseManifest_dumps env metadata) fates

/-- A creation writes what it returns. -/
theorem written_of_createSnapshot {snapshotId : String} {runId : Option String} {metadata : SnapshotMetadata}
    (h : createSnapshot env now snapshotId lab storage runId d = .ok metadata d') :
    metadata.manifestPath = manifestPath storage.snapshotsPath snapshotId ∧
      ∃ u d₁, writeBytes metadata.manifestPath (env.codec.dumps metadata.toDict) d₁ = .ok u d' := by
  unfold createSnapshot at h
  simp only [bind_eq_ok, pure_eq_ok] at h
  obtain ⟨_, _, -, _, _, -, _, _, -, _, _, -, _, _, -, _, _, -, u, _, hwrite, rfl, rfl⟩ := h
  exact ⟨rfl, u, _, files_eq_ok.mp hwrite⟩

/-- A restore writes what it returns, where the manifest it has loaded says. -/
theorem written_of_restoreSnapshot {row : SnapshotRow} {restored : SnapshotMetadata}
    (h : restoreSnapshot env now row lab storage d = .ok restored d') :
    ∃ metadata, loadMetadata env row d = .ok (some metadata) d ∧
      restored.manifestPath = metadata.manifestPath ∧
      ∃ u d₁ shared,
        writeThrough shared restored.manifestPath (env.codec.dumps restored.toDict) d₁ = .ok u d' := by
  unfold restoreSnapshot at h
  obtain ⟨loaded, d₀, hloaded, h⟩ := bind_eq_ok.mp h
  obtain ⟨metadata, _, hsome, h⟩ := bind_eq_ok.mp h
  obtain ⟨rfl, rfl⟩ := orRaise_eq_ok.mp hsome
  obtain ⟨rfl, -⟩ := loadMetadata_eq_ok hloaded
  simp only [bind_eq_ok, pure_eq_ok] at h
  obtain ⟨_, _, -, _, _, -, _, _, -, _, _, -, _, _, -, _, _, -, _, _, -, _, _, -, _, _, -, _, _, -, _, _, -,
    _, _, -, u, _, hwrite, rfl, rfl⟩ := h
  exact ⟨metadata, hloaded, rfl, u, _, _, files_eq_ok.mp hwrite⟩

end SnapshotManager

/-- The manifest of a snapshot is where no link of a guest can be. -/
theorem firm_manifestPathFor {s : State β} (hs : SoundState env s) {row : SnapshotRow}
    (hrow : s.store.snapshots.get? row.id = some row) :
    Firm (Managed env anyContent) (SnapshotManager.manifestPathFor row) := by
  obtain ⟨htaken, ⟨lab, hlab, -⟩, -⟩ := hs.snapshots _ _ hrow
  rw [manifestPathFor_of_sound hs hrow]
  exact SnapshotManager.firm_manifestPath (hs.labs _ _ hlab).isIdentifier htaken.isIdentifier

/-! ### Steps -/

section Steps

variable {s : State β} {a : Action β} {row : SnapshotRow} {metadata : SnapshotMetadata} {now : ℤ}
  {labId : String} {runId : Option String} {requester : RequesterType} {fates : List Fate}

/-- A snapshot that is there after a request was there before, or the request has created it. -/
theorem snapshot_of_effect {r : Request β} {m m' : ℕ} {st st' : Store} {id : String}
    (h : Effect env now r m m' st st') (hrow : st'.snapshots.get? id = some row) :
    st.snapshots.get? id = some row ∨ st.snapshots.get? id = none ∧
      ∃ labId runId requester, r = .createSnapshot labId runId requester := by
  cases h with
  | snapshotCreated new =>
    rcases Table.eq_or_of_get?_put hrow with ⟨rfl, rfl⟩ | ⟨-, hrow⟩
    · exact .inr ⟨new.fresh, _, _, _, rfl⟩
    · exact .inl hrow
  | reconciled sweeps => exact .inl ((addsNone_of_sweeps sweeps).others.2.1 ▸ hrow)
  | _ => exact .inl hrow

/-- A snapshot that is there after a step was there before, or the step has created it. -/
theorem snapshot_of_step {id : String} (hrow : (step env s a).store.snapshots.get? id = some row) :
    s.store.snapshots.get? id = some row ∨ s.store.snapshots.get? id = none ∧
      ∃ labId runId requester now fates, a = .request (.createSnapshot labId runId requester) now fates := by
  cases a with
  | guest labId entries => exact .inl hrow
  | request r now fates =>
    refine (snapshot_of_effect (effect_of_answer env s r now fates) hrow).imp_right ?_
    rintro ⟨hnew, labId, runId, requester, rfl⟩
    exact ⟨hnew, labId, runId, requester, now, fates, rfl⟩

/-- What a request that creates a snapshot did: the manager's work, and the row. -/
theorem createSnapshot_disk {s s' : Session β}
    (h : App.createSnapshot env now labId runId requester s = .ok row s') :
    ∃ lab storage metadata d, s.store.labs.get? labId = some lab ∧
      s.store.labStorage.get? labId = some storage ∧
      runOf s.store runId labId = true ∧ row.id = env.uuid4 s.minted ∧
      SnapshotManager.createSnapshot env now row.id lab storage runId s.disk = .ok metadata d ∧
      row.backendRef = metadata.backendRef ∧ s'.disk.tree = d.tree ∧
      s'.store.snapshots = s.store.snapshots.put row := by
  simp [App.createSnapshot, adaptExcept_eq_ok, bind_eq_ok] at h
  obtain ⟨lab, hlab, storage, hstorage, _, _, hcheck, metadata, d, hcreated, -, rfl, rfl⟩ := h
  have hid : lab.id = labId := Table.key_of_get? hlab
  have hrun := hid ▸ runOf_of_checkRun hcheck
  obtain rfl := checkRun_eq_ok hcheck
  exact ⟨lab, storage, metadata, d, hlab, hstorage, hrun, rfl, hcreated, rfl, rfl, rfl⟩

/-- What a request that restores a snapshot did: the manager's work. -/
theorem restoreSnapshot_disk {s s' : Session β} {snapshotId : String}
    (h : App.restoreSnapshot env now snapshotId labId requester s = .ok row s') :
    ∃ lab storage restored d, s.store.snapshots.get? snapshotId = some row ∧
      s.store.labs.get? labId = some lab ∧ s.store.labStorage.get? lab.id = some storage ∧
      SnapshotManager.restoreSnapshot env now row lab storage s.disk = .ok restored d ∧
      s'.disk.tree = d.tree := by
  simp [App.restoreSnapshot, adaptExcept_eq_ok, bind_eq_ok] at h
  obtain ⟨hrow, lab, hlab, storage, hstorage, restored, d, hrestored, rfl⟩ := h
  exact ⟨lab, storage, restored, d, hrow, hlab, hstorage, hrestored, rfl⟩

/-- A creation is reported by what the manager returns. -/
theorem reported_of_creation {snapshotId : String} {lab : LabRow} {storage : LabStorageRow} {d : Disk β}
    (hid : snapshotId = env.uuid4 s.minted) (hrun : runOf s.store runId labId = true)
    (hlab : s.store.labs.get? labId = some lab) (hstorage : s.store.labStorage.get? labId = some storage)
    (h : SnapshotManager.createSnapshot env now snapshotId lab storage runId ⟨s.tree, fates⟩ =
      .ok metadata d) :
    reported env snapshotId s (.request (.createSnapshot labId runId requester) now fates) =
      some metadata := by
  rw [reported, if_pos ⟨hid, hrun⟩]
  simp [hlab, hstorage, h, returned]

/-- A restore is. -/
theorem reported_of_restore {snapshotId : String} {lab : LabRow} {storage : LabStorageRow} {d : Disk β}
    (hrow : s.store.snapshots.get? snapshotId = some row) (hlab : s.store.labs.get? labId = some lab)
    (hstorage : s.store.labStorage.get? lab.id = some storage)
    (h : SnapshotManager.restoreSnapshot env now row lab storage ⟨s.tree, fates⟩ = .ok metadata d) :
    reported env snapshotId s (.request (.restoreSnapshot snapshotId labId requester) now fates) =
      some metadata := by
  rw [reported, if_pos rfl]
  simp [hrow, hlab, hstorage, h, returned]

/-- **A snapshot that is created is described** by what is reported of it. -/
theorem described_of_creation (hs : Healthy env anyContent s) (hnew : s.store.snapshots.get? row.id = none)
    (hrow : (step env s (.request
      (.createSnapshot labId runId requester) now fates)).store.snapshots.get? row.id = some row) :
    ∃ metadata, reported env row.id s (.request (.createSnapshot labId runId requester) now fates) =
        some metadata ∧
      Described env (step env s (.request (.createSnapshot labId runId requester) now fates)).tree row
        metadata := by
  have hhealthy := healthy_of_step (a := .request (.createSnapshot labId runId requester) now fates)
    carries_any hs (brings_any s _)
  have hfirm := firm_manifestPathFor hhealthy.sound hrow
  have hidentifier := (hhealthy.sound.snapshots _ _ hrow).1.isIdentifier
  cases hanswer : answer env s (.createSnapshot labId runId requester) now fates with
  | error e s' =>
    simp only [step, hanswer, endState_error, Session.state, store_of_block_error hanswer] at hrow
    exact absurd (hnew.symm.trans hrow) (by simp)
  | ok response s' =>
    simp only [step, hanswer, endState_ok, Session.state] at hrow hhealthy ⊢
    obtain ⟨created, hblock, -⟩ := map_eq_ok.mp hanswer
    obtain ⟨s₁, hbody, hstore, htree, -⟩ := withSession_eq_ok hblock
    obtain ⟨lab, storage, metadata, d, hlab, hstorage, hrun, hid, hcreated, href, htree', hsnapshots⟩ :=
      createSnapshot_disk hbody
    rw [hstore, hsnapshots] at hrow
    obtain ⟨-, rfl⟩ | ⟨-, hold⟩ := Table.eq_or_of_get?_put hrow
    · obtain ⟨-, hbackend⟩ := SnapshotManager.createSnapshot_eq_ok hcreated
      obtain ⟨hmanifest, u, d₁, hwrite⟩ := SnapshotManager.written_of_createSnapshot hcreated
      have hplace : metadata.manifestPath = SnapshotManager.manifestPathFor row := by
        rw [hmanifest, SnapshotManager.manifestPathFor_eq hidentifier (href.trans hbackend)]
      refine ⟨metadata, ?_, hplace, ?_⟩
      · exact reported_of_creation hid hrun hlab hstorage hcreated
      · rw [htree, htree'] at hhealthy ⊢
        rw [hplace] at hwrite
        rw [← writeThrough_nil] at hwrite
        exact lookup_of_writeThrough hfirm hhealthy.tidy hwrite
    · exact absurd (hnew.symm.trans hold) (by simp)

omit [Content β] in
/-- A block leaves the tree as its body does, whether or not it commits. -/
theorem tree_of_withSession {α : Type} (body : SessionM β α) (s : Session β) :
    (endState (withSession body s)).disk.tree = (endState (body s)).disk.tree := by
  cases hbody : body s with
  | error e s₁ =>
    rw [withSession_of_error hbody]
    rfl
  | ok a s₁ =>
    rw [withSession_run_of_ok hbody]
    obtain ⟨store, ⟨tree, fates⟩, minted⟩ := s₁
    cases fates with
    | nil => rfl
    | cons fate fates => cases fate <;> rfl

/-- A restore that succeeds is reported. -/
theorem reported_of_succeeds (hrow : s.store.snapshots.get? row.id = some row)
    (h : Succeeds env s (.restoreSnapshot row.id labId requester) now fates) :
    ∃ restored, reported env row.id s (.request (.restoreSnapshot row.id labId requester) now fates) =
      some restored := by
  obtain ⟨response, s', hanswer⟩ := h
  obtain ⟨row', hblock, -⟩ := map_eq_ok.mp hanswer
  obtain ⟨s₁, hbody, -⟩ := withSession_eq_ok hblock
  obtain ⟨lab, storage, restored, d, hrow', hlab, hstorage, hrestored, -⟩ := restoreSnapshot_disk hbody
  obtain rfl : row = row' := Option.some.inj (hrow.symm.trans hrow')
  exact ⟨restored, reported_of_restore hrow hlab hstorage hrestored⟩

/-- **A snapshot that is restored is described** by what is reported of it, also where the commit fails then. -/
theorem described_of_restore {restored : SnapshotMetadata} (hs : Healthy env anyContent s)
    (hrow : s.store.snapshots.get? row.id = some row)
    (hreported : reported env row.id s (.request (.restoreSnapshot row.id labId requester) now fates) =
      some restored)
    (hbefore : Described env s.tree row metadata) :
    Described env (step env s (.request (.restoreSnapshot row.id labId requester) now fates)).tree row
      restored := by
  have hhealthy := healthy_of_step (a := .request (.restoreSnapshot row.id labId requester) now fates)
    carries_any hs (brings_any s _)
  have hfirm := firm_manifestPathFor hs.sound hrow
  rw [reported, if_pos rfl] at hreported
  simp only [Option.bind_eq_bind, Option.bind_eq_some_iff] at hreported
  obtain ⟨row', hrow', lab, hlab, storage, hstorage, hreturned⟩ := hreported
  obtain rfl : row = row' := Option.some.inj (hrow.symm.trans hrow')
  obtain ⟨d, hrestored⟩ := returned_eq_some.mp hreturned
  have htree : (step env s (.request (.restoreSnapshot row.id labId requester) now fates)).tree = d.tree := by
    have hbody : ∃ s', App.restoreSnapshot env now row.id labId requester (s.session fates) = .ok row s' ∧
        s'.disk = d := by
      simp [App.restoreSnapshot, adaptExcept_eq_ok, bind_eq_ok]
      exact ⟨hrow, lab, hlab, storage, hstorage, restored, hrestored⟩
    obtain ⟨s', hbody, rfl⟩ := hbody
    have hblock := tree_of_withSession (App.restoreSnapshot env now row.id labId requester) (s.session fates)
    rw [hbody] at hblock
    exact (congrArg (fun s : Session β => s.disk.tree) endState_map).trans hblock
  obtain ⟨loaded, hloaded, hmanifest, u, d₁, shared, hwrite⟩ :=
    SnapshotManager.written_of_restoreSnapshot hrestored
  -- what the restore has loaded is what the manifest held
  have hplace : restored.manifestPath = SnapshotManager.manifestPathFor row := by
    have hread := SnapshotManager.loadMetadata_of_described hs.tidy.tree hbefore fates
    obtain ⟨heq, -⟩ := EStateM.Result.ok.inj (hloaded.symm.trans hread)
    rw [hmanifest, Option.some.inj heq, hbefore.manifestPath]
  rw [hplace] at hwrite
  refine ⟨hplace, ?_⟩
  rw [htree]
  exact lookup_of_writeThrough hfirm (htree ▸ hhealthy.tidy) hwrite

/-- **What changes the manifest of a snapshot**: its lab is made or destroyed, or it is created or
restored. -/
theorem changes_manifest {id : String}
    (h : Changes env s a (SnapshotManager.manifestPath (inLab env.root labId ["snapshots"]) id)) :
    labId = env.uuid4 s.minted ∨ (∃ now fates, a = .request (.destroyLab labId) now fates) ∨
      id = env.uuid4 s.minted ∨
      ∃ target requester now fates, a = .request (.restoreSnapshot id target requester) now fates := by
  rw [SnapshotManager.manifestPath_inLab] at h
  cases changesLab_of_changes h with
  | written area _ place =>
    obtain ⟨rfl, -⟩ := List.cons.inj place
    exact absurd area (by decide)
  | made _ new => exact .inl new
  | destroyed => exact .inr (.inl ⟨_, _, rfl⟩)
  | archived _ _ _ place =>
    simp only [List.cons_prefix_cons, List.prefix_nil, List.cons.injEq, and_true, true_and] at place
    rcases place with hnil | harchive | hmanifest
    · cases hnil
    · exact absurd harchive.symm (archive_ne_manifest _ _)
    · exact .inr (.inr (.inl (manifest_inj hmanifest)))
  | restored _ _ _ place => simp at place
  | described place =>
    simp only [List.cons.injEq, and_true, true_and] at place
    obtain rfl := manifest_inj place
    exact .inr (.inr (.inr ⟨_, _, _, _, rfl⟩))
  | staged _ place => simp at place
  | released _ _ _ _ place => simp at place

/-- The manifest of a snapshot is as it was when the step does not restore it. -/
theorem lookup_manifest_of_step (hs : Healthy env anyContent s)
    (hrow : s.store.snapshots.get? row.id = some row) (hspared : SparesLab env row.labId s a)
    (h : ∀ target requester now fates, a ≠ .request (.restoreSnapshot row.id target requester) now fates) :
    (step env s a).tree.lookup (SnapshotManager.manifestPathFor row) =
      s.tree.lookup (SnapshotManager.manifestPathFor row) := by
  obtain ⟨htaken, ⟨lab, hlab, -⟩, -⟩ := hs.sound.snapshots _ _ hrow
  rw [manifestPathFor_of_sound hs.sound hrow]
  by_cases hchanges : Changes env s a
      (SnapshotManager.manifestPath (inLab env.root row.labId ["snapshots"]) row.id)
  · rcases changes_manifest hchanges with
      hnew | ⟨now, fates, rfl⟩ | hnew | ⟨target, requester, now, fates, rfl⟩
    · exact absurd hnew ((hs.sound.labs _ _ hlab).ne_uuid4 le_rfl)
    · exact lookup_of_spared hspared _
        (SnapshotManager.manifestPath_inLab env.root row.labId row.id ▸ List.prefix_append _ _)
    · exact absurd hnew (htaken.ne_uuid4 le_rfl)
    · exact absurd rfl (h target requester now fates)
  · exact (keeps_of_step hs.sound carries_any (brings_any s a) hs.tidy).2 _ hchanges

/-- Nothing is reported of a snapshot that the step does not restore. -/
theorem reported_of_other (hs : SoundState env s) (hrow : s.store.snapshots.get? row.id = some row)
    (h : ∀ target requester now fates, a ≠ .request (.restoreSnapshot row.id target requester) now fates) :
    reported env row.id s a = none := by
  have hnew : row.id ≠ env.uuid4 s.minted := (hs.snapshots _ _ hrow).1.ne_uuid4 le_rfl
  cases a with
  | guest labId entries => rfl
  | request r now fates =>
    cases r with
    | createSnapshot labId runId requester => exact if_neg fun hboth => hnew hboth.1
    | restoreSnapshot snapshotId target requester =>
      refine if_neg fun hid => ?_
      subst hid
      exact h target requester now fates rfl
    | _ => rfl

/-- **A described snapshot stays described**, by what the step reports of it or else as it was. -/
theorem described_of_step (hs : Healthy env anyContent s) (hrow : s.store.snapshots.get? row.id = some row)
    (hspared : SparesLab env row.labId s a) (hrestored : RestoreSucceeds env row.id s a)
    (h : Described env s.tree row metadata) :
    ∃ metadata', (reported env row.id s a).or (some metadata) = some metadata' ∧
      Described env (step env s a).tree row metadata' := by
  by_cases hrestore : ∃ target requester now fates,
      a = .request (.restoreSnapshot row.id target requester) now fates
  · obtain ⟨target, requester, now, fates, rfl⟩ := hrestore
    obtain ⟨restored, hreported⟩ := reported_of_succeeds hrow (hrestored rfl)
    have hdescribed := described_of_restore hs hrow hreported h
    exact ⟨restored, by rw [hreported, Option.some_or], hdescribed⟩
  · have hother : ∀ target requester now fates,
        a ≠ .request (.restoreSnapshot row.id target requester) now fates := by
      simpa using hrestore
    refine ⟨metadata, by rw [reported_of_other hs.sound hrow hother, Option.none_or], h.manifestPath, ?_⟩
    rw [lookup_manifest_of_step hs hrow hspared hother, h.written]

end Steps

/-! ### Runs -/

/-- **In every run** a snapshot is described by what was last reported of it, where its restores succeed and
its lab is not destroyed. -/
theorem described_of_run {s₀ : State β} (h₀ : Initial env s₀) {actions : List (Action β)} {row : SnapshotRow}
    (hrow : (runFrom env s₀ actions).store.snapshots.get? row.id = some row)
    (hspared : Runs.Allowed (step env) (SparesLab env row.labId) s₀ actions)
    (hrestored : Runs.Allowed (step env) (RestoreSucceeds env row.id) s₀ actions) :
    ∃ metadata, lastReported env row.id s₀ actions = some metadata ∧
      Described env (runFrom env s₀ actions).tree row metadata := by
  induction actions using List.reverseRecOn with
  | nil =>
    rw [show runFrom env s₀ [] = s₀ from rfl, h₀.store] at hrow
    cases hrow
  | append_singleton actions a ih =>
    have hs := healthy_of_actions h₀ actions
    rw [show runFrom env s₀ (actions ++ [a]) = step env (runFrom env s₀ actions) a from Runs.after_append ..]
      at hrow ⊢
    rw [lastReported_append_singleton]
    obtain ⟨hsparedBefore, hsparedStep, -⟩ := Runs.allowed_append.mp hspared
    obtain ⟨hrestoredBefore, hrestoredStep, -⟩ := Runs.allowed_append.mp hrestored
    rcases snapshot_of_step hrow with hold | ⟨hnew, labId, runId, requester, now, fates, rfl⟩
    · obtain ⟨metadata, hlast, hdescribed⟩ := ih hold hsparedBefore hrestoredBefore
      rw [hlast]
      exact described_of_step hs hold hsparedStep hrestoredStep hdescribed
    · obtain ⟨metadata, hreported, hdescribed⟩ := described_of_creation hs hnew hrow
      exact ⟨metadata, by rw [hreported, Option.some_or], hdescribed⟩

/-- **Snapshot metadata is the last one reported.** In every run in which the restores of a snapshot succeed
and its lab is not destroyed, whatever else is asked for and whatever the guests write, `load_metadata` of
its row returns what the manager returned for its last restore, or for its creation. -/
theorem metadata_last_reported (env : Environment β) (s₀ : State β) (h₀ : Initial env s₀)
    (actions : List (Action β)) (row : SnapshotRow)
    (hrow : row ∈ (runFrom env s₀ actions).store.snapshots.rows)
    (hspared : Runs.Allowed (step env) (SparesLab env row.labId) s₀ actions)
    (hrestored : Runs.Allowed (step env) (RestoreSucceeds env row.id) s₀ actions) (fates : List Fate) :
    ∃ metadata, lastReported env row.id s₀ actions = some metadata ∧
      SnapshotManager.loadMetadata env row ⟨(runFrom env s₀ actions).tree, fates⟩ =
        .ok (some metadata) ⟨(runFrom env s₀ actions).tree, fates⟩ := by
  obtain ⟨metadata, hlast, hdescribed⟩ := described_of_run h₀ (Table.get?_of_mem hrow) hspared hrestored
  have htree := (healthy_of_actions h₀ actions).tidy.tree
  exact ⟨metadata, hlast, SnapshotManager.loadMetadata_of_described htree hdescribed fates⟩

/-- A snapshot of one lab is restored into another and then, after a snapshot of that, where it was made. -/
def restoredTwiceRun : List (Action Blob) :=
  [.request (.createLab "safe-dev" .human) 0 [],
   .guest "a" [(["srv", "labs", "a", "workspace", "notes.txt"], .file (.data "a" ['x']))],
   .request (.createSnapshot "a" none .human) 1 [],
   .request (.createLab "safe-dev" .human) 2 [],
   .request (.restoreSnapshot "aa" "aaa" .human) 3 [],
   .request (.createSnapshot "aaa" none .human) 4 [],
   .request (.restoreSnapshot "aa" "a" .human) 5 []]

/-- Its metadata is that of the second restore. -/
theorem metadata_last_reported_restoredTwiceRun :
    ∃ row ∈ (runFrom (symbolic defaultProfiles) emptyState restoredTwiceRun).store.snapshots.rows,
      row.id = "aa" ∧ ∃ metadata, metadata.restoredLabId = some "a" ∧
        SnapshotManager.loadMetadata (symbolic defaultProfiles) row
          ⟨(runFrom (symbolic defaultProfiles) emptyState restoredTwiceRun).tree, []⟩ =
          .ok (some metadata)
            ⟨(runFrom (symbolic defaultProfiles) emptyState restoredTwiceRun).tree, []⟩ := by
  have hrow : ∃ row ∈ (runFrom (symbolic defaultProfiles) emptyState restoredTwiceRun).store.snapshots.rows,
      row.id = "aa" := by
    decide +kernel
  obtain ⟨row, hrow, hid⟩ := hrow
  have hrestored : Runs.Allowed (step (symbolic defaultProfiles))
      (RestoreSucceeds (symbolic defaultProfiles) row.id) emptyState restoredTwiceRun := by
    refine ⟨trivial, trivial, trivial, trivial, fun _ => ?_, trivial, fun _ => ?_, trivial⟩
    all_goals decide +kernel
  obtain ⟨metadata, hlast, hloaded⟩ := metadata_last_reported (symbolic defaultProfiles) emptyState
    (initial_emptyState defaultProfiles) restoredTwiceRun row hrow
    ⟨trivial, trivial, trivial, trivial, trivial, trivial, trivial, trivial⟩ hrestored []
  have hsecond : (lastReported (symbolic defaultProfiles) "aa" emptyState restoredTwiceRun).any
      (fun metadata => metadata.restoredLabId = some "a") = true := by
    decide +kernel
  rw [hid] at hlast
  rw [hlast] at hsecond
  exact ⟨row, hrow, hid, metadata, of_decide_eq_true hsecond, hloaded⟩

end LabOS
