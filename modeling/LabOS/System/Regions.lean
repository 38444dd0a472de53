import LabOS.System.Restores

/-!
# What a step may change on the disk

The programs of `Confined`, `Archives` and `Restores`, put under the requests that run them: for each
request the paths it touches, on success and on failure alike, and for each guest the
paths it may write. A state is healthy when its rows are sound and its tree is tidy, and
every step from a healthy state changes only what it touches.

## What is proved

* `keeps_of_step` — from a healthy state a step changes only what it touches, and leaves
  the tree tidy.
* `changesLab_of_changes` — which step changes what in the tree of a lab.
* `healthy_of_step` — a step leaves a healthy state healthy, with the contents that the guests
  write and the restores carry over.
-/

namespace LabOS

open Exceptional FileOps FileTree ManagedStorageAllocator

variable {β : Type} [Content β] {env : Environment β} {good : String → β → Prop}

/-- What may change while a request is answered. -/
def Touches (env : Environment β) (s : State β) : Request β → PosixPath → Prop
  | .createLab _ _, p | .dispatchNextSchedulerJob, p => Comparable (labRoot env.root (env.uuid4 s.minted)) p
  | .destroyLab labId, p =>
    (∃ lab, s.store.labs.get? labId = some lab ∧ lab.state ≠ .destroyed) ∧ labRoot env.root labId <+: p
  | .createSnapshot labId runId _, p =>
    (∃ lab, s.store.labs.get? labId = some lab ∧ lab.runtimeClass = .container) ∧
      runOf s.store runId labId = true ∧
      (p <+: inLab env.root labId ["snapshots"] ∨
        p = SnapshotManager.archivePath (inLab env.root labId ["snapshots"]) (env.uuid4 s.minted) ∨
        p = SnapshotManager.manifestPath (inLab env.root labId ["snapshots"]) (env.uuid4 s.minted))
  | .restoreSnapshot snapshotId labId _, p =>
    ∃ snapshot lab, s.store.snapshots.get? snapshotId = some snapshot ∧ s.store.labs.get? labId = some lab ∧
      SnapshotManager.restorable env s.tree snapshot lab = true ∧
      (Comparable (inLab env.root labId ["workspace"]) p ∨
        p = SnapshotManager.manifestPath (inLab env.root snapshot.labId ["snapshots"]) snapshotId)
  | .createExport labId _ _ _, p =>
    s.tree.lookup (labRoot env.root labId) = some .dir ∧
      Comparable (inLab env.root labId ["quarantine", env.uuid4 s.minted]) p
  | .releaseExport exportId, p =>
    ∃ row, s.store.exports.get? exportId = some row ∧
      (row.state ≠ .rejected ∧ row.state ≠ .released ∧ row.approvalRequired = false) ∧
      s.tree.lookup (labRoot env.root row.labId) = some .dir ∧
      Comparable (inLab env.root row.labId ["released", exportId]) p
  | _, _ => False

/-- What may change in a step. -/
def Changes (env : Environment β) (s : State β) : Action β → PosixPath → Prop
  | .request r _ _, p => Touches env s r p
  | .guest labId _, p => guestArea env.root labId p = true

/-- The contents a step brings to a lab are good for it: those of a snapshot that is restored there, those of
a file that is staged there, and those that its guest writes. -/
def Brings (env : Environment β) (good : String → β → Prop) (s : State β) : Action β → Prop
  | .request (.restoreSnapshot snapshotId labId _) _ _ => ∀ snapshot lab,
    s.store.snapshots.get? snapshotId = some snapshot → s.store.labs.get? labId = some lab →
    SnapshotManager.restorable env s.tree snapshot lab = true → ∀ b, good snapshot.labId b → good labId b
  | .request (.createExport labId sourcePath _ _) _ _ => ∀ storage source b,
    s.store.labStorage.get? labId = some storage →
    ExportGate.Stages s.tree storage sourcePath source b → good labId b
  | .guest labId entries => ∀ p b, (p, .file b) ∈ entries → guestArea env.root labId p = true → good labId b
  | _ => True

/-- A state with sound rows and a tidy tree. -/
structure Healthy (env : Environment β) (good : String → β → Prop) (s : State β) : Prop where
  sound : SoundState env s
  tidy : Tidy (Managed env good) s.tree

/-! ### Requests -/

theorem diskWork_of_sound {s : State β} {r : Request β} {now : ℤ} {fates : List Fate} (hs : SoundState env s)
    (hcarry : Carries env good) (hbrings : Brings env good s (.request r now fates)) :
    DiskWork env now (keeping (Managed env good) (Touches env s r)) (s.session fates) r := by
  have hlab : ∀ {id lab}, s.store.labs.get? id = some lab → isIdentifier id = true :=
    fun hlab => (hs.labs _ _ hlab).isIdentifier
  have hstorage : ∀ {id storage}, s.store.labStorage.get? id = some storage → AtLayout env.root storage ∧
      storage.labId = id :=
    fun hstorage => ⟨(hs.layout _ _ hstorage).1, Table.key_of_get? hstorage⟩
  have hnew : isIdentifier (env.uuid4 s.minted) = true := env.uuid4_isIdentifier _
  cases r with
  | reconcile => exact hs.quiet
  | createSecretLease | revokeSecretLease | createRun | enqueueSchedulerJob | approveRequest | denyRequest
  | denyExport => exact trivial
  | createLab | dispatchNextSchedulerJob => exact fun policy => within_allocate hnew
  | destroyLab labId =>
    intro lab storage h hst alive allocation hallocation
    obtain ⟨hlayout, hid⟩ := hstorage hst
    have hlabId : lab.id = labId := Table.key_of_get? h
    rw [hlabId] at hid
    refine within_of_subset (within_destroy (hid ▸ hlab h) hlayout hallocation) fun p hp => ?_
    exact ⟨⟨lab, h, alive⟩, hid ▸ hp⟩
  | createSnapshot labId runId requester =>
    intro lab storage h hst hrun
    obtain ⟨hlayout, rfl⟩ := hstorage hst
    refine within_of_subset
      (SnapshotManager.within_createSnapshot (hlab h) hnew hlayout hcarry) fun p hp => ?_
    exact ⟨⟨lab, h, hp.1⟩, hrun, hp.2⟩
  | restoreSnapshot snapshotId labId requester =>
    intro snapshot lab storage hsnapshot h hst
    obtain ⟨hlayout, hid⟩ := hstorage hst
    have hlabId : lab.id = labId := Table.key_of_get? h
    rw [hlabId] at hid
    subst hid
    have hrowId : snapshot.id = snapshotId := Table.key_of_get? hsnapshot
    obtain ⟨htaken, ⟨source, hsource, -⟩, href⟩ := hs.snapshots _ _ hsnapshot
    refine within_of_subset (SnapshotManager.within_restoreSnapshot (hlab h) (hlab hsource)
      (hrowId ▸ htaken.isIdentifier) hlayout (hrowId ▸ href) hcarry
        (hbrings snapshot lab hsnapshot h)) fun p hp => ?_
    exact ⟨snapshot, lab, hsnapshot, h, hp.1, hrowId ▸ hp.2⟩
  | createExport labId sourcePath runId requester =>
    intro lab storage h hst _
    obtain ⟨hlayout, rfl⟩ := hstorage hst
    exact ExportGate.within_stageExport (hlab h) hnew hlayout hcarry fun source b =>
      hbrings storage source b hst
  | releaseExport exportId =>
    intro row storage h hst
    obtain ⟨hlayout, hid⟩ := hstorage hst
    have hrowId : row.id = exportId := Table.key_of_get? h
    obtain ⟨htaken, ⟨lab, hl⟩, name, hplace⟩ := hs.exports _ _ h
    refine within_of_subset
      (ExportGate.within_releaseExport (hid ▸ hlab hl) (hrowId ▸ htaken.isIdentifier) hlayout
      (hid ▸ hrowId ▸ hplace) hcarry) fun p hp => ?_
    rw [hid, hrowId] at hp
    exact ⟨row, h, hp.1, hp.2⟩

/-- **Answering a request changes only what it touches.** -/
theorem keeps_of_answer {s : State β} {r : Request β} {now : ℤ} {fates : List Fate} (hs : SoundState env s)
    (hcarry : Carries env good) (hbrings : Brings env good s (.request r now fates)) :
    Keeps (Managed env good) (Touches env s r) s.tree (endState (answer env s r now fates)).disk.tree :=
  (within_respond (diskWork_of_sound hs hcarry hbrings)).1

theorem within_destroy_removing {allocation : StorageAllocation} {d : Disk β} :
    Within (onTree removing) (destroy env.root allocation) d :=
  Within.bind ((within_files (within_look _ _)).bind fun _ _ _ _ => Within.raiseIf _ _) fun _ _ _ _ =>
    (within_files (within_look _ _)).bind fun _ _ _ _ => Within.whenever fun _ =>
      within_files within_rmtree_removing

/-- A request to destroy a lab only removes. -/
theorem removes_of_destroyLab {s : State β} {labId : String} {now : ℤ} {fates : List Fate} :
    removing.rel s.tree (endState (answer env s (.destroyLab labId) now fates)).disk.tree := by
  have hwork : DiskWork env now removing (s.session fates) (.destroyLab labId) :=
    fun _ _ _ _ _ _ _ => within_destroy_removing
  exact (within_respond hwork).1

/-! ### Guests -/

/-- What a guest may write is in the tree of its lab. -/
theorem managed_of_guestArea {labId : String} {p : PosixPath} {e : Entry β}
    (hp : guestArea env.root labId p = true) (hgood : ∀ b, e = .file b → good labId b) :
    Managed env good p e := by
  obtain ⟨x, r, hx, hr, rfl⟩ := guestArea_iff.mp hp
  cases e with
  | symlink tgt => exact .inr ⟨labId, hp⟩
  | file b =>
    refine managed_file ?_ (hgood b rfl)
    rcases hx with rfl | rfl <;> decide
  | dir =>
    rintro labId' y id name hy he
    obtain ⟨-, he⟩ := inLab_inj.mp he
    obtain ⟨rfl, -⟩ := List.cons.inj he
    rcases hx with rfl | rfl <;> rcases hy with hy | hy <;> exact absurd hy (by decide)

/-- **A guest writes only in its area.** -/
theorem keeps_of_guestWrite {labId : String} {entries : List (PosixPath × Entry β)} {t : FileTree β}
    (hgood : ∀ p b, (p, .file b) ∈ entries → guestArea env.root labId p = true → good labId b) :
    Keeps (Managed env good) (fun p => guestArea env.root labId p = true) t
      (guestWrite env.root labId entries t) := by
  intro ht
  unfold guestWrite
  dsimp only
  split
  · next hcheck =>
    have hentries : ∀ x ∈ entries.filter (fun x => guestArea env.root labId x.1),
        guestArea env.root labId x.1 = true :=
      fun x hx => (List.mem_filter.mp hx).2
    have hne : ∀ x ∈ entries.filter (fun x => guestArea env.root labId x.1), x.1 ≠ [] := by
      intro x hx h0
      have harea := hentries x hx
      rw [h0] at harea
      obtain ⟨_, _, -, -, he⟩ := guestArea_iff.mp harea
      simp [inLab] at he
    have hkept : ∀ p, p ≠ [] → lookup (t.restrict fun x => !guestArea env.root labId x.1) p =
        if !guestArea env.root labId p then t.lookup p else none :=
      fun p => @lookup_restrict β t (fun p => !guestArea env.root labId p) p
    refine ⟨⟨isTree_of_checkTree hcheck, fun p e he => ?_⟩, fun p hp => ?_⟩
    · rcases lookup_foldl_set hne he with hmem | ⟨-, he⟩
      · obtain ⟨hmem, harea⟩ := List.mem_filter.mp hmem
        exact managed_of_guestArea harea fun b hb => hgood p b (hb ▸ hmem) harea
      · by_cases h0 : p = []
        · exact ht.allowed p e (by rw [h0] at he ⊢; exact he)
        · rw [hkept p h0] at he
          split at he
          · exact ht.allowed p e he
          · cases he
    · have hout : ∀ x ∈ entries.filter (fun x => guestArea env.root labId x.1), x.1 ≠ p := by
        rintro x hx rfl
        exact hp (hentries x hx)
      rw [lookup_foldl_set_of_notMem hout]
      by_cases h0 : p = []
      · rw [h0]
        rfl
      · rw [hkept p h0, if_pos (by simpa using hp)]
  · exact ⟨ht, fun _ _ => rfl⟩

/-! ### Runs -/

/-- **A step changes only what it touches**, and leaves the tree tidy. -/
theorem keeps_of_step {s : State β} {a : Action β} (hs : SoundState env s) (hcarry : Carries env good)
    (hbrings : Brings env good s a) :
    Keeps (Managed env good) (Changes env s a) s.tree (step env s a).tree := by
  cases a with
  | request r now fates => exact keeps_of_answer hs hcarry hbrings
  | guest labId entries => exact keeps_of_guestWrite hbrings

/-- How a step changes the tree of a lab, at the path `q` from its root. -/
inductive ChangesLab (env : Environment β) (s : State β) (labId : String) (q : List String) :
    Action β → Prop where
  /-- The guest of the lab writes. -/
  | written {entries x r} (area : x = "workspace" ∨ x = "exports") (below : r ≠ []) (place : q = x :: r) :
    ChangesLab env s labId q (.guest labId entries)
  /-- The lab is made. -/
  | made {r now fates} (request : (∃ profileName requester, r = .createLab profileName requester) ∨
      r = .dispatchNextSchedulerJob) (new : labId = env.uuid4 s.minted) :
    ChangesLab env s labId q (.request r now fates)
  /-- The lab is destroyed. -/
  | destroyed {now fates lab} (found : s.store.labs.get? labId = some lab) (alive : lab.state ≠ .destroyed) :
    ChangesLab env s labId q (.request (.destroyLab labId) now fates)
  /-- A snapshot of the lab is made. -/
  | archived {runId requester now fates lab} (found : s.store.labs.get? labId = some lab)
      (container : lab.runtimeClass = .container) (run : runOf s.store runId labId = true)
      (place : q <+: ["snapshots"] ∨ q = ["snapshots", env.uuid4 s.minted ++ ".tar.gz"] ∨
        q = ["snapshots", env.uuid4 s.minted ++ ".json"]) :
    ChangesLab env s labId q (.request (.createSnapshot labId runId requester) now fates)
  /-- A snapshot is restored into the lab. -/
  | restored {snapshotId requester now fates snapshot lab}
      (source : s.store.snapshots.get? snapshotId = some snapshot)
      (found : s.store.labs.get? labId = some lab)
      (restorable : SnapshotManager.restorable env s.tree snapshot lab = true)
      (place : ["workspace"] <+: q ∨ q <+: ["workspace"]) :
    ChangesLab env s labId q (.request (.restoreSnapshot snapshotId labId requester) now fates)
  /-- A snapshot of the lab is restored, here or elsewhere, and its manifest written. -/
  | described {snapshotId target requester now fates} (place : q = ["snapshots", snapshotId ++ ".json"]) :
    ChangesLab env s labId q (.request (.restoreSnapshot snapshotId target requester) now fates)
  /-- An export of the lab is staged. -/
  | staged {sourcePath runId requester now fates} (dir : s.tree.lookup (labRoot env.root labId) = some .dir)
      (place : ["quarantine", env.uuid4 s.minted] <+: q ∨ q <+: ["quarantine", env.uuid4 s.minted]) :
    ChangesLab env s labId q (.request (.createExport labId sourcePath runId requester) now fates)
  /-- An export of the lab is released. -/
  | released {exportId now fates row} (found : s.store.exports.get? exportId = some row)
      (of : row.labId = labId)
      (gate : row.state ≠ .rejected ∧ row.state ≠ .released ∧ row.approvalRequired = false)
      (dir : s.tree.lookup (labRoot env.root labId) = some .dir)
      (place : ["released", exportId] <+: q ∨ q <+: ["released", exportId]) :
    ChangesLab env s labId q (.request (.releaseExport exportId) now fates)

/-- **What changes in the tree of a lab**, and by which step. -/
theorem changesLab_of_changes {s : State β} {a : Action β} {labId : String} {q : List String}
    (h : Changes env s a (inLab env.root labId q)) : ChangesLab env s labId q a := by
  cases a with
  | guest labId' entries =>
    obtain ⟨x, r, hx, hr, he⟩ := guestArea_iff.mp h
    obtain ⟨rfl, hplace⟩ := inLab_inj.mp he
    exact .written hx hr hplace
  | request r now fates =>
    cases r with
    | createLab profileName requester =>
      exact .made (.inl ⟨profileName, requester, rfl⟩) (comparable_labRoot_iff.mp h).symm
    | dispatchNextSchedulerJob => exact .made (.inr rfl) (comparable_labRoot_iff.mp h).symm
    | destroyLab labId' =>
      obtain ⟨⟨lab, hlab, halive⟩, hpre⟩ := h
      obtain rfl := labRoot_prefix_inLab.mp hpre
      exact .destroyed hlab halive
    | createSnapshot labId' runId requester =>
      obtain ⟨⟨lab, hlab, hcontainer⟩, hrun, hplace⟩ := h
      rw [SnapshotManager.archivePath_inLab, SnapshotManager.manifestPath_inLab, inLab_prefix_iff, inLab_inj,
        inLab_inj] at hplace
      rcases hplace with ⟨rfl, hpre⟩ | ⟨rfl, he⟩ | ⟨rfl, he⟩
      · exact .archived hlab hcontainer hrun (.inl hpre)
      · exact .archived hlab hcontainer hrun (.inr (.inl he))
      · exact .archived hlab hcontainer hrun (.inr (.inr he))
    | restoreSnapshot snapshotId labId' requester =>
      obtain ⟨snapshot, lab, hsnapshot, hlab, hrestorable, hcomp | he⟩ := h
      · obtain ⟨rfl, hplace⟩ := comparable_inLab_iff.mp hcomp
        exact .restored hsnapshot hlab hrestorable hplace
      · rw [SnapshotManager.manifestPath_inLab] at he
        exact .described (inLab_inj.mp he).2
    | createExport labId' sourcePath runId requester =>
      obtain ⟨hdir, hcomp⟩ := h
      obtain ⟨rfl, hplace⟩ := comparable_inLab_iff.mp hcomp
      exact .staged hdir hplace
    | releaseExport exportId =>
      obtain ⟨row, hrow, hgate, hdir, hcomp⟩ := h
      obtain ⟨rfl, hplace⟩ := comparable_inLab_iff.mp hcomp
      exact .released hrow rfl hgate hdir hplace
    | _ => exact False.elim h

/-- **What changes below a directory of artifacts**, in quarantine or released: its lab is made or
destroyed, or an export of that identifier is staged in it or released. -/
theorem changes_place {s : State β} {a : Action β} {labId x id : String} {q : List String}
    (hx : x = "quarantine" ∨ x = "released") (h : Changes env s a (inLab env.root labId (x :: id :: q))) :
    (labId = env.uuid4 s.minted ∧ ∃ r now fates, a = .request r now fates ∧
      ((∃ profileName requester, r = .createLab profileName requester) ∨ r = .dispatchNextSchedulerJob)) ∨
    (∃ now fates, a = .request (.destroyLab labId) now fates) ∨
    (x = "quarantine" ∧ id = env.uuid4 s.minted) ∨
    (∃ now fates, a = .request (.releaseExport id) now fates) ∧ x = "released" ∧
      ∃ row, s.store.exports.get? id = some row ∧ row.labId = labId ∧
        row.state ≠ .rejected ∧ row.state ≠ .released ∧ row.approvalRequired = false := by
  have hsnapshots : x ≠ "snapshots" := by rcases hx with rfl | rfl <;> decide
  have hworkspace : x ≠ "workspace" := by rcases hx with rfl | rfl <;> decide
  have hexports : x ≠ "exports" := by rcases hx with rfl | rfl <;> decide
  cases changesLab_of_changes h with
  | written area _ place =>
    obtain ⟨rfl, -⟩ := List.cons.inj place
    exact absurd area (by simp [hworkspace, hexports])
  | made request new => exact .inl ⟨new, _, _, _, rfl, request⟩
  | destroyed => exact .inr (.inl ⟨_, _, rfl⟩)
  | archived _ _ _ place => simp [hsnapshots] at place
  | restored _ _ _ place => simp [hworkspace, Ne.symm hworkspace] at place
  | described place => simp [hsnapshots] at place
  | staged _ place =>
    simp only [List.cons_prefix_cons] at place
    obtain ⟨rfl, rfl⟩ : x = "quarantine" ∧ id = env.uuid4 s.minted :=
      place.elim (fun place => ⟨place.1.symm, place.2.1.symm⟩) fun place => ⟨place.1, place.2.1⟩
    exact .inr (.inr (.inl ⟨rfl, rfl⟩))
  | @released exportId now fates row found of gate dir place =>
    simp only [List.cons_prefix_cons] at place
    obtain ⟨rfl, rfl⟩ : x = "released" ∧ id = exportId :=
      place.elim (fun place => ⟨place.1.symm, place.2.1.symm⟩) fun place => ⟨place.1, place.2.1⟩
    exact .inr (.inr (.inr ⟨⟨now, fates, rfl⟩, rfl, row, found, of, gate⟩))

/-- **The places of an artifact**, in quarantine and released, change only when its lab is destroyed or it
is released. -/
theorem changes_artifact {s : State β} {a : Action β} {row : ExportRow} {x : String} {q : List String}
    (hs : SoundState env s) (hrow : s.store.exports.get? row.id = some row)
    (hx : x = "quarantine" ∨ x = "released")
    (h : Changes env s a (inLab env.root row.labId (x :: row.id :: q))) :
    (∃ now fates, a = .request (.destroyLab row.labId) now fates) ∨
      (∃ now fates, a = .request (.releaseExport row.id) now fates) ∧ x = "released" ∧
        row.state ≠ .rejected ∧ row.state ≠ .released := by
  obtain ⟨htaken, ⟨lab, hlab⟩, -⟩ := hs.exports _ _ hrow
  rcases changes_place hx h with ⟨hnew, -⟩ | hdestroyed | ⟨-, hnew⟩ |
    ⟨hreleased, hplace, row', hrow', -, hgate⟩
  · exact absurd hnew ((hs.labs _ _ hlab).ne_uuid4 le_rfl)
  · exact .inl hdestroyed
  · exact absurd hnew (htaken.ne_uuid4 le_rfl)
  · obtain rfl := Option.some.inj (hrow'.symm.trans hrow)
    exact .inr ⟨hreleased, hplace, hgate.1, hgate.2.1⟩

theorem healthy_of_step {s : State β} {a : Action β} (hcarry : Carries env good) (hs : Healthy env good s)
    (hbrings : Brings env good s a) : Healthy env good (step env s a) :=
  ⟨sound_of_step hs.sound a, (keeps_of_step hs.sound hcarry hbrings hs.tidy).1⟩

/-- Where the system starts nothing is in the tree of any lab. -/
theorem healthy_of_initial {s : State β} (h : Initial env s) : Healthy env good s := by
  have hnone : ∀ labId q e, s.tree.lookup (inLab env.root labId q) ≠ some e := by
    intro labId q e he
    have hbelow : strictlyBelow env.root (inLab env.root labId q) = true := by
      simp [strictlyBelow, inLab, labRoot]
    rw [h.unused _ hbelow] at he
    cases he
  refine ⟨?_, h.tree, fun p e he => ?_⟩
  · show Sound env s.minted s.store
    rw [h.store]
    exact sound_empty.mono (Nat.zero_le _)
  · cases e with
    | dir =>
      rintro labId x id name - rfl
      exact hnone _ _ _ he
    | file b =>
      refine ⟨?_, ?_, ?_⟩
      · rintro labId q rfl
        exact absurd he (hnone _ _ _)
      · rintro labId sid rfl
        rw [SnapshotManager.archivePath_inLab] at he
        exact absurd he (hnone _ _ _)
      · rintro labId sid rfl
        rw [SnapshotManager.manifestPath_inLab] at he
        exact absurd he (hnone _ _ _)
    | symlink tgt =>
      left
      rintro (hbelow | habove)
      · by_cases hp : p = env.root
        · exact h.noLink p (hp ▸ List.prefix_rfl) tgt he
        · rw [h.unused p (by simpa [strictlyBelow, hbelow] using fun h => hp h.symm)] at he
          cases he
      · exact h.noLink p habove tgt he

/-- Any content. -/
def anyContent (_ : String) (_ : β) : Prop := True

theorem carries_any : Carries env (anyContent : String → β → Prop) := by
  constructor
  all_goals
    intros
    trivial

theorem brings_any (s : State β) (a : Action β) : Brings env anyContent s a := by
  cases a with
  | guest labId entries => exact fun _ _ _ _ => trivial
  | request r now fates =>
    cases r with
    | restoreSnapshot snapshotId labId requester => exact fun _ _ _ _ _ _ _ => trivial
    | createExport labId sourcePath runId requester => exact fun _ _ _ _ _ => trivial
    | _ => exact trivial

/-- Every reachable state is healthy, whatever the contents. -/
theorem healthy_of_actions {s₀ : State β} (h₀ : Initial env s₀) (actions : List (Action β)) :
    Healthy env anyContent (runFrom env s₀ actions) :=
  Runs.after_keeps (I := Healthy env anyContent)
    (fun s a hs => healthy_of_step carries_any hs (brings_any s a))
    (healthy_of_initial h₀)

end LabOS
