import LabOS.System.Frames

/-!
# Invariants of the rows

What holds of the rows in every reachable state, and every later argument starts from:
no lab is left half destroyed, every identifier in use has been taken, every lab has its
storage row at the paths the allocator lays out, and the paths that exports and
snapshots name are in the directories of their lab.

## What is proved

* `sound_of_effect` — answering a request keeps `Sound`.
* `sound_of_run` — every reachable state is sound.
-/

namespace LabOS

open Exceptional FileOps

variable {β : Type} [Content β] {env : Environment β}

/-- The identifier was taken before the `m`-th. -/
abbrev Taken (env : Environment β) (m : ℕ) (id : String) : Prop := Minted env 0 m id

theorem Minted.taken {m m' : ℕ} {id : String} (h : Minted env m m' id) : Taken env m' id := by
  obtain ⟨n, -, hn, hid⟩ := h
  exact ⟨n, Nat.zero_le n, hn, hid⟩

theorem Taken.mono {m m' : ℕ} {id : String} (h : Taken env m id) (hle : m ≤ m') : Taken env m' id := by
  obtain ⟨n, hn, hm, hid⟩ := h
  exact ⟨n, hn, hm.trans_le hle, hid⟩

/-- An identifier that is taken next is not one of those taken before. -/
theorem Taken.ne_uuid4 {m n : ℕ} {id : String} (h : Taken env m id) (hn : m ≤ n) : id ≠ env.uuid4 n := by
  rintro rfl
  obtain ⟨k, -, hk, he⟩ := h
  exact absurd (env.uuid4_injective he) (by omega)

theorem Taken.isIdentifier {m : ℕ} {id : String} (h : Taken env m id) : isIdentifier id = true := by
  obtain ⟨n, -, -, rfl⟩ := h
  exact env.uuid4_isIdentifier n

/-- The rows of a reachable state when `m` identifiers have been taken. -/
structure Sound (env : Environment β) (m : ℕ) (st : Store) : Prop where
  quiet : Quiet st
  labs : ∀ id lab, st.labs.get? id = some lab → Taken env m id
  runs : ∀ id run, st.runs.get? id = some run → Taken env m id
  leases : ∀ id lease, st.secretLeases.get? id = some lease → Taken env m id
  stored : ∀ id lab, st.labs.get? id = some lab → ∃ storage, st.labStorage.get? id = some storage
  layout : ∀ id storage, st.labStorage.get? id = some storage →
    AtLayout env.root storage ∧ ∃ lab, st.labs.get? id = some lab
  exports : ∀ id row, st.exports.get? id = some row → Taken env m id ∧
    (∃ lab, st.labs.get? row.labId = some lab) ∧
    ∃ name, row.quarantinePath =
      ManagedStorageAllocator.labRoot env.root row.labId ++ ["quarantine", id, name]
  snapshots : ∀ id row, st.snapshots.get? id = some row →
    Taken env m id ∧ (∃ lab, st.labs.get? row.labId = some lab ∧ lab.runtimeClass = .container) ∧
    row.backendRef =
      SnapshotManager.archivePath (ManagedStorageAllocator.labRoot env.root row.labId ++ ["snapshots"]) id

theorem sound_empty : Sound env 0 Store.empty := by
  constructor <;> (intro id row h; cases h)

section Effects

variable {now : ℤ} {r : Request β} {m m' : ℕ} {st st' : Store}

theorem labs_of_effect {id : String} {lab : LabRow} (h : Effect env now r m m' st st')
    (hlab : st.labs.get? id = some lab) : ∃ lab', st'.labs.get? id = some lab' ∧
      lab'.runtimeClass = lab.runtimeClass := by
  obtain ⟨lab', hlab', hmove⟩ := labMove_of_effect h hlab
  refine ⟨lab', hlab', ?_⟩
  cases hmove with
  | swept _ swept => exact swept.runtime
  | _ => rfl

/-- No request leaves a lab half destroyed. -/
theorem quiet_of_effect (h : Effect env now r m m' st st') (hst : Quiet st) : Quiet st' := by
  intro id lab' hlab' hstate
  rcases lab_of_effect h hlab' with ⟨lab, hlab⟩ | ⟨profileName, requester, storage, -, new⟩
  · obtain ⟨lab₁, hlab₁, hmove⟩ := labMove_of_effect h hlab
    obtain rfl := Option.some.inj (hlab₁.symm.trans hlab')
    cases hmove with
    | same => exact hst id _ hlab hstate
    | destroyed => cases hstate
    | @decided decision => cases decision <;> cases hstate
    | swept _ swept =>
      rcases swept.state with hs | ⟨-, hs⟩ | ⟨-, hs⟩
      · exact hst id lab hlab (hs.symm.trans hstate)
      · exact absurd (hs.symm.trans hstate) (by decide)
      · exact absurd (hs.symm.trans hstate) (by decide)
  · obtain ⟨profile, -, -, -, hfirst⟩ := new.profile
    rw [hfirst] at hstate
    split at hstate <;> cases hstate

theorem takenLabs_of_effect (h : Effect env now r m m' st st') (hle : m ≤ m')
    (hst : ∀ id lab, st.labs.get? id = some lab → Taken env m id) :
    ∀ id lab, st'.labs.get? id = some lab → Taken env m' id := by
  intro id lab' hlab'
  rcases lab_of_effect h hlab' with ⟨lab, hlab⟩ | ⟨profileName, requester, storage, -, new⟩
  · exact (hst id lab hlab).mono hle
  · exact Table.key_of_get? hlab' ▸ new.minted.taken

theorem takenRuns_of_effect (h : Effect env now r m m' st st') (hle : m ≤ m')
    (hst : ∀ id run, st.runs.get? id = some run → Taken env m id) :
    ∀ id run, st'.runs.get? id = some run → Taken env m' id := by
  intro id run' hrun'
  cases h with
  | runCreated new | jobMadeRun _ _ _ new =>
    rcases Table.eq_or_of_get?_put hrun' with ⟨rfl, -⟩ | ⟨-, hrun⟩
    · exact new.minted.taken
    · exact (hst id _ hrun).mono hle
  | reconciled sweeps =>
    obtain ⟨run, hrun⟩ := (addsNone_of_sweeps sweeps).runs hrun'
    exact (hst id run hrun).mono hle
  | _ => exact (hst id _ hrun').mono hle

theorem takenLeases_of_effect (h : Effect env now r m m' st st') (hle : m ≤ m')
    (hst : ∀ id lease, st.secretLeases.get? id = some lease → Taken env m id) :
    ∀ id lease, st'.secretLeases.get? id = some lease → Taken env m' id := by
  intro id lease' hlease'
  cases h with
  | leaseIssued new =>
    rcases Table.eq_or_of_get?_put hlease' with ⟨rfl, -⟩ | ⟨-, hlease⟩
    · exact new.minted.taken
    · exact (hst id _ hlease).mono hle
  | leaseRevoked hlease =>
    have hid := Table.key_of_get? hlease
    obtain ⟨lease, hlease⟩ := Table.exists_of_get?_put hlease' hlease hid
    exact (hst id lease hlease).mono hle
  | reconciled sweeps =>
    obtain ⟨lease, hlease⟩ := (addsNone_of_sweeps sweeps).secretLeases hlease'
    exact (hst id lease hlease).mono hle
  | _ => exact (hst id _ hlease').mono hle

/-- Labs come with their storage row, which then stays as it is. -/
theorem labStorage_of_effect (h : Effect env now r m m' st st') :
    (st'.labStorage = st.labStorage ∧ ∀ id lab', st'.labs.get? id = some lab' →
      ∃ lab, st.labs.get? id = some lab) ∨
    ∃ profileName requester lab storage, NewLab env profileName requester m m' st lab storage st'.approvals ∧
      st'.labs = st.labs.put lab ∧ st'.labStorage = st.labStorage.put storage := by
  cases h with
  | labCreated new | jobMadeLab _ _ _ new => exact .inr ⟨_, _, _, _, new, rfl, rfl⟩
  | labDestroyed hlab | labDecided _ _ hlab =>
    have hid := Table.key_of_get? hlab
    exact .inl ⟨rfl, fun _ _ h => Table.exists_of_get?_put h hlab hid⟩
  | reconciled sweeps =>
    exact .inl ⟨(addsNone_of_sweeps sweeps).others.1, fun _ _ => (addsNone_of_sweeps sweeps).labs⟩
  | _ => exact .inl ⟨rfl, fun _ _ h => ⟨_, h⟩⟩

theorem stored_of_effect (h : Effect env now r m m' st st')
    (hst : ∀ id lab, st.labs.get? id = some lab → ∃ storage, st.labStorage.get? id = some storage) :
    ∀ id lab, st'.labs.get? id = some lab → ∃ storage, st'.labStorage.get? id = some storage := by
  intro id lab' hlab'
  rcases labStorage_of_effect h with ⟨hsame, hlabs⟩ | ⟨_, _, lab, storage, new, hlabs, hstorage⟩
  · obtain ⟨lab, hlab⟩ := hlabs id lab' hlab'
    exact hsame ▸ hst id lab hlab
  · rw [hlabs] at hlab'
    rw [hstorage]
    rcases Table.eq_or_of_get?_put hlab' with ⟨rfl, -⟩ | ⟨hne, hlab⟩
    · exact ⟨storage, new.storageOf ▸ Table.get?_put_self _ _⟩
    · obtain ⟨storage', hstorage'⟩ := hst id _ hlab
      exact ⟨storage', (Table.get?_put_ne (new.storageOf ▸ hne)).trans hstorage'⟩

theorem layout_of_effect (h : Effect env now r m m' st st')
    (hst : ∀ id storage, st.labStorage.get? id = some storage →
      AtLayout env.root storage ∧ ∃ lab, st.labs.get? id = some lab) :
    ∀ id storage, st'.labStorage.get? id = some storage →
      AtLayout env.root storage ∧ ∃ lab, st'.labs.get? id = some lab := by
  intro id storage' hstorage'
  have hkept : (∃ lab, st.labs.get? id = some lab) → ∃ lab, st'.labs.get? id = some lab := by
    rintro ⟨lab, hlab⟩
    obtain ⟨lab', hlab', -⟩ := labs_of_effect h hlab
    exact ⟨lab', hlab'⟩
  rcases labStorage_of_effect h with ⟨hsame, -⟩ | ⟨_, _, lab, storage, new, hlabs, hstorage⟩
  · obtain ⟨hlayout, hlab⟩ := hst id storage' (hsame ▸ hstorage')
    exact ⟨hlayout, hkept hlab⟩
  · rw [hstorage] at hstorage'
    rcases Table.eq_or_of_get?_put hstorage' with ⟨rfl, rfl⟩ | ⟨-, hold⟩
    · refine ⟨new.layout, lab, ?_⟩
      rw [hlabs, new.storageOf]
      exact Table.get?_put_self _ _
    · obtain ⟨hlayout, hlab⟩ := hst id storage' hold
      exact ⟨hlayout, hkept hlab⟩

omit [Content β] in
/-- What answering a request does to an export leaves the lab it is of, and its place in quarantine. -/
theorem placed_of_exportMove {row row' : ExportRow} (h : ExportMove now st st' r row row') :
    row'.labId = row.labId ∧ row'.quarantinePath = row.quarantinePath := by
  cases h with
  | @decided decision => cases decision <;> exact ⟨rfl, rfl⟩
  | swept _ swept => rcases swept with rfl | ⟨-, rfl⟩ <;> exact ⟨rfl, rfl⟩
  | _ => exact ⟨rfl, rfl⟩

theorem exports_of_effect (h : Effect env now r m m' st st') (hle : m ≤ m') (hst : Sound env m st) :
    ∀ id row, st'.exports.get? id = some row → Taken env m' id ∧ (∃ lab, st'.labs.get? row.labId = some lab) ∧
      ∃ name, row.quarantinePath =
        ManagedStorageAllocator.labRoot env.root row.labId ++ ["quarantine", id, name] := by
  intro id row' hrow'
  rcases export_of_effect h hrow' with ⟨row, hrow⟩ | ⟨labId, sourcePath, runId, requester, rfl, new⟩
  · obtain ⟨row₁, hrow₁, hmove⟩ := exportMove_of_effect h hrow
    obtain rfl := Option.some.inj (hrow₁.symm.trans hrow')
    obtain ⟨htaken, ⟨lab, hlab⟩, hpath⟩ := hst.exports id row hrow
    obtain ⟨hlabId, hquarantine⟩ := placed_of_exportMove hmove
    obtain ⟨lab', hlab', -⟩ := labs_of_effect h hlab
    rw [hlabId, hquarantine]
    exact ⟨htaken.mono hle, ⟨lab', hlab'⟩, hpath⟩
  · obtain ⟨lab, -, hlab, -⟩ := new.lab
    obtain ⟨storage, name, hstorage, hpath⟩ := new.storage
    obtain ⟨lab', hlab', -⟩ := labs_of_effect h hlab
    obtain ⟨hroot, -, -, hquarantine, -⟩ := (hst.layout labId storage hstorage).1
    have hid : row'.id = id := Table.key_of_get? hrow'
    have hlabId : storage.labId = labId := Table.key_of_get? hstorage
    refine ⟨hid ▸ new.minted.taken, new.labId ▸ ⟨lab', hlab'⟩, name, ?_⟩
    rw [hpath, hquarantine, hroot, hlabId, new.labId, hid]
    simp

theorem snapshots_of_effect (h : Effect env now r m m' st st') (hle : m ≤ m') (hst : Sound env m st) :
    ∀ id row, st'.snapshots.get? id = some row →
      Taken env m' id ∧ (∃ lab, st'.labs.get? row.labId = some lab ∧ lab.runtimeClass = .container) ∧
      row.backendRef =
        SnapshotManager.archivePath
          (ManagedStorageAllocator.labRoot env.root row.labId ++ ["snapshots"]) id := by
  intro id row hrow
  have hold : st.snapshots.get? id = some row → Taken env m' id ∧
      (∃ lab, st'.labs.get? row.labId = some lab ∧ lab.runtimeClass = .container) ∧ row.backendRef =
        SnapshotManager.archivePath
          (ManagedStorageAllocator.labRoot env.root row.labId ++ ["snapshots"]) id := by
    intro hrow
    obtain ⟨htaken, ⟨lab, hlab, hruntime⟩, hpath⟩ := hst.snapshots id row hrow
    obtain ⟨lab', hlab', hsame⟩ := labs_of_effect h hlab
    exact ⟨htaken.mono hle, ⟨lab', hlab', hsame.trans hruntime⟩, hpath⟩
  cases h with
  | snapshotCreated new =>
    rcases Table.eq_or_of_get?_put hrow with ⟨rfl, rfl⟩ | ⟨-, hrow⟩
    · obtain ⟨lab, hlab, hruntime⟩ := new.lab
      obtain ⟨storage, hstorage, hpath⟩ := new.storage
      obtain ⟨hroot, -, -, -, hsnapshots⟩ := (hst.layout _ storage hstorage).1
      have hlabId := Table.key_of_get? hstorage
      refine ⟨new.minted.taken, ⟨lab, by rw [new.labId]; exact hlab, hruntime⟩, ?_⟩
      rw [hpath, hsnapshots, hroot, hlabId, new.labId]
    · exact hold hrow
  | reconciled sweeps => exact hold ((addsNone_of_sweeps sweeps).others.2.1 ▸ hrow)
  | _ => exact hold hrow

/-- **Answering a request keeps the rows sound.** -/
theorem sound_of_effect (h : Effect env now r m m' st st') (hle : m ≤ m') (hst : Sound env m st) :
    Sound env m' st' where
  quiet := quiet_of_effect h hst.quiet
  labs := takenLabs_of_effect h hle hst.labs
  runs := takenRuns_of_effect h hle hst.runs
  leases := takenLeases_of_effect h hle hst.leases
  stored := stored_of_effect h hst.stored
  layout := layout_of_effect h hst.layout
  exports := exports_of_effect h hle hst
  snapshots := snapshots_of_effect h hle hst

end Effects

/-! ### Runs -/

/-- The frame of any changes. -/
def anything : Frame (FileTree β) where
  rel _ _ := True
  refl _ := trivial
  trans _ _ := trivial

/-- Identifiers are never given back. -/
theorem minted_le_answer {s : State β} (hquiet : Quiet s.store) (r : Request β) (now : ℤ)
    (fates : List Fate) :
    s.minted ≤ (endState (answer env s r now fates)).minted := by
  have hwork : DiskWork env now anything (s.session fates) r := by
    cases r with
    | reconcile => exact hquiet
    | createSecretLease | revokeSecretLease | createRun | enqueueSchedulerJob | approveRequest | denyRequest
    | denyExport => exact trivial
    | createLab | dispatchNextSchedulerJob => exact fun _ => trivial
    | destroyLab => exact fun _ _ _ _ _ _ _ => trivial
    | createSnapshot | createExport => exact fun _ _ _ _ _ => trivial
    | releaseExport => exact fun _ _ _ _ => trivial
    | restoreSnapshot => exact fun _ _ _ _ _ _ => trivial
  exact (within_respond hwork).2

/-- A state whose rows are sound. -/
abbrev SoundState (env : Environment β) (s : State β) : Prop := Sound env s.minted s.store

theorem sound_of_step {s : State β} (hs : SoundState env s) (a : Action β) :
    SoundState env (step env s a) := by
  cases a with
  | request r now fates =>
    exact sound_of_effect (effect_of_answer env s r now fates) (minted_le_answer hs.quiet r now fates) hs
  | guest labId entries => exact hs

theorem Sound.mono {m m' : ℕ} {st : Store} (h : Sound env m st) (hle : m ≤ m') : Sound env m' st :=
  { h with
    labs := fun id lab hlab => (h.labs id lab hlab).mono hle
    runs := fun id run hrun => (h.runs id run hrun).mono hle
    leases := fun id lease hlease => (h.leases id lease hlease).mono hle
    exports := fun id row hrow => (h.exports id row hrow).imp_left fun ht => ht.mono hle
    snapshots := fun id row hrow => (h.snapshots id row hrow).imp_left fun ht => ht.mono hle }

/-- **Every reachable state is sound.** -/
theorem sound_of_run {s₀ : State β} (h₀ : Initial env s₀) (actions : List (Action β)) :
    SoundState env (runFrom env s₀ actions) := by
  refine Runs.after_keeps (I := SoundState env) (fun s a hs => sound_of_step hs a) ?_
  show Sound env s₀.minted s₀.store
  rw [h₀.store]
  exact sound_empty.mono (Nat.zero_le _)

end LabOS
