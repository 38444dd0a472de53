import LabOS.Api.Reads
import LabOS.System.Captures
import LabOS.System.Leases
import LabOS.System.Queue
import LabOS.System.References

/-!
# What is read

The listings are queries, and so is what the workers take their rows by: what is dispatched next is in the
listing of the jobs, what a runtime is given in that of the leases. A snapshot is listed with its manifest, so a
manifest that cannot be read would take the whole listing with it.

## What is proved

* `reads_agree` — **the listings of labs, runs, approvals, exports, leases and jobs are complete**, what is
  asked for by its id is what is listed, and the workers take what is listed first.
* `snapshots_listed` — **the snapshots are listed**, each with what was last reported of it while that is there.
-/

namespace LabOS

open Exceptional FileOps FileTree ManagedStorageAllocator

variable {β : Type} [Content β] {env : Environment β}

/-! ### Orders -/

section Orders

variable {ρ : Type} {createdAt : ρ → DateTime} {id : ρ → String}

instance : Std.Total (ReconciliationService.before createdAt id) := ⟨fun a b => by
  rcases lt_trichotomy (createdAt a).wall (createdAt b).wall with h | h | h
  · exact .inl (.inl h)
  · exact (le_total (id a) (id b)).imp (fun hid => .inr ⟨h, hid⟩) fun hid => .inr ⟨h.symm, hid⟩
  · exact .inr (.inl h)⟩

instance : IsTrans ρ (ReconciliationService.before createdAt id) := ⟨fun a b c hab hbc => by
  rcases hab with hab | ⟨hab, hid⟩ <;> rcases hbc with hbc | ⟨hbc, hid'⟩
  · exact .inl (hab.trans hbc)
  · exact .inl (hab.trans_eq hbc)
  · exact .inl (hab.trans_lt hbc)
  · exact .inr ⟨hab.trans hbc, hid.trans hid'⟩⟩

theorem id_of_lease_before {a b : SecretLeaseRow} (h : SecretLeaseService.before a b)
    (h' : SecretLeaseService.before b a) : a.id = b.id := by
  rcases h with h | ⟨h, hid⟩ <;> rcases h' with h' | ⟨h', hid'⟩
  · exact absurd h' h.asymm
  · exact absurd h' h.ne'
  · exact absurd h h'.ne'
  · exact le_antisymm hid hid'

theorem id_of_job_before {a b : SchedulerJobRow} (h : SchedulerService.before a b)
    (h' : SchedulerService.before b a) : a.id = b.id := by
  rcases h with h | ⟨h, hin⟩ <;> rcases h' with h' | ⟨h', hin'⟩
  · exact absurd h' h.asymm
  · exact absurd h' h.ne'
  · exact absurd h h'.ne'
  · rcases hin with hin | ⟨hin, hid⟩ <;> rcases hin' with hin' | ⟨hin', hid'⟩
    · exact absurd hin' hin.asymm
    · exact absurd hin' hin.ne'
    · exact absurd hin hin'.ne'
    · exact le_antisymm hid hid'

end Orders

/-! ### Listings -/

/-- The rows of a table that pass a test, each once and in order. -/
structure Lists {ρ : Type} {key : ρ → String} (t : Table key) (p : ρ → Bool) (before : ρ → ρ → Prop)
    (rows : List ρ) : Prop where
  once : (rows.map key).Nodup
  inOrder : rows.Pairwise before
  complete : ∀ row, row ∈ rows ↔ row ∈ t.rows ∧ p row = true

omit [Content β] in
theorem lists_select {ρ : Type} {key : ρ → String} (t : Table key) (p : ρ → Bool) (before : ρ → ρ → Prop)
    [DecidableRel before] [Std.Total before] [IsTrans ρ before] : Lists t p before (t.select p before) where
  once := t.nodup_select p before
  inOrder := t.pairwise_select p before
  complete _ := Table.mem_select

omit [Content β] in
/-- What is listed beside its storage is what is found by its id. -/
theorem getLab_eq_ok {labId : String} {entry : LabRow × LabStorageRow} {s s' : Session β} :
    App.getLab labId s = .ok entry s' ↔ s.store.labs.get? labId = some entry.1 ∧
      s.store.labStorage.get? labId = some entry.2 ∧ s = s' := by
  unfold App.getLab
  simp only [bind_eq_ok, getOr_eq_ok, pure_eq_ok]
  constructor
  · rintro ⟨lab, _, ⟨hlab, rfl⟩, storage, _, ⟨hstorage, rfl⟩, rfl, rfl⟩
    rw [Table.key_of_get? hlab] at hstorage
    exact ⟨hlab, hstorage, rfl⟩
  · rintro ⟨hlab, hstorage, rfl⟩
    exact ⟨entry.1, _, ⟨hlab, rfl⟩, entry.2, _,
      ⟨by rw [Table.key_of_get? hlab]; exact hstorage, rfl⟩, rfl, rfl⟩

/-- **What is read of a state** is its rows, and what the workers take. -/
structure Readable (s : Session β) : Prop where
  /-- Every lab is listed with its storage, and found by its id as it is listed. -/
  labs : ∃ labs, App.listLabs s = .ok labs s ∧
    Lists s.store.labs (fun _ => true) (ReconciliationService.before LabRow.createdAt LabRow.id)
      (labs.map Prod.fst) ∧
    ∀ labId entry, App.getLab labId s = .ok entry s ↔ entry ∈ labs ∧ entry.1.id = labId
  /-- No lab is found without its storage. -/
  missing : ∀ labId e s', App.getLab labId s = .error e s' →
    e = .resourceNotFound "lab" ∧ s.store.labs.get? labId = none
  runs : ∃ runs, App.listRuns s = .ok runs s ∧
    Lists s.store.runs (fun _ => true) (ReconciliationService.before RunRow.createdAt RunRow.id) runs ∧
    ∀ runId run, App.getRun runId s = .ok run s ↔ run ∈ runs ∧ run.id = runId
  approvals : ∃ approvals, App.listApprovals s = .ok approvals s ∧
    Lists s.store.approvals (fun _ => true)
      (ReconciliationService.before ApprovalRow.createdAt ApprovalRow.id) approvals
  exports : ∃ exports, App.listExports s = .ok exports s ∧
    Lists s.store.exports (fun _ => true)
      (ReconciliationService.before ExportRow.createdAt ExportRow.id) exports
  /-- Every lease is listed with its lab. -/
  leased : ∀ lease ∈ s.store.secretLeases.rows, ∃ leases,
    App.listSecretLeases lease.labId s = .ok leases s ∧ lease ∈ leases
  /-- A runtime of the lab is given the leases of the listing that are live, in their order. -/
  leases : ∀ labId leases, App.listSecretLeases labId s = .ok leases s →
    Lists s.store.secretLeases (fun row => row.labId = labId) SecretLeaseService.before leases ∧
    ∀ now, SecretLeaseService.liveLeases s.store now labId =
      leases.filter fun row => row.approved && row.revokedAt.isNone && now < row.expiresAt.wall
  /-- The job that is dispatched next is the first of the listing that is due. -/
  jobs : ∃ jobs, App.listSchedulerJobs s = .ok jobs s ∧
    Lists s.store.schedulerJobs (fun _ => true) SchedulerService.before jobs ∧
    ∀ now, SchedulerService.nextJob s.store now =
      jobs.find? fun job => job.state = .queued && job.scheduledFor.wall ≤ now

section Listed

variable {s : Session β}

omit [Content β] in
theorem exists_of_forall₂ {ρ γ : Type} {P : ρ → γ → Prop} {rows : List ρ} {found : List γ} {y : γ}
    (h : List.Forall₂ P rows found) (hy : y ∈ found) : ∃ row ∈ rows, P row y := by
  induction h with
  | nil => cases hy
  | cons hP _ ih =>
    rcases List.mem_cons.mp hy with rfl | hy
    · exact ⟨_, List.mem_cons_self, hP⟩
    · obtain ⟨row, hrow, hP⟩ := ih hy
      exact ⟨row, List.mem_cons_of_mem _ hrow, hP⟩

omit [Content β] in
/-- The labs are listed, and each is found as it is listed. -/
theorem labs_listed (h : References s.store) : ∃ labs, App.listLabs s = .ok labs s ∧
    Lists s.store.labs (fun _ => true) (ReconciliationService.before LabRow.createdAt LabRow.id)
      (labs.map Prod.fst) ∧
    ∀ labId entry, App.getLab labId s = .ok entry s ↔ entry ∈ labs ∧ entry.1.id = labId := by
  obtain ⟨labs, hlisted, hentries⟩ := listLabs_eq_ok h
  have hrows : labs.map Prod.fst = labsInOrder s.store := by
    have heq : List.Forall₂ (· = ·) (labsInOrder s.store) (labs.map Prod.fst) :=
      List.forall₂_map_right_iff.mpr (hentries.imp fun lab entry hentry => hentry.1.symm)
    exact (List.forall₂_eq_eq_eq ▸ heq : labsInOrder s.store = labs.map Prod.fst).symm
  refine ⟨labs, hlisted, hrows ▸ lists_select _ _ _, fun labId entry => ?_⟩
  have hstored : ∀ entry ∈ labs, s.store.labStorage.get? entry.1.id = some entry.2 := by
    intro entry hentry
    obtain ⟨lab, -, hfst, hstorage⟩ := exists_of_forall₂ hentries hentry
    rw [hfst]
    exact hstorage
  rw [getLab_eq_ok]
  constructor
  · rintro ⟨hlab, hstorage, -⟩
    have hid : entry.1.id = labId := Table.key_of_get? hlab
    have hmem : entry.1 ∈ labs.map Prod.fst := by
      rw [hrows]
      exact Table.mem_select.mpr ⟨Table.mem_of_get? hlab, rfl⟩
    obtain ⟨entry', hentry', heq⟩ := List.mem_map.mp hmem
    have hsame := hstored entry' hentry'
    rw [heq, hid, hstorage] at hsame
    exact ⟨(Prod.ext heq (Option.some.inj hsame).symm : entry' = entry) ▸ hentry', hid⟩
  · rintro ⟨hentry, rfl⟩
    have hmem : entry.1 ∈ labs.map Prod.fst := List.mem_map_of_mem hentry
    rw [hrows] at hmem
    exact ⟨(get?_of_mem_select hmem).2, hstored entry hentry, rfl⟩

omit [Content β] in
/-- No lab is found without its storage. -/
theorem lab_missing (h : References s.store) {labId : String} {e : Exc} {s' : Session β}
    (hmissing : App.getLab labId s = .error e s') :
    e = .resourceNotFound "lab" ∧ s.store.labs.get? labId = none := by
  rcases bind_eq_error.mp hmissing with hlab | ⟨lab, s₁, hlab, hrest⟩
  · obtain ⟨hnone, rfl, -⟩ := getOr_eq_error.mp hlab
    exact ⟨rfl, hnone⟩
  · rw [getOr_eq_ok] at hlab
    obtain ⟨hlab, rfl⟩ := hlab
    obtain ⟨storage, hstorage⟩ := h.storage _ _ hlab
    rcases bind_eq_error.mp hrest with hnone | ⟨_, _, -, hreturn⟩
    · obtain ⟨hnone, -⟩ := getOr_eq_error.mp hnone
      rw [Table.key_of_get? hlab] at hnone
      cases hstorage.symm.trans hnone
    · cases hreturn

omit [Content β] in
theorem runs_listed : ∃ runs, App.listRuns s = .ok runs s ∧
    Lists s.store.runs (fun _ => true) (ReconciliationService.before RunRow.createdAt RunRow.id) runs ∧
    ∀ runId run, App.getRun runId s = .ok run s ↔ run ∈ runs ∧ run.id = runId := by
  refine ⟨_, rfl, lists_select _ _ _, fun runId run => getOr_eq_ok.trans ?_⟩
  constructor
  · rintro ⟨hrun, -⟩
    exact ⟨Table.mem_select.mpr ⟨Table.mem_of_get? hrun, rfl⟩, Table.key_of_get? hrun⟩
  · rintro ⟨hrun, rfl⟩
    exact ⟨Table.get?_of_mem (Table.mem_select.mp hrun).1, rfl⟩

omit [Content β] in
/-- The leases of a lab are listed where the lab is there. -/
theorem listSecretLeases_eq_ok {labId : String} {leases : List SecretLeaseRow} {s' : Session β} :
    App.listSecretLeases labId s = .ok leases s' ↔ (∃ lab, s.store.labs.get? labId = some lab) ∧
      leases = s.store.secretLeases.select
        (fun row => row.labId = labId) SecretLeaseService.before ∧ s = s' := by
  unfold App.listSecretLeases
  simp only [bind_eq_ok, getOr_eq_ok, pure_eq_ok, get_eq_ok]
  constructor
  · rintro ⟨lab, _, ⟨hlab, rfl⟩, _, _, ⟨rfl, rfl⟩, rfl, rfl⟩
    exact ⟨⟨lab, hlab⟩, rfl, rfl⟩
  · rintro ⟨⟨lab, hlab⟩, rfl, rfl⟩
    exact ⟨lab, _, ⟨hlab, rfl⟩, _, _, ⟨rfl, rfl⟩, rfl, rfl⟩

omit [Content β] in
/-- **What a runtime is given is in the listing** of its lab. -/
theorem liveLeases_eq_filter (st : Store) (now : ℤ) (labId : String) :
    SecretLeaseService.liveLeases st now labId =
      (st.secretLeases.select (fun row => row.labId = labId) SecretLeaseService.before).filter
        fun row => row.approved && row.revokedAt.isNone && now < row.expiresAt.wall := by
  rw [Table.filter_select _ _ _ SecretLeaseService.before fun _ _ => id_of_lease_before]
  refine congrArg (st.secretLeases.select · SecretLeaseService.before) (funext fun row => ?_)
  simp only [SecretLeaseService.isLive, Bool.and_assoc]

omit [Content β] in
/-- **What is dispatched next is in the listing** of the jobs, the first that is due. -/
theorem nextJob_eq_find? (st : Store) (now : ℤ) :
    SchedulerService.nextJob st now =
      (SchedulerService.listJobs st).find? fun job => job.state = .queued && job.scheduledFor.wall ≤ now := by
  rw [SchedulerService.nextJob, SchedulerService.listJobs, ← List.head?_filter,
    Table.filter_select _ _ _ SchedulerService.before fun _ _ => id_of_job_before]
  simp only [Bool.true_and]

omit [Content β] in
/-- **Where every reference leads to a row, the listings are complete.** -/
theorem readable_of_references (h : References s.store) : Readable s where
  labs := labs_listed h
  missing _ _ _ hmissing := lab_missing h hmissing
  runs := runs_listed
  approvals := ⟨_, rfl, lists_select _ _ _⟩
  exports := ⟨_, rfl, lists_select _ _ _⟩
  leased lease hlease :=
    ⟨_, listSecretLeases_eq_ok.mpr ⟨h.leases _ lease (Table.get?_of_mem hlease), rfl, rfl⟩,
      Table.mem_select.mpr ⟨hlease, decide_eq_true rfl⟩⟩
  leases labId leases hlisted := by
    obtain ⟨-, rfl, -⟩ := listSecretLeases_eq_ok.mp hlisted
    exact ⟨lists_select _ _ _, fun now => liveLeases_eq_filter s.store now labId⟩
  jobs := ⟨_, rfl, lists_select _ _ _, nextJob_eq_find? s.store⟩

end Listed

/-- **The listings are complete.** In every run, whatever is asked for, the listings of labs, runs, approvals,
exports, jobs and the leases of a lab return each row once and in the order of their queries; labs and runs are
found by their ids as they are listed; and what a runtime is given and what is dispatched next are what is listed
first among the rows they may take. -/
theorem reads_agree (env : Environment β) (s₀ : State β) (h₀ : Initial env s₀) (actions : List (Action β))
    (fates : List Fate) : Readable ((runFrom env s₀ actions).session fates) :=
  readable_of_references (references_of_run h₀ actions)

/-- Both labs of the run are listed, each once. -/
theorem reads_agree_restoredTwiceRun :
    ∃ labs, App.listLabs ((runFrom (symbolic defaultProfiles) emptyState restoredTwiceRun).session []) =
        .ok labs ((runFrom (symbolic defaultProfiles) emptyState restoredTwiceRun).session []) ∧
      ((labs.map Prod.fst).map LabRow.id).Nodup ∧ ∃ entry ∈ labs, entry.1.id = "aaa" := by
  have hread := reads_agree (symbolic defaultProfiles) emptyState (initial_emptyState defaultProfiles)
    restoredTwiceRun []
  obtain ⟨labs, hlisted, hlists, hfound⟩ := hread.labs
  have hthere : returns (fun entry _ => entry.1.id = "aaa")
      (App.getLab "aaa" ((runFrom (symbolic defaultProfiles) emptyState restoredTwiceRun).session [])) =
        true := by
    decide +kernel
  obtain ⟨entry, s', hget, -⟩ := returns_eq_true.mp hthere
  obtain ⟨-, -, rfl⟩ := getLab_eq_ok.mp hget
  exact ⟨labs, hlisted, hlists.once, entry, (hfound "aaa" entry).mp hget⟩

/-! ### Manifests that are gone -/

section Gone

variable {s : State β} {a : Action β} {row : SnapshotRow} {last : Option SnapshotMetadata}

/-- The manifest of a snapshot holds what was last reported of it, or is gone, as it may be where its lab was
not spared. -/
def Stands (env : Environment β) (row : SnapshotRow) (spared : Prop) (last : Option SnapshotMetadata)
    (t : FileTree β) : Prop :=
  (∃ metadata, last = some metadata ∧ Described env t row metadata) ∨
    t.lookup (SnapshotManager.manifestPathFor row) = none ∧ ¬ spared

/-- A manifest that is gone is not loaded. -/
theorem loadMetadata_of_gone (hs : Healthy env anyContent s)
    (hrow : s.store.snapshots.get? row.id = some row)
    (h : s.tree.lookup (SnapshotManager.manifestPathFor row) = none) (fates : List Fate) :
    SnapshotManager.loadMetadata env row ⟨s.tree, fates⟩ = .ok none ⟨s.tree, fates⟩ := by
  have hgone : s.tree.stat (SnapshotManager.manifestPathFor row) = none := by
    cases hstat : s.tree.stat (SnapshotManager.manifestPathFor row) with
    | none => rfl
    | some e =>
      have hthere := ((firm_manifestPathFor hs.sound hrow).leads hs.tidy).lookup_of_stat hstat
      cases h.symm.trans hthere
  have hthere : files (pathExists (SnapshotManager.manifestPathFor row)) ⟨s.tree, fates⟩ =
      .ok false ⟨s.tree, fates⟩ :=
    files_eq_ok.mpr (look_run (by rw [hgone]; rfl) fates)
  rw [SnapshotManager.loadMetadata, bind_run_of_ok hthere]
  rfl

/-- **What is loaded** is what was last reported, while its manifest is there. -/
theorem loadMetadata_of_stands {spared : Prop} (hs : Healthy env anyContent s)
    (hrow : s.store.snapshots.get? row.id = some row) (h : Stands env row spared last s.tree)
    (fates : List Fate) :
    ∃ loaded, SnapshotManager.loadMetadata env row ⟨s.tree, fates⟩ = .ok loaded ⟨s.tree, fates⟩ ∧
      (loaded = none ∨ loaded = last) ∧ (spared → loaded = last ∧ last.isSome = true) := by
  rcases h with ⟨metadata, rfl, hdescribed⟩ | ⟨hgone, hspared⟩
  · exact ⟨some metadata, SnapshotManager.loadMetadata_of_described hs.tidy.tree hdescribed fates, .inr rfl,
      fun _ => ⟨rfl, rfl⟩⟩
  · exact ⟨none, loadMetadata_of_gone hs hrow hgone fates, .inl rfl, fun h => absurd h hspared⟩

/-- A restore of which something is reported has left the manifest that says so. -/
theorem described_of_reported {spared : Prop} {labId : String} {requester : RequesterType} {now : ℤ}
    {fates : List Fate} {restored : SnapshotMetadata} (hs : Healthy env anyContent s)
    (hrow : s.store.snapshots.get? row.id = some row) (h : Stands env row spared last s.tree)
    (hreported : reported env row.id s (.request (.restoreSnapshot row.id labId requester) now fates) =
      some restored) :
    Described env (step env s (.request (.restoreSnapshot row.id labId requester) now fates)).tree row
      restored := by
  rcases h with ⟨metadata, -, hdescribed⟩ | ⟨hgone, -⟩
  · exact described_of_restore hs hrow hreported hdescribed
  · -- of a manifest that is gone nothing can be reported
    rw [reported, if_pos rfl] at hreported
    simp only [Option.bind_eq_bind, Option.bind_eq_some_iff] at hreported
    obtain ⟨row', hrow', lab, -, storage, -, hreturned⟩ := hreported
    obtain rfl : row = row' := Option.some.inj (hrow.symm.trans hrow')
    obtain ⟨d, hrestored⟩ := returned_eq_some.mp hreturned
    obtain ⟨loaded, hloaded, -⟩ := SnapshotManager.written_of_restoreSnapshot hrestored
    have hread := loadMetadata_of_gone hs hrow hgone fates
    cases (EStateM.Result.ok.inj (hloaded.symm.trans hread)).1

/-- **A manifest stands, or is gone with its lab**, after a step that does not cut it short. -/
theorem stands_of_step {spared : Prop} (hs : Healthy env anyContent s)
    (hrow : s.store.snapshots.get? row.id = some row) (hmanifest : SparesManifest env row s a)
    (h : Stands env row spared last s.tree) :
    Stands env row (spared ∧ SparesLab env row.labId s a) ((reported env row.id s a).or last)
      (step env s a).tree := by
  have hsame : (step env s a).tree.lookup (SnapshotManager.manifestPathFor row) =
      s.tree.lookup (SnapshotManager.manifestPathFor row) →
      Stands env row (spared ∧ SparesLab env row.labId s a) last (step env s a).tree := by
    intro hsame
    rcases h with ⟨metadata, hlast, hdescribed⟩ | ⟨hgone, hspared⟩
    · exact .inl ⟨metadata, hlast, hdescribed.manifestPath, hsame.trans hdescribed.written⟩
    · exact .inr ⟨hsame.trans hgone, fun hboth => hspared hboth.1⟩
  by_cases hrestore : ∃ target requester now fates,
      a = .request (.restoreSnapshot row.id target requester) now fates
  · obtain ⟨target, requester, now, fates, rfl⟩ := hrestore
    cases hreported : reported env row.id s
      (.request (.restoreSnapshot row.id target requester) now fates) with
    | some restored => exact .inl ⟨restored, rfl, described_of_reported hs hrow h hreported⟩
    | none =>
      rw [Option.none_or]
      refine hsame ((hmanifest rfl).resolve_left ?_)
      rw [hreported]
      simp
  · have hother : ∀ target requester now fates,
        a ≠ .request (.restoreSnapshot row.id target requester) now fates := by
      simpa using hrestore
    rw [reported_of_other hs.sound hrow hother, Option.none_or]
    by_cases hspared : SparesLab env row.labId s a
    · exact hsame (lookup_manifest_of_step hs hrow hspared hother)
    · -- the step destroys the lab, and so at most removes the manifest
      have hdestroys : ∃ now fates, a = .request (.destroyLab row.labId) now fates := by
        by_contra hnot
        refine hspared ?_
        cases a with
        | guest labId entries => trivial
        | request r now fates =>
          cases r with
          | destroyLab labId => exact fun hid => absurd ⟨now, fates, by rw [hid]⟩ hnot
          | _ => trivial
      obtain ⟨now, fates, rfl⟩ := hdestroys
      cases hthere : (step env s (.request (.destroyLab row.labId) now fates)).tree.lookup
          (SnapshotManager.manifestPathFor row) with
      | none => exact .inr ⟨hthere, fun hboth => hspared hboth.2⟩
      | some e => exact hsame (hthere.trans (removes_of_destroyLab _ _ hthere).symm)

end Gone

/-- **In every run** that does not cut it short, a manifest holds what was last reported of its snapshot, or is
gone with its lab. -/
theorem stands_of_run {s₀ : State β} (h₀ : Initial env s₀) {actions : List (Action β)} {row : SnapshotRow}
    (hrow : (runFrom env s₀ actions).store.snapshots.get? row.id = some row)
    (hmanifest : Runs.Allowed (step env) (SparesManifest env row) s₀ actions) :
    Stands env row (Runs.Allowed (step env) (SparesLab env row.labId) s₀ actions)
      (lastReported env row.id s₀ actions) (runFrom env s₀ actions).tree := by
  induction actions using List.reverseRecOn with
  | nil =>
    rw [show runFrom env s₀ [] = s₀ from rfl, h₀.store] at hrow
    cases hrow
  | append_singleton actions a ih =>
    have hs := healthy_of_actions h₀ actions
    rw [show runFrom env s₀ (actions ++ [a]) = step env (runFrom env s₀ actions) a from Runs.after_append ..]
      at hrow ⊢
    rw [lastReported_append_singleton]
    obtain ⟨hbefore, hstep, -⟩ := Runs.allowed_append.mp hmanifest
    rcases snapshot_of_step hrow with hold | ⟨hnew, labId, runId, requester, now, fates, rfl⟩
    · refine (stands_of_step hs hold hstep (ih hold hbefore)).imp_right fun hgone =>
        ⟨hgone.1, fun hspared => ?_⟩
      obtain ⟨hsparedBefore, hsparedStep, -⟩ := Runs.allowed_append.mp hspared
      exact hgone.2 ⟨hsparedBefore, hsparedStep⟩
    · obtain ⟨metadata, hreported, hdescribed⟩ := described_of_creation hs hnew hrow
      exact .inl ⟨metadata, by rw [hreported, Option.some_or], hdescribed⟩

/-- **The snapshots are listed.** In every run in which no restore stops while it writes a manifest, the
listing of the snapshots returns every one of them, once and in order; what it says of a snapshot is what was
last reported of it or nothing, and it says so as long as the lab of the snapshot is not destroyed. -/
theorem snapshots_listed (env : Environment β) (s₀ : State β) (h₀ : Initial env s₀)
    (actions : List (Action β)) (fates : List Fate)
    (hmanifests : ∀ row ∈ (runFrom env s₀ actions).store.snapshots.rows,
      Runs.Allowed (step env) (SparesManifest env row) s₀ actions) :
    ∃ listed, App.listSnapshots env ((runFrom env s₀ actions).session fates) =
        .ok listed ((runFrom env s₀ actions).session fates) ∧
      Lists (runFrom env s₀ actions).store.snapshots (fun _ => true)
        (ReconciliationService.before SnapshotRow.createdAt SnapshotRow.id) (listed.map Prod.fst) ∧
      ∀ entry ∈ listed, (entry.2 = none ∨ entry.2 = lastReported env entry.1.id s₀ actions) ∧
        (Runs.Allowed (step env) (SparesLab env entry.1.labId) s₀ actions →
          entry.2 = lastReported env entry.1.id s₀ actions ∧ entry.2.isSome = true) := by
  have hs := healthy_of_actions h₀ actions
  have hfound : ∀ row ∈ (runFrom env s₀ actions).store.snapshots.select (fun _ => true)
      (ReconciliationService.before SnapshotRow.createdAt SnapshotRow.id), ∃ entry,
      (do
        let metadata ← onDisk (SnapshotManager.loadMetadata env row)
        return (row, metadata) : SessionM β _) ((runFrom env s₀ actions).session fates) =
          .ok entry ((runFrom env s₀ actions).session fates) ∧
      entry.1 = row ∧ (entry.2 = none ∨ entry.2 = lastReported env row.id s₀ actions) ∧
      (Runs.Allowed (step env) (SparesLab env row.labId) s₀ actions →
        entry.2 = lastReported env row.id s₀ actions ∧ entry.2.isSome = true) := by
    intro row hrow
    obtain ⟨-, hthere⟩ := get?_of_mem_select hrow
    obtain ⟨loaded, hloaded, hlast, hspared⟩ := loadMetadata_of_stands hs hthere
      (stands_of_run h₀ hthere (hmanifests row (Table.mem_of_get? hthere))) fates
    refine ⟨(row, loaded), bind_of_ok (onDisk_eq_ok.mpr ⟨_, hloaded, rfl⟩) rfl, rfl, hlast, fun h => ?_⟩
    obtain ⟨heq, hsome⟩ := hspared h
    exact ⟨heq, heq ▸ hsome⟩
  obtain ⟨listed, hlisted, hentries⟩ := mapM_of_found hfound
  have hrows : listed.map Prod.fst = (runFrom env s₀ actions).store.snapshots.select (fun _ => true)
      (ReconciliationService.before SnapshotRow.createdAt SnapshotRow.id) := by
    have heq := List.forall₂_map_right_iff.mpr (hentries.imp fun row entry hentry => hentry.1.symm)
    exact (List.forall₂_eq_eq_eq ▸ heq).symm
  refine ⟨listed, bind_of_ok (get_run _) hlisted, hrows ▸ lists_select _ _ _, fun entry hentry => ?_⟩
  obtain ⟨row, -, rfl, hmetadata⟩ := exists_of_forall₂ hentries hentry
  exact hmetadata

/-- Of two snapshots, the lab of the second is destroyed. -/
def unlistedRun : List (Action Blob) := restoredTwiceRun ++ [.request (.destroyLab "aaa") 6 []]

/-- Both are listed, and the first with its second restore. -/
theorem snapshots_listed_unlistedRun :
    let s := (runFrom (symbolic defaultProfiles) emptyState unlistedRun).session []
    ∃ listed, App.listSnapshots (symbolic defaultProfiles) s = .ok listed s ∧
      ((listed.map Prod.fst).map SnapshotRow.id).Nodup ∧
        ("aaaa", none) ∈ listed.map (Prod.map SnapshotRow.id id) ∧
      ∃ entry ∈ listed, entry.1.id = "aa" ∧
        entry.2.any (fun metadata => metadata.restoredLabId = some "a") = true := by
  intro s
  have hmanifests : ∀ row, Runs.Allowed (step (symbolic defaultProfiles))
      (SparesManifest (symbolic defaultProfiles) row) emptyState unlistedRun := by
    intro row
    refine ⟨trivial, trivial, trivial, trivial, fun _ => .inl ?_, trivial, fun _ => .inl ?_, trivial, trivial⟩
    all_goals decide +kernel
  obtain ⟨listed, hlisted, hlists, hmetadata⟩ := snapshots_listed (symbolic defaultProfiles) emptyState
    (initial_emptyState defaultProfiles) unlistedRun [] fun row _ => hmanifests row
  have hboth : returns (fun listed _ => ("aaaa", none) ∈ listed.map (Prod.map SnapshotRow.id id) ∧
      ∃ entry ∈ listed, entry.1.id = "aa" ∧ entry.1.labId = "a")
      (App.listSnapshots (symbolic defaultProfiles) s) = true := by
    decide +kernel
  rw [hlisted] at hboth
  obtain ⟨hgone, entry, hentry, hid, hlab⟩ := of_decide_eq_true hboth
  have hspared : Runs.Allowed (step (symbolic defaultProfiles))
      (SparesLab (symbolic defaultProfiles) entry.1.labId) emptyState unlistedRun := by
    rw [hlab]
    exact ⟨trivial, trivial, trivial, trivial, trivial, trivial, trivial,
      fun hid => absurd hid (by decide), trivial⟩
  have hlast : (lastReported (symbolic defaultProfiles) "aa" emptyState unlistedRun).any
      (fun metadata => metadata.restoredLabId = some "a") = true := by
    decide +kernel
  refine ⟨listed, hlisted, hlists.once, hgone, entry, hentry, hid, ?_⟩
  rw [((hmetadata entry hentry).2 hspared).1, hid]
  exact hlast

end LabOS
