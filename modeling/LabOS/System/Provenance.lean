import LabOS.System.Releases

/-!
# Where released contents come from

A content derives from labs: what a guest writes from its lab and from what it finds in the
workspace and the exports of that lab, an archive from its members and these from it, a copy
from what is copied. The gate asks for an approval by the profile of the lab an export
is staged in, and a snapshot is restored into any other container lab, so what a lab that
demands approvals has written can be exported without one from a lab that does not.

## What is proved

* `export_provenance` — in every run that restores into a lab that demands no approvals only
  snapshots of such labs, and stages nothing from out of an exports directory, an export that is
  released without an approval derives only from labs that demand none.
* `export_provenance_laundered` — a run where a snapshot takes contents past the gate.
-/

namespace LabOS

open Exceptional FileOps FileTree

variable {β : Type} [Content β] {env : Environment β}

/-- From which labs contents derive: any relation by which what the codec makes derives from
no more than what it is made of. -/
structure Provenance (env : Environment β) where
  derivesFrom : β → String → Prop
  truncate : ∀ {n b labId}, derivesFrom (Content.truncate n b) labId → derivesFrom b labId
  tarGz : ∀ {ms labId}, derivesFrom (env.codec.tarGz ms) labId →
    ∃ m ∈ ms, ∃ b, m.kind = .file b ∧ derivesFrom b labId
  getmembers : ∀ {b ms m c labId}, env.codec.getmembers b = some ms → m ∈ ms → m.kind = .file c →
    derivesFrom c labId → derivesFrom b labId
  dumps : ∀ {o labId}, ¬ derivesFrom (env.codec.dumps o) labId

/-- A guest writes what derives from its lab and from the files in its workspace and exports. -/
def Derives (env : Environment β) (prov : Provenance env) (s : State β) : Action β → Prop
  | .guest labId entries => ∀ p b, (p, .file b) ∈ entries → guestArea env.root labId p = true →
    ∀ source, prov.derivesFrom b source → source = labId ∨
      ∃ q c, guestArea env.root labId q = true ∧ s.tree.lookup q = some (.file c) ∧ prov.derivesFrom c source
  | _ => True

/-- Does the profile of a lab demand an approval on export? -/
def demands (env : Environment β) (st : Store) (labId : String) : Bool :=
  (labProfile? env st labId).any fun profile => profile.approvalOnExport

/-- What is restored into a lab that demands no approvals is of such a lab. -/
def keepsRisk (env : Environment β) (s : State β) : Action β → Bool
  | .request (.restoreSnapshot snapshotId labId _) _ _ =>
    (s.store.labs.get? labId).all fun lab => (s.store.snapshots.get? snapshotId).all fun snapshot =>
      !(SnapshotManager.restorable env s.tree snapshot lab && !demands env s.store labId &&
        demands env s.store snapshot.labId)
  | _ => true

/-- No file is staged that a path leads to out of the exports directory. -/
def staysInExports (s : State β) : Action β → Bool
  | .request (.createExport labId sourcePath _ _) _ _ =>
    (s.store.labStorage.get? labId).all fun storage => !ExportGate.leavesExports s.tree storage sourcePath
  | _ => true

/-- Where a lab demands no approvals, neither do the labs a content there derives from. -/
def Cleared (env : Environment β) (prov : Provenance env) (st : Store) (labId : String) (b : β) : Prop :=
  demands env st labId = false → ∀ source, prov.derivesFrom b source → demands env st source = false

theorem carries_cleared (prov : Provenance env) (st : Store) : Carries env (Cleared env prov st) where
  truncate n h hlab source hfrom := h hlab source (prov.truncate hfrom)
  tarGz h hlab source hfrom := by
    obtain ⟨m, hm, b, hkind, hfrom⟩ := prov.tarGz hfrom
    exact h m hm b hkind hlab source hfrom
  getmembers h hms m hm c hkind hlab source hfrom := h hlab source (prov.getmembers hms hm hkind hfrom)
  dumps o hlab source hfrom := absurd hfrom prov.dumps

/-! ### Profiles -/

/-- A lab demands approvals, or none, for good. -/
theorem demands_of_step {s : State β} {a : Action β} {labId : String}
    (hlab : ∃ lab, s.store.labs.get? labId = some lab) :
    (∃ lab, (step env s a).store.labs.get? labId = some lab) ∧
      demands env (step env s a).store labId = demands env s.store labId := by
  cases a with
  | guest id entries => exact ⟨hlab, rfl⟩
  | request r now fates =>
    obtain ⟨hlab', hprofile⟩ := labProfile_of_effect (effect_of_answer env s r now fates) hlab
    exact ⟨hlab', congrArg (Option.any fun profile : Profile => profile.approvalOnExport) hprofile⟩

theorem demands_of_run {s : State β} {labId : String} (actions : List (Action β))
    (hlab : ∃ lab, s.store.labs.get? labId = some lab) :
    demands env (runFrom env s actions).store labId = demands env s.store labId := by
  have hkept : (∃ lab, (runFrom env s actions).store.labs.get? labId = some lab) ∧
      demands env (runFrom env s actions).store labId = demands env s.store labId := by
    apply Runs.after_keeps (I := fun s' : State β => (∃ lab, s'.store.labs.get? labId = some lab) ∧
      demands env s'.store labId = demands env s.store labId)
    · intro s' a hs
      obtain ⟨hlab', hsame⟩ := demands_of_step (a := a) hs.1
      exact ⟨hlab', hsame.trans hs.2⟩
    · exact ⟨hlab, rfl⟩
  exact hkept.2

/-! ### Runs -/

/-- What a step brings to a lab is cleared, by the profiles at the end of a run that goes on from it. -/
theorem brings_cleared {prov : Provenance env} {s : State β} {a : Action β} {actions : List (Action β)}
    (hs : Healthy env (Cleared env prov (runFrom env s actions).store) s) (hderives : Derives env prov s a)
    (hrisk : keepsRisk env s a = true) (hstays : staysInExports s a = true) :
    Brings env (Cleared env prov (runFrom env s actions).store) s a := by
  cases a with
  | guest labId entries =>
    intro p b hmem harea hlab source hfrom
    rcases hderives p b hmem harea source hfrom with rfl | ⟨q, c, hq, hc, hfrom⟩
    · exact hlab
    · obtain ⟨x, r, -, -, rfl⟩ := guestArea_iff.mp hq
      exact (hs.tidy.allowed _ _ hc).1 labId _ rfl hlab source hfrom
  | request r now fates =>
    cases r with
    | restoreSnapshot snapshotId labId requester =>
      intro snapshot lab hsnapshot hlab hrestorable b hgood hclear
      obtain ⟨-, ⟨source, hsource, -⟩, -⟩ := hs.sound.snapshots _ _ hsnapshot
      apply hgood
      rw [demands_of_run actions ⟨lab, hlab⟩] at hclear
      rw [demands_of_run actions ⟨source, hsource⟩]
      simpa [keepsRisk, hlab, hsnapshot, hrestorable, hclear] using hrisk
    | createExport labId sourcePath runId requester =>
      intro storage source b hstorage hstages
      -- the file stands in the exports directory of the lab
      have hin : ExportGate.leavesExports s.tree storage sourcePath = false := by
        simpa [staysInExports, hstorage] using hstays
      obtain ⟨q, -, hb, hbelow⟩ := hstages.in_exports hin
      obtain ⟨hlayout, lab, hlab⟩ := hs.sound.layout _ _ hstorage
      obtain rfl : storage.labId = labId := Table.key_of_get? hstorage
      have hexports : storage.exportsPath = inLab env.root storage.labId ["exports"] := by
        rw [hlayout.2.2.1, hlayout.1]
      have hfirm : Firm (Managed env (Cleared env prov (runFrom env s actions).store)) storage.exportsPath :=
        hexports ▸ firm_of_ours (ours_dir (hs.sound.labs _ _ hlab).isIdentifier (by decide))
      rw [hfirm.realpath hs.tidy] at hbelow
      obtain ⟨r, rfl⟩ := hbelow
      exact (hs.tidy.allowed _ _ hb).1 storage.labId ("exports" :: r) (by simp [hexports, inLab])
    | _ => exact trivial

/-- **In every run** that keeps the risk, the files in the tree of a lab are cleared. -/
theorem healthy_cleared {prov : Provenance env} {s : State β} {actions : List (Action β)}
    (hs : Healthy env (Cleared env prov (runFrom env s actions).store) s)
    (hderives : Runs.Allowed (step env) (Derives env prov) s actions)
    (hrisk : Runs.Allowed (step env) (fun s a => keepsRisk env s a = true) s actions)
    (hstays : Runs.Allowed (step env) (fun s a => staysInExports s a = true) s actions) :
    Healthy env (Cleared env prov (runFrom env s actions).store) (runFrom env s actions) := by
  induction actions generalizing s with
  | nil => exact hs
  | cons a actions ih =>
    have hstep := healthy_of_step (carries_cleared prov _) hs (brings_cleared hs hderives.1 hrisk.1 hstays.1)
    exact ih hstep hderives.2 hrisk.2 hstays.2

/-- **Approval cannot be avoided by derivation**: in every run that restores into a lab that demands no
approvals on export only snapshots of such labs, and stages nothing from out of an exports directory, the artifact
of an export that was released without an approval derives only from labs that demand none. -/
theorem export_provenance (env : Environment β) (prov : Provenance env) (s₀ : State β) (h₀ : Initial env s₀)
    (actions : List (Action β)) (hderives : Runs.Allowed (step env) (Derives env prov) s₀ actions)
    (hrisk : Runs.Allowed (step env) (fun s a => keepsRisk env s a = true) s₀ actions)
    (hstays : Runs.Allowed (step env) (fun s a => staysInExports s a = true) s₀ actions) (row : ExportRow)
    (hrow : row ∈ (runFrom env s₀ actions).store.exports.rows) (hstate : row.state = .released)
    (hungranted : ¬ Granted (runFrom env s₀ actions).store "export" row.id) (p : PosixPath)
    (hp : p = row.quarantinePath ∨ row.releasedPath = some p) (b : β)
    (hb : (runFrom env s₀ actions).tree.lookup p = some (.file b)) (labId : String)
    (hfrom : prov.derivesFrom b labId) :
    demands env (runFrom env s₀ actions).store labId = false := by
  have hrow := Table.get?_of_mem hrow
  have hhealthy : Healthy env (Cleared env prov (runFrom env s₀ actions).store) (runFrom env s₀ actions) :=
    healthy_cleared (healthy_of_initial h₀) hderives hrisk hstays
  have hgated : AllGated env (runFrom env s₀ actions).store :=
    rows_kept allGated_of_effect (h₀.store ▸ allGated_empty)
  -- an export that was released without an approval is of a lab that demands none
  have hlab : demands env (runFrom env s₀ actions).store row.labId = false := by
    by_contra hnot
    obtain ⟨profile, hprofile, hdemands⟩ := (Option.any_eq_true ..).mp (Bool.not_eq_false _ ▸ hnot)
    rcases (hgated row.id row hrow).gate profile hprofile hdemands with hg | hrejected | ⟨hwaits, -⟩
    · exact hungranted hg
    · exact absurd (hstate.symm.trans hrejected) (by decide)
    · exact absurd (hstate.symm.trans hwaits) (by decide)
  obtain ⟨q, rfl⟩ : ∃ q, p = inLab env.root row.labId q := by
    rcases hp with rfl | hp
    · obtain ⟨-, -, name, hplace⟩ := hhealthy.sound.exports _ _ hrow
      exact ⟨_, hplace⟩
    · exact ⟨_, placed_of_run h₀ actions _ _ hrow _ hp⟩
  exact (hhealthy.tidy.allowed _ _ hb).1 row.labId q rfl hlab labId hfrom

/-! ### Symbolic contents -/

/-- The labs a symbolic content derives from: the one a text was written in, and those of the members of an
archive. -/
inductive Blob.DerivesFrom : Blob → String → Prop where
  | data {labId text} : DerivesFrom (.data labId text) labId
  | archive {ms m b labId} (hm : m ∈ ms) (hkind : m.kind = .file b) (h : DerivesFrom b labId) :
      DerivesFrom (.archive ms) labId

/-- The provenance of symbolic contents. -/
def Blob.provenance (profiles : Profiles) : Provenance (symbolic profiles) where
  derivesFrom := Blob.DerivesFrom
  truncate := by
    intro n b labId h
    cases b with
    | data =>
      cases h
      exact .data
    | archive | manifest | junk => cases h
  tarGz := by
    rintro ms labId (_ | ⟨hm, hkind, h⟩)
    exact ⟨_, hm, _, hkind, h⟩
  getmembers := by
    intro b ms m c labId hms hm hkind h
    cases b with
    | archive =>
      obtain rfl := Option.some.inj hms
      exact .archive hm hkind h
    | data | manifest | junk => cases hms
  dumps := by
    rintro o labId ⟨⟩

/-- Is the entry a text written in the lab? -/
def isTextOf (labId : String) : Option (Entry Blob) → Bool
  | some (.file (.data source _)) => source = labId
  | _ => false

theorem exists_of_isTextOf {labId : String} {o : Option (Entry Blob)} (h : isTextOf labId o = true) :
    ∃ b, o = some (.file b) ∧ Blob.DerivesFrom b labId := by
  unfold isTextOf at h
  split at h
  · obtain rfl := of_decide_eq_true h
    exact ⟨_, rfl, .data⟩
  · cases h

/-- A file that the guest of a lab of the profile has written is restored, from a snapshot, into a
safe-dev lab. -/
def restoreRun (profileName : String) : List (Action Blob) :=
  [.request (.createLab profileName .human) 0 [],
   .guest "a" [(["srv", "labs", "a", "workspace", "f.txt"], .file (.data "a" ['x']))],
   .request (.createSnapshot "a" none .human) 1 [],
   .request (.createLab "safe-dev" .human) 2 [],
   .request (.restoreSnapshot "aa" "aaa" .human) 3 []]

/-- Then the guest of the safe-dev lab copies the file to the exports directory, and it is released. -/
def copyRun (profileName : String) : List (Action Blob) :=
  restoreRun profileName ++
  [.guest "aaa" [(["srv", "labs", "aaa", "exports", "f.txt"], .file (.data "a" ['x']))],
   .request (.createExport "aaa" "/lab/exports/f.txt" none .human) 4 [],
   .request (.releaseExport "aaaa") 5 []]

/-- The guests of such a run write what derives from what they find. -/
theorem derives_copyRun {profileName : String}
    (hfound : isTextOf "a"
      ((runFrom (symbolic defaultProfiles) emptyState (restoreRun profileName)).tree.lookup
      ["srv", "labs", "aaa", "workspace", "f.txt"]) = true) :
    Runs.Allowed (step (symbolic defaultProfiles))
      (Derives (symbolic defaultProfiles) (Blob.provenance defaultProfiles)) emptyState
      (copyRun profileName) := by
  obtain ⟨c, hc, hfrom⟩ := exists_of_isTextOf hfound
  apply Runs.allowed_append.mpr
  refine ⟨⟨trivial, ?_, trivial, trivial, trivial, trivial⟩, ?_, trivial, trivial, trivial⟩
  · rintro p b hmem - source hsource
    obtain ⟨-, hb⟩ := Prod.mk.inj (List.mem_singleton.mp hmem)
    obtain rfl := Entry.file.inj hb
    cases hsource
    exact .inl rfl
  · rintro p b hmem - source hsource
    obtain ⟨-, hb⟩ := Prod.mk.inj (List.mem_singleton.mp hmem)
    obtain rfl := Entry.file.inj hb
    cases hsource
    exact .inr ⟨_, c, by decide, hc, hfrom⟩

/-- What a safe-dev lab has written is exported through another one without an approval. -/
theorem export_provenance_copyRun :
    ∃ row ∈ (runFrom (symbolic defaultProfiles) emptyState (copyRun "safe-dev")).store.exports.rows,
      row.state = .released ∧
      ∃ b source, Blob.DerivesFrom b source ∧
        demands (symbolic defaultProfiles)
          (runFrom (symbolic defaultProfiles) emptyState (copyRun "safe-dev")).store source = false := by
  have hrow : ∃ row ∈ (runFrom (symbolic defaultProfiles) emptyState (copyRun "safe-dev")).store.exports.rows,
      row.state = .released ∧
      ¬ Granted (runFrom (symbolic defaultProfiles) emptyState (copyRun "safe-dev")).store "export" row.id ∧
      isTextOf "a" ((runFrom (symbolic defaultProfiles) emptyState (copyRun "safe-dev")).tree.lookup
        row.quarantinePath) = true := by
    decide +kernel
  obtain ⟨row, hrow, hstate, hungranted, htext⟩ := hrow
  obtain ⟨b, hb, hfrom⟩ := exists_of_isTextOf htext
  have hrisk : Runs.Allowed (step (symbolic defaultProfiles))
      (fun s a => keepsRisk (symbolic defaultProfiles) s a = true) emptyState (copyRun "safe-dev") := by
    decide +kernel
  have hstays : Runs.Allowed (step (symbolic defaultProfiles)) (fun s a => staysInExports s a = true) emptyState
      (copyRun "safe-dev") := by
    decide +kernel
  have hderives : Runs.Allowed (step (symbolic defaultProfiles))
      (Derives (symbolic defaultProfiles) (Blob.provenance defaultProfiles)) emptyState
        (copyRun "safe-dev") :=
    derives_copyRun (by decide +kernel)
  exact ⟨row, hrow, hstate, b, "a", hfrom, export_provenance _ _ emptyState (initial_emptyState _) _ hderives
    hrisk hstays row hrow hstate hungranted _ (.inl rfl) b hb "a" hfrom⟩

/-- **Not so when a snapshot is restored across**: what a model-local lab has written, whose profile demands
an approval, is released without one. -/
theorem export_provenance_laundered :
    Runs.Allowed (step (symbolic defaultProfiles))
      (Derives (symbolic defaultProfiles) (Blob.provenance defaultProfiles)) emptyState
      (copyRun "model-local") ∧
    Runs.Allowed (step (symbolic defaultProfiles)) (fun s a => staysInExports s a = true) emptyState
      (copyRun "model-local") ∧
    ∃ row ∈ (runFrom (symbolic defaultProfiles) emptyState (copyRun "model-local")).store.exports.rows,
      row.state = .released ∧
      ¬ Granted (runFrom (symbolic defaultProfiles) emptyState (copyRun "model-local")).store
        "export" row.id ∧
      (∃ p b, row.releasedPath = some p ∧
        (runFrom (symbolic defaultProfiles) emptyState (copyRun "model-local")).tree.lookup p =
          some (.file b) ∧ Blob.DerivesFrom b "a") ∧
      demands (symbolic defaultProfiles)
        (runFrom (symbolic defaultProfiles) emptyState (copyRun "model-local")).store "a" = true := by
  refine ⟨derives_copyRun (by decide +kernel), by decide +kernel, ?_⟩
  have hrow : ∃ row ∈ (runFrom (symbolic defaultProfiles) emptyState (copyRun "model-local")).store.exports.rows,
      row.state = .released ∧
      ¬ Granted (runFrom (symbolic defaultProfiles) emptyState (copyRun "model-local")).store
        "export" row.id ∧
      (row.releasedPath.any fun p =>
        isTextOf "a" ((runFrom (symbolic defaultProfiles) emptyState
          (copyRun "model-local")).tree.lookup p)) = true ∧
      demands (symbolic defaultProfiles)
        (runFrom (symbolic defaultProfiles) emptyState (copyRun "model-local")).store "a" = true := by
    decide +kernel
  obtain ⟨row, hrow, hstate, hungranted, htext, hdemands⟩ := hrow
  obtain ⟨p, hp, htext⟩ := (Option.any_eq_true ..).mp htext
  obtain ⟨b, hb, hfrom⟩ := exists_of_isTextOf htext
  exact ⟨row, hrow, hstate, hungranted, ⟨p, b, hp, hb, hfrom⟩, hdemands⟩

end LabOS
