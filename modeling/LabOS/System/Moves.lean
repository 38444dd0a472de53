import LabOS.System.Effects

/-!
# How one row moves

For a lab, an approval and an export row: what answering a request may make of it
(`LabMove`, `ApprovalMove`, `ExportMove`), and where a new one comes from. Rows are never
deleted. A reconciliation pass moves a row by any number of sweeps, which is again
one of a few moves.

## What is proved

* `labMove_of_effect`, `approvalMove_of_effect`, `exportMove_of_effect` — a row that is
  there stays, and moves as its relation says.
* `lab_of_effect`, `approval_of_effect`, `export_of_effect` — a row that is there
  afterwards was there before or is new.
-/

namespace LabOS

open Exceptional ReconciliationService

variable {β : Type} [Content β]

/-! ### Sweeps -/

/-- A lab before and after some sweeps: it keeps what it is, and its state changes only to failed,
or at the end of a destroy that was going on. -/
structure SweptLab (lab lab' : LabRow) : Prop where
  id : lab'.id = lab.id
  profile : lab'.profileName = lab.profileName
  runtime : lab'.runtimeClass = lab.runtimeClass
  state : lab'.state = lab.state ∨ lab.state ≠ .destroyed ∧ lab'.state = .failed ∨
    lab.state = .destroying ∧ lab'.state = .destroyed

theorem SweptLab.refl (lab : LabRow) : SweptLab lab lab := ⟨rfl, rfl, rfl, .inl rfl⟩

theorem SweptLab.trans {a b c : LabRow} (h : SweptLab a b) (h' : SweptLab b c) : SweptLab a c := by
  refine ⟨h'.id.trans h.id, h'.profile.trans h.profile, h'.runtime.trans h.runtime, ?_⟩
  rcases h.state with hs | ⟨ha, hs⟩ | ⟨ha, hs⟩
  · rw [← hs]
    exact h'.state
  · rcases h'.state with hs' | ⟨-, hs'⟩ | ⟨hb, -⟩
    · exact .inr (.inl ⟨ha, hs'.trans hs⟩)
    · exact .inr (.inl ⟨ha, hs'⟩)
    · rw [hs] at hb
      cases hb
  · rcases h'.state with hs' | ⟨hb, -⟩ | ⟨hb, -⟩
    · exact .inr (.inr ⟨ha, hs'.trans hs⟩)
    · exact absurd hs hb
    · rw [hs] at hb
      cases hb

/-- An approval before and after some sweeps. -/
def SweptApproval (now : DateTime) (a a' : ApprovalRow) : Prop :=
  a' = a ∨ a.state = .requested ∧ isStale now a = true ∧ a' = expiredApproval now a

/-- An export before and after some sweeps: it is rejected for a pending approval of it that has expired. -/
def SweptExport (now : DateTime) (st st' : Store) (row row' : ExportRow) : Prop :=
  row' = row ∨ (∃ a, st.approvals.get? a.id = some a ∧
    st'.approvals.get? a.id = some (expiredApproval now a) ∧
    a.state = .requested ∧ isStale now a = true ∧ a.resourceType = "export" ∧ a.resourceId = row.id) ∧
      row' = expiredExport row

section Sweeps

variable {now : DateTime} {st st' : Store}

theorem sweptLab_of_sweep {id : String} {row : LabRow} (h : Sweep now st st')
    (hrow : st.labs.get? id = some row) :
    ∃ row', st'.labs.get? id = some row' ∧ SweptLab row row' := by
  cases h with
  | onlyEvents | leaseRevoked | runTimedOut | approvalExpired | exportApprovalExpired =>
    exact ⟨row, hrow, .refl row⟩
  | labApprovalExpired _ _ _ _ hlab pending =>
    have hid := Table.key_of_get? hlab
    exact Table.exists_move_of_put SweptLab.refl hlab hid
      ⟨rfl, rfl, rfl, .inr (.inl ⟨by simp [pending], rfl⟩)⟩ hrow
  | labFailed hlab alive hid hprofile hruntime hstate =>
    exact Table.exists_move_of_put SweptLab.refl hlab hid
      ⟨hid, hprofile, hruntime, .inr (.inl ⟨alive, hstate⟩)⟩ hrow
  | labRetried hlab destroying hid hprofile hruntime hstate =>
    refine Table.exists_move_of_put SweptLab.refl hlab hid ⟨hid, hprofile, hruntime, ?_⟩ hrow
    rcases hstate with hs | hs
    · exact .inl (hs.trans destroying.symm)
    · exact .inr (.inr ⟨destroying, hs⟩)

theorem sweptLab_of_sweeps {id : String} {row : LabRow} (h : Sweeps now st st')
    (hrow : st.labs.get? id = some row) :
    ∃ row', st'.labs.get? id = some row' ∧ SweptLab row row' := by
  induction h with
  | refl => exact ⟨row, hrow, .refl row⟩
  | tail _ hsweep ih =>
    obtain ⟨row₁, h₁, hswept⟩ := ih
    obtain ⟨row₂, h₂, hswept'⟩ := sweptLab_of_sweep hsweep h₁
    exact ⟨row₂, h₂, hswept.trans hswept'⟩

theorem sweptApproval_of_sweep {id : String} {a : ApprovalRow} (h : Sweep now st st')
    (ha : st.approvals.get? id = some a) :
    ∃ a', st'.approvals.get? id = some a' ∧ SweptApproval now a a' := by
  cases h with
  | onlyEvents | leaseRevoked | runTimedOut | labFailed | labRetried => exact ⟨a, ha, .inl rfl⟩
  | approvalExpired hb requested stale | labApprovalExpired hb requested stale
  | exportApprovalExpired hb requested stale =>
    exact Table.exists_move_of_put (fun _ => .inl rfl) hb rfl (.inr ⟨requested, stale, rfl⟩) ha

theorem sweptApproval_of_sweeps {id : String} {a : ApprovalRow} (h : Sweeps now st st')
    (ha : st.approvals.get? id = some a) :
    ∃ a', st'.approvals.get? id = some a' ∧ SweptApproval now a a' := by
  induction h with
  | refl => exact ⟨a, ha, .inl rfl⟩
  | tail _ hsweep ih =>
    obtain ⟨a₁, h₁, rfl | ⟨requested, stale, rfl⟩⟩ := ih
    · exact sweptApproval_of_sweep hsweep h₁
    · -- an approval that has expired is not pending, so no other sweep takes it
      obtain ⟨a₂, h₂, rfl | ⟨pending, -⟩⟩ := sweptApproval_of_sweep hsweep h₁
      · exact ⟨_, h₂, .inr ⟨requested, stale, rfl⟩⟩
      · cases pending

/-- A row that is there afterwards was there before. -/
structure AddsNone (st st' : Store) : Prop where
  labs : ∀ {id row'}, st'.labs.get? id = some row' → ∃ row, st.labs.get? id = some row
  runs : ∀ {id row'}, st'.runs.get? id = some row' → ∃ row, st.runs.get? id = some row
  approvals : ∀ {id row'}, st'.approvals.get? id = some row' → ∃ row, st.approvals.get? id = some row
  exports : ∀ {id row'}, st'.exports.get? id = some row' → ∃ row, st.exports.get? id = some row
  secretLeases : ∀ {id row'}, st'.secretLeases.get? id = some row' → ∃ row, st.secretLeases.get? id = some row
  others : st'.labStorage = st.labStorage ∧ st'.snapshots = st.snapshots ∧
    st'.schedulerJobs = st.schedulerJobs

theorem AddsNone.refl (st : Store) : AddsNone st st :=
  ⟨fun h => ⟨_, h⟩, fun h => ⟨_, h⟩, fun h => ⟨_, h⟩, fun h => ⟨_, h⟩, fun h => ⟨_, h⟩, rfl, rfl, rfl⟩

theorem addsNone_of_sweep (h : Sweep now st st') : AddsNone st st' := by
  have hrefl := AddsNone.refl st
  cases h with
  | onlyEvents => exact { hrefl with }
  | leaseRevoked hlease => exact { hrefl with secretLeases := fun h => Table.exists_of_get?_put h hlease rfl }
  | runTimedOut hrun => exact { hrefl with runs := fun h => Table.exists_of_get?_put h hrun rfl }
  | approvalExpired ha => exact { hrefl with approvals := fun h => Table.exists_of_get?_put h ha rfl }
  | labApprovalExpired ha _ _ _ hlab =>
    have hid := Table.key_of_get? hlab
    exact { hrefl with
      labs := fun h => Table.exists_of_get?_put h hlab hid
      approvals := fun h => Table.exists_of_get?_put h ha rfl }
  | exportApprovalExpired ha _ _ _ hrow =>
    have hid := Table.key_of_get? hrow
    exact { hrefl with
      approvals := fun h => Table.exists_of_get?_put h ha rfl
      exports := fun h => Table.exists_of_get?_put h hrow hid }
  | labFailed hlab _ hid | labRetried hlab _ hid =>
    exact { hrefl with labs := fun h => Table.exists_of_get?_put h hlab hid }

theorem addsNone_of_sweeps (h : Sweeps now st st') : AddsNone st st' := by
  induction h with
  | refl => exact .refl st
  | tail _ hsweep ih =>
    have hadds := addsNone_of_sweep hsweep
    obtain ⟨hstorage, hsnapshots, hjobs⟩ := hadds.others
    exact ⟨fun h => ih.labs (hadds.labs h).choose_spec, fun h => ih.runs (hadds.runs h).choose_spec,
      fun h => ih.approvals (hadds.approvals h).choose_spec,
        fun h => ih.exports (hadds.exports h).choose_spec,
      fun h => ih.secretLeases (hadds.secretLeases h).choose_spec,
      hstorage.trans ih.others.1, hsnapshots.trans ih.others.2.1, hjobs.trans ih.others.2.2⟩

/-- An approval that is pending after some sweeps was the same before them. -/
theorem pending_of_sweeps {id : String} {a : ApprovalRow} (h : Sweeps now st st')
    (ha : st'.approvals.get? id = some a) (hstate : a.state = .requested) :
    st.approvals.get? id = some a := by
  obtain ⟨b, hb⟩ := (addsNone_of_sweeps h).approvals ha
  obtain ⟨b', hb', hswept⟩ := sweptApproval_of_sweeps h hb
  obtain rfl := Option.some.inj (hb'.symm.trans ha)
  rcases hswept with rfl | ⟨-, -, rfl⟩
  · exact hb
  · cases hstate

theorem sweptExport_of_sweep {id : String} {row : ExportRow} (h : Sweep now st st')
    (hrow : st.exports.get? id = some row) :
    ∃ row', st'.exports.get? id = some row' ∧ SweptExport now st st' row row' := by
  cases h with
  | onlyEvents | leaseRevoked | runTimedOut | approvalExpired | labApprovalExpired | labFailed | labRetried =>
    exact ⟨row, hrow, .inl rfl⟩
  | @exportApprovalExpired a _ _ ha requested stale type hexport =>
    have hid := Table.key_of_get? hexport
    have hstored : (st.approvals.put (expiredApproval now a)).get? a.id = some (expiredApproval now a) :=
      Table.get?_put_self _ _
    exact Table.exists_move_of_put (R := SweptExport now st _) (fun _ => .inl rfl) hexport hid
      (.inr ⟨⟨_, ha, hstored, requested, stale, type, hid.symm⟩, rfl⟩) hrow

/-- An approval that has expired stays as it is. -/
theorem expired_of_sweep {a : ApprovalRow} (h : Sweep now st st')
    (ha : st.approvals.get? a.id = some (expiredApproval now a)) :
    st'.approvals.get? a.id = some (expiredApproval now a) := by
  obtain ⟨a', ha', rfl | ⟨requested, -⟩⟩ := sweptApproval_of_sweep h ha
  · exact ha'
  · cases requested

theorem sweptExport_of_sweeps {id : String} {row : ExportRow} (h : Sweeps now st st')
    (hrow : st.exports.get? id = some row) :
    ∃ row', st'.exports.get? id = some row' ∧ SweptExport now st st' row row' := by
  induction h with
  | refl => exact ⟨row, hrow, .inl rfl⟩
  | tail hsweeps hsweep ih =>
    obtain ⟨row₁, h₁, hswept⟩ := ih
    have hfirst : SweptExport now st _ row row₁ := hswept.imp_right fun ⟨⟨a, ha, stored, hrest⟩, heq⟩ =>
      ⟨⟨a, ha, expired_of_sweep hsweep stored, hrest⟩, heq⟩
    obtain ⟨row₂, h₂, rfl | ⟨⟨a, ha, stored, requested, stale, type, resource⟩, rfl⟩⟩ :=
      sweptExport_of_sweep hsweep h₁
    · exact ⟨_, h₂, hfirst⟩
    · have ha := pending_of_sweeps hsweeps ha requested
      rcases hfirst with rfl | ⟨hfirst, rfl⟩
      · exact ⟨_, h₂, .inr ⟨⟨a, ha, stored, requested, stale, type, resource⟩, rfl⟩⟩
      · exact ⟨_, h₂, .inr ⟨hfirst, rfl⟩⟩

end Sweeps

/-! ### Labs -/

/-- The request is a reconciliation pass at a time. -/
def IsPass (r : Request β) (now : DateTime) : Prop :=
  ∃ inventory destroys maxDestroyAttempts at', r = .reconcile inventory destroys maxDestroyAttempts at' ∧
    now = at'.normalize

/-- What answering `r` may make of a lab. -/
inductive LabMove (now : ℤ) (st st' : Store) (r : Request β) : LabRow → LabRow → Prop where
  | same {lab} : LabMove now st st' r lab lab
  | destroyed {lab} (request : r = .destroyLab lab.id) (alive : lab.state ≠ .destroyed) :
      LabMove now st st' r lab { lab with state := .destroyed }
  | decided {lab decision approvalId actor comment a}
      (request : r = decisionRequest decision approvalId actor comment)
      (decides : Decides now st decision approvalId comment a) (type : a.resourceType = "lab")
      (resource : a.resourceId = lab.id)
      (stored : st'.approvals.get? a.id = some (App.decidedApproval now decision actor comment a)) :
      LabMove now st st' r lab (App.decidedLab decision lab)
  | swept {lab lab' at'} (request : IsPass r at') (swept : SweptLab lab lab') : LabMove now st st' r lab lab'

section Effects

variable {env : Environment β} {now : ℤ} {r : Request β} {m m' : ℕ} {st st' : Store}

theorem labMove_of_effect {id : String} {lab : LabRow} (h : Effect env now r m m' st st')
    (hlab : st.labs.get? id = some lab) : ∃ lab', st'.labs.get? id = some lab' ∧
      LabMove now st st' r lab lab' := by
  cases h with
  | onlyEvents | leaseIssued | leaseRevoked | runCreated | jobQueued | jobFailed | jobMadeRun | exportDecided
  | otherDecided | snapshotCreated | exportStaged | exportReleased | exportDenied => exact ⟨lab, hlab, .same⟩
  | labCreated new | jobMadeLab _ _ _ new => exact ⟨lab, Table.get?_put_of_fresh new.fresh hlab, .same⟩
  | labDestroyed hrow alive =>
    have hid := Table.key_of_get? hrow
    exact Table.exists_move_of_put (fun _ => .same) hrow hid (.destroyed (by rw [hid]) alive) hlab
  | labDecided decides type hrow =>
    have hid := Table.key_of_get? hrow
    exact Table.exists_move_of_put (fun _ => .same) hrow hid
      (.decided rfl decides type hid.symm (Table.get?_put_self _ _)) hlab
  | reconciled sweeps =>
    obtain ⟨lab', hlab', hswept⟩ := sweptLab_of_sweeps sweeps hlab
    exact ⟨lab', hlab', .swept ⟨_, _, _, _, rfl, rfl⟩ hswept⟩

/-- The profile and the requester of the lab a request creates: its own, or those of the job it dispatches. -/
def creation (now : ℤ) (st : Store) : Request β → Option (String × RequesterType)
  | .createLab profileName requesterType => some (profileName, requesterType)
  | .dispatchNextSchedulerJob => do
    let job ← SchedulerService.nextJob st now
    let profileName ← job.profileName
    return (profileName, .scheduler)
  | _ => none

/-- A lab that is there afterwards was there, or has been created. -/
theorem lab_of_effect {id : String} {lab' : LabRow} (h : Effect env now r m m' st st')
    (hlab : st'.labs.get? id = some lab') : (∃ lab, st.labs.get? id = some lab) ∨
      ∃ profileName requester storage, creation now st r = some (profileName, requester) ∧
        NewLab env profileName requester m m' st lab' storage st'.approvals := by
  cases h with
  | onlyEvents | leaseIssued | leaseRevoked | runCreated | jobQueued | jobFailed | jobMadeRun | exportDecided
  | otherDecided | snapshotCreated | exportStaged | exportReleased | exportDenied => exact .inl ⟨_, hlab⟩
  | labCreated new =>
    rcases Table.eq_or_of_get?_put hlab with ⟨-, rfl⟩ | ⟨-, hlab⟩
    · exact .inr ⟨_, _, _, rfl, new⟩
    · exact .inl ⟨_, hlab⟩
  | jobMadeLab next action profile new =>
    rcases Table.eq_or_of_get?_put hlab with ⟨-, rfl⟩ | ⟨-, hlab⟩
    · exact .inr ⟨_, _, _, by simp [creation, next, profile], new⟩
    · exact .inl ⟨_, hlab⟩
  | labDestroyed hrow | labDecided _ _ hrow =>
    have hid := Table.key_of_get? hrow
    exact .inl (Table.exists_of_get?_put hlab hrow hid)
  | reconciled sweeps => exact .inl ((addsNone_of_sweeps sweeps).labs hlab)

/-! ### Approvals -/

/-- What answering `r` may make of an approval. -/
inductive ApprovalMove (now : ℤ) (st : Store) (r : Request β) : ApprovalRow → ApprovalRow → Prop where
  | same {a} : ApprovalMove now st r a a
  | decided {decision actor comment a} (request : r = decisionRequest decision a.id actor comment)
      (decides : Decides now st decision a.id comment a) :
      ApprovalMove now st r a (App.decidedApproval now decision actor comment a)
  | swept {a a' at'} (request : IsPass r at') (swept : SweptApproval at' a a') : ApprovalMove now st r a a'

theorem get?_of_asks {demanded : Bool} {type resource id : String} {t t' : Table ApprovalRow.id}
    {a : ApprovalRow} (h : Asks demanded type resource t t') (ha : t.get? id = some a) :
    t'.get? id = some a := by
  cases h with
  | no => exact ha
  | yes _ _ fresh => exact Table.get?_put_of_fresh fresh ha

theorem approvalMove_of_effect {id : String} {a : ApprovalRow} (h : Effect env now r m m' st st')
    (ha : st.approvals.get? id = some a) :
    ∃ a', st'.approvals.get? id = some a' ∧ ApprovalMove now st r a a' := by
  cases h with
  | onlyEvents | labDestroyed | leaseIssued | leaseRevoked | runCreated | jobQueued | jobFailed | jobMadeRun
  | snapshotCreated | exportReleased | exportDenied => exact ⟨a, ha, .same⟩
  | labCreated new | jobMadeLab _ _ _ new | exportStaged new => exact ⟨a, get?_of_asks new.asks ha, .same⟩
  | labDecided decides | exportDecided decides | otherDecided decides =>
    have hid := Table.key_of_get? decides.row
    exact Table.exists_move_of_put (fun _ => .same) decides.row hid
      (.decided (by rw [hid]) (hid ▸ decides)) ha
  | reconciled sweeps =>
    obtain ⟨a', ha', hswept⟩ := sweptApproval_of_sweeps sweeps ha
    exact ⟨a', ha', .swept ⟨_, _, _, _, rfl, rfl⟩ hswept⟩

/-- An approval for a resource that has just been created. -/
structure NewApproval (st st' : Store) (a : ApprovalRow) : Prop where
  pending : a.state = .requested ∧ a.approved = false ∧ a.decidedAt = none
  resource : (a.resourceType = "lab" ∧ st.labs.get? a.resourceId = none ∧
      ∃ lab, st'.labs.get? a.resourceId = some lab) ∨
    (a.resourceType = "export" ∧ st.exports.get? a.resourceId = none ∧
      ∃ row, st'.exports.get? a.resourceId = some row ∧ row.state = .quarantined ∧
        row.approvalRequired = true)
  /-- It is the only one. -/
  alone : ∀ id b, st'.approvals.get? id = some b → id = a.id ∨ ∃ b, st.approvals.get? id = some b

/-- An approval among those after a request was there, or is the one that was asked for. -/
theorem approval_of_asks {demanded : Bool} {type resource id : String} {t t' : Table ApprovalRow.id}
    {a : ApprovalRow} (h : Asks demanded type resource t t') (ha : t'.get? id = some a) : t.get? id = some a ∨
      demanded = true ∧ a.resourceType = type ∧ a.resourceId = resource ∧
        (a.state = .requested ∧ a.approved = false ∧ a.decidedAt = none) ∧
        ∀ id b, t'.get? id = some b → id = a.id ∨ ∃ b, t.get? id = some b := by
  cases h with
  | no => exact .inl ha
  | yes demanded b fresh type resource pending =>
    obtain ⟨-, rfl⟩ | ⟨-, ha⟩ := Table.eq_or_of_get?_put ha
    · refine .inr ⟨demanded, type, resource, pending, fun id c hc => ?_⟩
      exact (Table.eq_or_of_get?_put hc).imp And.left fun h => ⟨c, h.2⟩
    · exact .inl ha

/-- An approval that is there afterwards was there, or is for what has been created. -/
theorem approval_of_effect {id : String} {a' : ApprovalRow} (h : Effect env now r m m' st st')
    (ha : st'.approvals.get? id = some a') : (∃ a, st.approvals.get? id = some a) ∨
      NewApproval st st' a' := by
  cases h with
  | onlyEvents | labDestroyed | leaseIssued | leaseRevoked | runCreated | jobQueued | jobFailed | jobMadeRun
  | snapshotCreated | exportReleased | exportDenied => exact .inl ⟨_, ha⟩
  | labCreated new | jobMadeLab _ _ _ new =>
    rcases approval_of_asks new.asks ha with ha | ⟨-, type, resource, pending, alone⟩
    · exact .inl ⟨_, ha⟩
    · refine .inr ⟨pending, .inl ⟨type, ?_⟩, alone⟩
      rw [resource]
      exact ⟨new.fresh, _, Table.get?_put_self _ _⟩
  | exportStaged new =>
    rcases approval_of_asks new.asks ha with ha | ⟨demanded, type, resource, pending, alone⟩
    · exact .inl ⟨_, ha⟩
    · refine .inr ⟨pending, .inr ⟨type, ?_⟩, alone⟩
      rw [resource]
      exact ⟨new.fresh, _, Table.get?_put_self _ _, new.state.1, demanded⟩
  | labDecided decides | exportDecided decides | otherDecided decides =>
    have hid := Table.key_of_get? decides.row
    exact .inl (Table.exists_of_get?_put ha decides.row hid)
  | reconciled sweeps => exact .inl ((addsNone_of_sweeps sweeps).approvals ha)

/-! ### Exports -/

/-- What answering `r` may make of an export. -/
inductive ExportMove (now : ℤ) (st st' : Store) (r : Request β) : ExportRow → ExportRow → Prop where
  | same {row} : ExportMove now st st' r row row
  | decided {row decision approvalId actor comment a}
      (request : r = decisionRequest decision approvalId actor comment)
      (decides : Decides now st decision approvalId comment a) (type : a.resourceType = "export")
      (resource : a.resourceId = row.id)
      (stored : st'.approvals.get? a.id = some (App.decidedApproval now decision actor comment a)) :
      ExportMove now st st' r row (App.decidedExport decision comment row)
  | released {row storage} (request : r = .releaseExport row.id)
      (hstorage : st.labStorage.get? row.labId = some storage) (unrejected : row.state ≠ .rejected)
      (unreleased : row.state ≠ .released) (cleared : row.approvalRequired = false) :
      ExportMove now st st' r row { row with
        state := .released, denialReason := none
        releasedPath := some (ExportGate.releasedDir storage row.id ++ [PosixPath.name row.quarantinePath]) }
  | denied {row reason} (request : r = .denyExport row.id reason) (unrejected : row.state ≠ .rejected)
      (unreleased : row.state ≠ .released) (reasoned : Strings.isBlank reason = false) :
      ExportMove now st st' r row
        { row with state := .rejected, denialReason := some reason, releasedPath := none }
  | swept {row row' at'} (request : IsPass r at') (swept : SweptExport at' st st' row row') :
      ExportMove now st st' r row row'

omit [Content β] in
/-- An export keeps the lab and the run it is of. -/
theorem origin_of_exportMove {row row' : ExportRow} (h : ExportMove now st st' r row row') :
    row'.labId = row.labId ∧ row'.runId = row.runId := by
  cases h with
  | @decided decision => cases decision <;> exact ⟨rfl, rfl⟩
  | swept _ swept => rcases swept with rfl | ⟨-, rfl⟩ <;> exact ⟨rfl, rfl⟩
  | _ => exact ⟨rfl, rfl⟩

theorem decidedExport_id (decision : App.Decision) (comment : Option String) (row : ExportRow) :
    (App.decidedExport decision comment row).id = row.id := by
  cases decision <;> rfl

theorem exportMove_of_effect {id : String} {row : ExportRow} (h : Effect env now r m m' st st')
    (hrow : st.exports.get? id = some row) :
    ∃ row', st'.exports.get? id = some row' ∧ ExportMove now st st' r row row' := by
  cases h with
  | onlyEvents | labCreated | labDestroyed | leaseIssued | leaseRevoked | runCreated | jobQueued | jobFailed
  | jobMadeLab | jobMadeRun | labDecided | otherDecided | snapshotCreated => exact ⟨row, hrow, .same⟩
  | exportDecided decides type h =>
    have hid := Table.key_of_get? h
    exact Table.exists_move_of_put (fun _ => .same) h ((decidedExport_id _ _ _).trans hid)
      (.decided rfl decides type hid.symm (Table.get?_put_self _ _)) hrow
  | exportStaged new => exact ⟨row, Table.get?_put_of_fresh new.fresh hrow, .same⟩
  | exportReleased h hstorage unrejected unreleased cleared =>
    have hid := Table.key_of_get? h
    exact Table.exists_move_of_put (fun _ => .same) h hid
      (.released (by rw [hid]) hstorage unrejected unreleased cleared) hrow
  | exportDenied h unrejected unreleased reasoned =>
    have hid := Table.key_of_get? h
    exact Table.exists_move_of_put (fun _ => .same) h hid
      (.denied (by rw [hid]) unrejected unreleased reasoned) hrow
  | reconciled sweeps =>
    obtain ⟨row', hrow', hswept⟩ := sweptExport_of_sweeps sweeps hrow
    exact ⟨row', hrow', .swept ⟨_, _, _, _, rfl, rfl⟩ hswept⟩

/-- An export that is there afterwards was there, or has been staged. -/
theorem export_of_effect {id : String} {row' : ExportRow} (h : Effect env now r m m' st st')
    (hrow : st'.exports.get? id = some row') : (∃ row, st.exports.get? id = some row) ∨
      ∃ labId sourcePath runId requester, r = .createExport labId sourcePath runId requester ∧
        NewExport env m m' st labId row' st'.approvals := by
  cases h with
  | onlyEvents | labCreated | labDestroyed | leaseIssued | leaseRevoked | runCreated | jobQueued | jobFailed
  | jobMadeLab | jobMadeRun | labDecided | otherDecided | snapshotCreated => exact .inl ⟨_, hrow⟩
  | exportStaged new =>
    rcases Table.eq_or_of_get?_put hrow with ⟨-, rfl⟩ | ⟨-, hrow⟩
    · exact .inr ⟨_, _, _, _, rfl, new⟩
    · exact .inl ⟨_, hrow⟩
  | exportDecided _ _ h =>
    have hid := Table.key_of_get? h
    exact .inl (Table.exists_of_get?_put hrow h ((decidedExport_id _ _ _).trans hid))
  | exportReleased h | exportDenied h =>
    have hid := Table.key_of_get? h
    exact .inl (Table.exists_of_get?_put hrow h hid)
  | reconciled sweeps => exact .inl ((addsNone_of_sweeps sweeps).exports hrow)

end Effects

end LabOS
