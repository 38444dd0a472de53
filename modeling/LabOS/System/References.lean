import LabOS.System.Coherence
import LabOS.System.Commits
import LabOS.System.Leases

/-!
# References between rows

The default store does not enforce foreign keys. That rows name only rows that are there
is an invariant over all tables: labs come with their storage row, everything else is made for
a lab that was looked up, an approval is made together with what it is for, and no row
is ever deleted.

## What is proved

* `references_of_effect` — answering a request keeps `References`.
* `references_never_dangle` — they hold in every reachable state; so listing the labs never
  fails, and a decision always finds what it is about.
-/

namespace LabOS

open Exceptional

variable {β : Type} [Content β]

/-- What an approval is for is there, and is, or is of, the lab the approval names. -/
def RefersWithin (st : Store) (a : ApprovalRow) : Prop :=
  a.resourceType = "lab" ∧ a.labId = some a.resourceId ∧ (∃ lab, st.labs.get? a.resourceId = some lab) ∨
  a.resourceType = "export" ∧ ∃ row, st.exports.get? a.resourceId = some row ∧ a.labId = some row.labId

theorem RefersWithin.lab {st : Store} {a : ApprovalRow} (h : RefersWithin st a)
    (type : a.resourceType = "lab") : a.labId = some a.resourceId := by
  rcases h with ⟨-, hlab, -⟩ | ⟨type', -⟩
  · exact hlab
  · rw [type] at type'
    exact absurd type' (by decide)

theorem RefersWithin.export {st : Store} {a : ApprovalRow} {row : ExportRow} (h : RefersWithin st a)
    (type : a.resourceType = "export") (hrow : st.exports.get? a.resourceId = some row) :
    a.labId = some row.labId := by
  rcases h with ⟨type', -⟩ | ⟨-, row', hrow', hlab⟩
  · rw [type] at type'
    exact absurd type' (by decide)
  · obtain rfl := Option.some.inj (hrow'.symm.trans hrow)
    exact hlab

/-- Every reference leads to a row. -/
structure References (st : Store) : Prop where
  storage : ∀ id lab, st.labs.get? id = some lab → ∃ storage, st.labStorage.get? id = some storage
  runs : ∀ id run, st.runs.get? id = some run → ∃ lab, st.labs.get? run.labId = some lab
  exports : ∀ id row, st.exports.get? id = some row → ∃ lab, st.labs.get? row.labId = some lab
  snapshots : ∀ id row, st.snapshots.get? id = some row → ∃ lab, st.labs.get? row.labId = some lab
  leases : ∀ id lease, st.secretLeases.get? id = some lease → ∃ lab, st.labs.get? lease.labId = some lab
  exportRuns : ∀ id row runId, st.exports.get? id = some row → row.runId = some runId →
    ∃ run, st.runs.get? runId = some run ∧ run.labId = row.labId
  approvals : ∀ id a, st.approvals.get? id = some a → RefersWithin st a
  /-- A lab or an export has one approval at most. -/
  single : ∀ id id' a a', st.approvals.get? id = some a → st.approvals.get? id' = some a' →
    a.resourceType = a'.resourceType → a.resourceId = a'.resourceId → id = id'

theorem references_empty : References Store.empty := by
  constructor
  case single =>
    intro id id' a a' h
    cases h
  case exportRuns =>
    intro id row runId h
    cases h
  all_goals
    intro id row h
    cases h

/-! ### What new rows refer to -/

/-- An approval that is new is for what is named in it, and an export that is new has a run of its own lab. -/
structure RefersAnew (st st' : Store) : Prop where
  approvals : ∀ id a, st'.approvals.get? id = some a → st.approvals.get? id = none →
    a.resourceType = "lab" ∧ a.labId = some a.resourceId ∨
    a.resourceType = "export" ∧ ∃ row, st'.exports.get? a.resourceId = some row ∧ a.labId = some row.labId
  exports : ∀ id row runId, st'.exports.get? id = some row → st.exports.get? id = none →
    row.runId = some runId → ∃ run, st.runs.get? runId = some run ∧ run.labId = row.labId

section Handlers

variable {env : Environment β} {now : ℤ} {s s' : Session β}

/-- An approval that is asked for names what it is asked with. -/
theorem asked_of_recordApprovalRequest {demanded : Bool} {labId labId' runId : Option String}
    {resourceType resourceId action reason requestedBy : String} {u : Unit}
    (h : whenever demanded (do
      let approval ← App.recordApprovalRequest env now labId resourceType resourceId action reason requestedBy
      recordEvent (App.approvalRequested approval labId' runId)) s = .ok u s') :
    s'.store.exports = s.store.exports ∧ ∀ id a, s'.store.approvals.get? id = some a →
      s.store.approvals.get? id = none →
      a.resourceType = resourceType ∧ a.labId = labId ∧ a.resourceId = resourceId := by
  unfold App.recordApprovalRequest at h
  rcases whenever_eq_ok.mp h with ⟨-, h⟩ | ⟨-, rfl⟩
  · simp [bind_eq_ok] at h
    obtain ⟨-, rfl⟩ := h
    refine ⟨rfl, fun id a ha hnone => ?_⟩
    rcases Table.eq_or_of_get?_put ha with ⟨-, rfl⟩ | ⟨-, ha⟩
    · exact ⟨rfl, rfl, rfl⟩
    · rw [hnone] at ha
      cases ha
  · refine ⟨rfl, fun id a ha hnone => ?_⟩
    rw [hnone] at ha
    cases ha

theorem refersAnew_of_createLabRecord {profileName : String} {requester : RequesterType} {lab : LabRow}
    (h : App.createLabRecord env now profileName requester s = .ok lab s') :
    RefersAnew s.store s'.store := by
  simp [App.createLabRecord, bind_eq_ok] at h
  obtain ⟨decision, -, allocation, d, -, -, -, _, s₁, hasks, rfl, rfl⟩ := h
  obtain ⟨hexports, hasks⟩ := asked_of_recordApprovalRequest hasks
  refine ⟨fun id a ha hnone => ?_, fun id row runId hrow hnone _ => ?_⟩
  · obtain ⟨htype, hlabId, hresource⟩ := hasks id a ha hnone
    exact .inl ⟨htype, by rw [hlabId, hresource]⟩
  · have hold : s.store.exports.get? id = some row := by
      rw [← hrow]
      exact congrArg (fun t => t.get? id) hexports.symm
    rw [hnone] at hold
    cases hold

/-- Rows that are as they were. -/
theorem RefersAnew.same {st st' : Store} (happrovals : st'.approvals = st.approvals)
    (hexports : st'.exports = st.exports) : RefersAnew st st' := by
  constructor
  · intro id a ha hnone
    rw [happrovals, hnone] at ha
    cases ha
  · intro id row runId hrow hnone
    rw [hexports, hnone] at hrow
    cases hrow

/-- **A dispatch that returns** has created a lab, between what it does to its job and to the log, or has left
approvals, exports and storage as they were. -/
theorem made_of_dispatchNextSchedulerJob {row : SchedulerJobRow}
    (h : App.dispatchNextSchedulerJob env now s = .ok row s') :
    (∃ jobs jobs' events events' profileName lab s₁,
      App.createLabRecord env now profileName .scheduler
        { s with store := { s.store with schedulerJobs := jobs, events := events } } = .ok lab s₁ ∧
      s'.store = { s₁.store with schedulerJobs := jobs', events := events' } ∧ s'.minted = s₁.minted) ∨
    s'.store.approvals = s.store.approvals ∧ s'.store.exports = s.store.exports ∧
      s'.store.labStorage = s.store.labStorage := by
  simp [App.dispatchNextSchedulerJob, App.recordDispatch, bind_eq_ok] at h
  obtain ⟨s₁, h, rfl⟩ := h
  obtain ⟨job, outcome, s₂, -, hattempt, rfl, rfl⟩ := runNext_eq_ok.mp h
  rcases attempt_eq_ok.mp hattempt with ⟨result, rfl, haction⟩ | ⟨e, rfl, haction⟩
  · rcases SchedulerService.action_eq_ok (rollingBack_eq_ok.mp haction) with
      ⟨profileName, id, -, -, hcreate, -⟩ | ⟨labId, command, id, -, -, -, hcreate, -⟩
    · simp [App.createJobLab] at hcreate
      obtain ⟨lab, hcreate, -⟩ := hcreate
      exact .inl ⟨_, _, _, _, profileName, lab, _, hcreate, rfl, rfl⟩
    · simp [App.createJobRun] at hcreate
      obtain ⟨run, hcreate, -⟩ := hcreate
      have hstore := (createRunRecord_eq_ok hcreate).2
      exact .inr ⟨by rw [hstore], by rw [hstore], by rw [hstore]⟩
  · have hstore := store_of_rollingBack_error haction
    exact .inr ⟨by rw [hstore], by rw [hstore], by rw [hstore]⟩

theorem refersAnew_of_dispatchNextSchedulerJob {row : SchedulerJobRow}
    (h : App.dispatchNextSchedulerJob env now s = .ok row s') : RefersAnew s.store s'.store := by
  rcases made_of_dispatchNextSchedulerJob h with
    ⟨_, _, _, _, profileName, lab, s₁, hcreate, hstore, -⟩ | ⟨happrovals, hexports, -⟩
  · obtain ⟨happrovals, hexports⟩ := refersAnew_of_createLabRecord hcreate
    rw [hstore]
    exact ⟨happrovals, hexports⟩
  · exact .same happrovals hexports

omit [Content β] in
/-- The run that is checked is there, and of the lab. -/
theorem run_of_checkRun {runId : Option String} {lab : LabRow} {mismatch : Exc} {u : Unit}
    (h : App.checkRun runId lab mismatch s = .ok u s') (id : String) (hid : runId = some id) :
    ∃ run, s.store.runs.get? id = some run ∧ run.labId = lab.id := by
  subst hid
  simp only [App.checkRun, bind_eq_ok, getOr_eq_ok, raiseIf_eq_ok] at h
  obtain ⟨run, _, ⟨hrun, rfl⟩, hlab, -⟩ := h
  exact ⟨run, hrun, not_not.mp hlab⟩

theorem refersAnew_of_createExport {labId sourcePath : String} {runId : Option String}
    {requester : RequesterType} {row : ExportRow}
    (h : App.createExport env now labId sourcePath runId requester s = .ok row s') :
    RefersAnew s.store s'.store := by
  simp [App.createExport, adaptExcept_eq_ok, bind_eq_ok] at h
  obtain ⟨lab, -, storage, -, _, _, hrun, staged, d, -, -, ⟨_, happroval⟩, rfl⟩ := h
  obtain rfl := checkRun_eq_ok hrun
  obtain ⟨hexports, hasks⟩ := asked_of_recordApprovalRequest happroval
  have hstored : s'.store.exports =
      s.store.exports.put (App.newExport now (env.uuid4 s.minted) lab runId staged) :=
    hexports
  refine ⟨fun id a ha hnone => ?_, fun id row runId' hrow hnone hrunId => ?_⟩
  · obtain ⟨htype, hlabId, hresource⟩ := hasks id a ha hnone
    refine .inr ⟨htype, _, ?_, hlabId⟩
    rw [hstored, hresource]
    exact Table.get?_put_self _ _
  · rw [hstored] at hrow
    rcases Table.eq_or_of_get?_put hrow with ⟨-, rfl⟩ | ⟨-, hold⟩
    · exact run_of_checkRun hrun runId' hrunId
    · rw [hnone] at hold
      cases hold

/-- The requests that may add an approval. -/
def mayAsk : Request β → Bool
  | .createLab _ _ | .dispatchNextSchedulerJob | .createExport _ _ _ _ => true
  | _ => false

/-- Only those add an approval or an export. -/
theorem refersAnew_of_effect {r : Request β} {m m' : ℕ} {st st' : Store} (h : Effect env now r m m' st st')
    (hr : mayAsk r = false) : RefersAnew st st' := by
  constructor
  · intro id a ha hnone
    suffices hold : ∃ b, st.approvals.get? id = some b by
      obtain ⟨b, hb⟩ := hold
      rw [hnone] at hb
      cases hb
    cases h with
    | labCreated | jobMadeLab | exportStaged => cases hr
    | labDecided decides | exportDecided decides | otherDecided decides =>
      have hid := Table.key_of_get? decides.row
      exact Table.exists_of_get?_put ha decides.row hid
    | reconciled sweeps => exact (addsNone_of_sweeps sweeps).approvals ha
    | _ => exact ⟨a, ha⟩
  · intro id row runId hrow hnone _
    rcases export_of_effect h hrow with ⟨row, hold⟩ | ⟨_, _, _, _, rfl, -⟩
    · rw [hnone] at hold
      cases hold
    · cases hr

/-- **What a request adds refers to what is there.** -/
theorem refersAnew_of_answer (env : Environment β) (s : State β) (r : Request β) (now : ℤ)
    (fates : List Fate) :
    RefersAnew s.store (endState (answer env s r now fates)).store := by
  have hsame : RefersAnew s.store s.store := .same rfl rfl
  rcases store_of_answer env s r now fates with hstore | ⟨result, s₁, h, hstore⟩
  · rwa [hstore]
  have heffect := effect_of_answer env s r now fates
  rw [hstore] at heffect ⊢
  cases r with
  | createLab =>
    obtain ⟨row, h, -⟩ := map_eq_ok.mp h
    exact refersAnew_of_createLabRecord h
  | dispatchNextSchedulerJob =>
    obtain ⟨row, h, -⟩ := map_eq_ok.mp h
    exact refersAnew_of_dispatchNextSchedulerJob h
  | createExport =>
    obtain ⟨row, h, -⟩ := map_eq_ok.mp h
    exact refersAnew_of_createExport h
  | _ => exact refersAnew_of_effect heffect rfl

end Handlers

/-! ### Steps -/

section Effects

variable {env : Environment β} {now : ℤ} {r : Request β} {m m' : ℕ} {st st' : Store}

/-- The lab that is referred to stays. -/
theorem lab_kept {id : String} (h : Effect env now r m m' st st') (hlab : ∃ lab, st.labs.get? id = some lab) :
    ∃ lab, st'.labs.get? id = some lab := by
  obtain ⟨lab, hlab⟩ := hlab
  obtain ⟨lab', hlab', -⟩ := labs_of_effect h hlab
  exact ⟨lab', hlab'⟩

omit [Content β] in
/-- An approval keeps what it is for and the lab it names. -/
theorem subject_of_approvalMove {a a' : ApprovalRow} (h : ApprovalMove now st r a a') :
    a'.resourceType = a.resourceType ∧ a'.resourceId = a.resourceId ∧ a'.labId = a.labId := by
  cases h with
  | same => exact ⟨rfl, rfl, rfl⟩
  | decided => exact ⟨rfl, rfl, rfl⟩
  | swept _ swept => rcases swept with rfl | ⟨-, -, rfl⟩ <;> exact ⟨rfl, rfl, rfl⟩

omit [Content β] in
theorem runLab_of_sweeps {now : DateTime} {id : String} {run : RunRow} (h : Sweeps now st st')
    (hrun : st.runs.get? id = some run) : ∃ run', st'.runs.get? id = some run' ∧ run'.labId = run.labId := by
  induction h with
  | refl => exact ⟨run, hrun, rfl⟩
  | tail _ hsweep ih =>
    obtain ⟨run₁, h₁, hlab⟩ := ih
    rw [← hlab]
    cases hsweep with
    | runTimedOut h₂ =>
      refine Table.exists_move_of_put (R := fun run run' => run'.labId = run.labId) (fun _ => rfl) h₂ ?_ ?_ h₁
      · rfl
      · rfl
    | _ => exact ⟨run₁, h₁, rfl⟩

/-- A run stays, and keeps the lab it is of. -/
theorem runLab_of_effect {id : String} {run : RunRow} (h : Effect env now r m m' st st')
    (hrun : st.runs.get? id = some run) : ∃ run', st'.runs.get? id = some run' ∧ run'.labId = run.labId := by
  cases h with
  | runCreated new | jobMadeRun _ _ _ new => exact ⟨run, Table.get?_put_of_fresh new.fresh hrun, rfl⟩
  | reconciled sweeps => exact runLab_of_sweeps sweeps hrun
  | _ => exact ⟨run, hrun, rfl⟩

theorem runs_refer (h : Effect env now r m m' st st')
    (hst : ∀ id run, st.runs.get? id = some run → ∃ lab, st.labs.get? run.labId = some lab) :
    ∀ id run, st'.runs.get? id = some run → ∃ lab, st'.labs.get? run.labId = some lab := by
  intro id run' hrun'
  have hold : (∃ run, st.runs.get? id = some run) → ∃ lab, st'.labs.get? run'.labId = some lab := by
    rintro ⟨run, hrun⟩
    obtain ⟨run₁, hrun₁, hlab⟩ := runLab_of_effect h hrun
    obtain rfl := Option.some.inj (hrun₁.symm.trans hrun')
    exact hlab ▸ lab_kept h (hst id run hrun)
  cases h with
  | runCreated new | jobMadeRun _ _ _ new =>
    rcases Table.eq_or_of_get?_put hrun' with ⟨-, rfl⟩ | ⟨-, hrun⟩
    · rw [new.labId]
      exact new.lab
    · exact hold ⟨_, hrun⟩
  | reconciled sweeps => exact hold ((addsNone_of_sweeps sweeps).runs hrun')
  | _ => exact hold ⟨_, hrun'⟩

theorem leases_refer (h : Effect env now r m m' st st')
    (hst : ∀ id lease, st.secretLeases.get? id = some lease → ∃ lab, st.labs.get? lease.labId = some lab) :
    ∀ id lease, st'.secretLeases.get? id = some lease → ∃ lab, st'.labs.get? lease.labId = some lab := by
  intro id lease' hlease'
  have hold : (∃ lease, st.secretLeases.get? id = some lease) →
      ∃ lab, st'.labs.get? lease'.labId = some lab := by
    rintro ⟨lease, hlease⟩
    obtain ⟨lease₁, hlease₁, hmove⟩ := leaseMove_of_effect h hlease
    obtain rfl := Option.some.inj (hlease₁.symm.trans hlease')
    have hlab : lease₁.labId = lease.labId := by
      rcases hmove with rfl | ⟨-, at', rfl⟩ <;> rfl
    exact hlab ▸ lab_kept h (hst id lease hlease)
  cases h with
  | leaseIssued new =>
    rcases Table.eq_or_of_get?_put hlease' with ⟨-, rfl⟩ | ⟨-, hlease⟩
    · obtain ⟨lab, profile, hlab, -⟩ := new.allowed
      exact ⟨lab, new.labId ▸ hlab⟩
    · exact hold ⟨_, hlease⟩
  | leaseRevoked hlease =>
    have hid := Table.key_of_get? hlease
    exact hold (Table.exists_of_get?_put hlease' hlease hid)
  | reconciled sweeps => exact hold ((addsNone_of_sweeps sweeps).secretLeases hlease')
  | _ => exact hold ⟨_, hlease'⟩

theorem exportRuns_refer (h : Effect env now r m m' st st') (hnew : RefersAnew st st')
    (hst : ∀ id row runId, st.exports.get? id = some row → row.runId = some runId →
      ∃ run, st.runs.get? runId = some run ∧ run.labId = row.labId) :
    ∀ id row runId, st'.exports.get? id = some row → row.runId = some runId →
      ∃ run, st'.runs.get? runId = some run ∧ run.labId = row.labId := by
  intro id row' runId hrow' hrunId
  have hrun : ∃ run, st.runs.get? runId = some run ∧ run.labId = row'.labId := by
    cases hrow : st.exports.get? id with
    | none => exact hnew.exports id row' runId hrow' hrow hrunId
    | some row =>
      obtain ⟨row₁, hrow₁, hmove⟩ := exportMove_of_effect h hrow
      obtain rfl := Option.some.inj (hrow₁.symm.trans hrow')
      obtain ⟨hlab, hrunId'⟩ := origin_of_exportMove hmove
      rw [hlab]
      exact hst id row runId hrow (hrunId' ▸ hrunId)
  obtain ⟨run, hrun, hlab⟩ := hrun
  obtain ⟨run', hrun', hlab'⟩ := runLab_of_effect h hrun
  exact ⟨run', hrun', hlab'.trans hlab⟩

theorem approvals_refer (h : Effect env now r m m' st st') (hnew : RefersAnew st st')
    (hst : ∀ id a, st.approvals.get? id = some a → RefersWithin st a) :
    ∀ id a, st'.approvals.get? id = some a → RefersWithin st' a := by
  intro id a' ha'
  cases ha : st.approvals.get? id with
  | none =>
    rcases approval_of_effect h ha' with ⟨a, hold⟩ | new
    · rw [ha] at hold
      cases hold
    · rcases hnew.approvals id a' ha' ha with ⟨htype, hlabId⟩ | ⟨htype, row, hrow, hlabId⟩
      · rcases new.resource with ⟨-, -, hlab⟩ | ⟨htype', -⟩
        · exact .inl ⟨htype, hlabId, hlab⟩
        · rw [htype] at htype'
          exact absurd htype' (by decide)
      · exact .inr ⟨htype, row, hrow, hlabId⟩
  | some a =>
    obtain ⟨a₁, ha₁, hmove⟩ := approvalMove_of_effect h ha
    obtain rfl := Option.some.inj (ha₁.symm.trans ha')
    obtain ⟨htype, hresource, hlabId⟩ := subject_of_approvalMove hmove
    unfold RefersWithin
    rw [htype, hresource, hlabId]
    rcases hst id a ha with ⟨htype, hlabId, hlab⟩ | ⟨htype, row, hrow, hlabId⟩
    · exact .inl ⟨htype, hlabId, lab_kept h hlab⟩
    · obtain ⟨row', hrow', hmove'⟩ := exportMove_of_effect h hrow
      exact .inr ⟨htype, row', hrow', hlabId.trans (congrArg some (origin_of_exportMove hmove').1.symm)⟩

/-- What an approval that is there is for is not new. -/
theorem not_new_of_refers {a b : ApprovalRow} (ha : RefersWithin st a) (hnew : NewApproval st st' b)
    (htype : a.resourceType = b.resourceType) (hresource : a.resourceId = b.resourceId) : False := by
  rcases hnew.resource with ⟨htype', hnone, -⟩ | ⟨htype', hnone, -⟩
  · rcases ha with ⟨-, -, lab, hlab⟩ | ⟨htype'', -⟩
    · rw [hresource, hnone] at hlab
      cases hlab
    · rw [htype, htype'] at htype''
      exact absurd htype'' (by decide)
  · rcases ha with ⟨htype'', -⟩ | ⟨-, row, hrow, -⟩
    · rw [htype, htype'] at htype''
      exact absurd htype'' (by decide)
    · rw [hresource, hnone] at hrow
      cases hrow

theorem single_of_effect (h : Effect env now r m m' st st') (hst : References st) :
    ∀ id id' a a', st'.approvals.get? id = some a → st'.approvals.get? id' = some a' →
      a.resourceType = a'.resourceType → a.resourceId = a'.resourceId → id = id' := by
  -- an approval before the step, with the subject of the one after it
  have hold : ∀ {id a'}, st'.approvals.get? id = some a' → (∃ a, st.approvals.get? id = some a) →
      ∃ a, st.approvals.get? id = some a ∧ a.resourceType = a'.resourceType ∧
        a.resourceId = a'.resourceId := by
    rintro id a' ha' ⟨a, ha⟩
    obtain ⟨a₁, ha₁, hmove⟩ := approvalMove_of_effect h ha
    obtain rfl := Option.some.inj (ha₁.symm.trans ha')
    obtain ⟨htype, hresource, -⟩ := subject_of_approvalMove hmove
    exact ⟨a, ha, htype.symm, hresource.symm⟩
  -- a new approval shares its subject with no other
  have hfresh : ∀ {id id' a b}, NewApproval st st' a → st'.approvals.get? id = some a →
      st'.approvals.get? id' = some b → b.resourceType = a.resourceType → b.resourceId = a.resourceId →
      id = id' := by
    intro id id' a b new ha hb htype hresource
    have hid : a.id = id := Table.key_of_get? ha
    rcases new.alone id' b hb with hid' | hbefore
    · exact hid.symm.trans hid'.symm
    · obtain ⟨c, hc, htype', hresource'⟩ := hold hb hbefore
      exact (not_new_of_refers (hst.approvals id' c hc) new (htype'.trans htype)
        (hresource'.trans hresource)).elim
  intro id id' a a' ha ha' htype hresource
  rcases approval_of_effect h ha with hbefore | new
  · rcases approval_of_effect h ha' with hbefore' | new'
    · obtain ⟨b, hb, htype₁, hresource₁⟩ := hold ha hbefore
      obtain ⟨b', hb', htype₂, hresource₂⟩ := hold ha' hbefore'
      exact hst.single id id' b b' hb hb' (htype₁.trans (htype.trans htype₂.symm))
        (hresource₁.trans (hresource.trans hresource₂.symm))
    · exact (hfresh new' ha' ha htype hresource).symm
  · exact hfresh new ha ha' htype.symm hresource.symm

/-- **Answering a request keeps the references.** -/
theorem references_of_effect (h : Effect env now r m m' st st') (hnew : RefersAnew st st')
    (hsound : Sound env m' st') (hst : References st) : References st' where
  storage := hsound.stored
  runs := runs_refer h hst.runs
  exports id row hrow := (hsound.exports id row hrow).2.1
  snapshots id row hrow := by
    obtain ⟨lab, hlab, -⟩ := (hsound.snapshots id row hrow).2.1
    exact ⟨lab, hlab⟩
  leases := leases_refer h hst.leases
  exportRuns := exportRuns_refer h hnew hst.exportRuns
  approvals := approvals_refer h hnew hst.approvals
  single := single_of_effect h hst

end Effects

/-! ### Runs -/

section Runs

variable {env : Environment β}

/-- **The references of every reachable state lead to rows.** -/
theorem references_of_run {s₀ : State β} (h₀ : Initial env s₀) (actions : List (Action β)) :
    References (runFrom env s₀ actions).store := by
  have hkept : ∀ (s : State β) (a : Action β), SoundState env s ∧ References s.store →
      SoundState env (step env s a) ∧ References (step env s a).store := by
    rintro s a ⟨hsound, hrefs⟩
    refine ⟨sound_of_step hsound a, ?_⟩
    cases a with
    | request r now fates =>
      exact references_of_effect (effect_of_answer env s r now fates) (refersAnew_of_answer env s r now fates)
        (sound_of_step hsound (.request r now fates)) hrefs
    | guest labId entries => exact hrefs
  refine (Runs.after_keeps (I := fun s => SoundState env s ∧ References s.store) hkept ⟨?_, ?_⟩).2
  · exact sound_of_run h₀ []
  · rw [h₀.store]
    exact references_empty

/-! ### What follows -/

omit [Content β] in
/-- A lookup for each row that finds something for each of them. -/
theorem mapM_of_found {ρ γ : Type} {f : ρ → SessionM β γ} {P : ρ → γ → Prop} {rows : List ρ} {s : Session β}
    (h : ∀ row ∈ rows, ∃ found, f row s = .ok found s ∧ P row found) :
    ∃ found, rows.mapM f s = .ok found s ∧ List.Forall₂ P rows found := by
  induction rows with
  | nil => exact ⟨[], rfl, .nil⟩
  | cons row rows ih =>
    obtain ⟨y, hy, hP⟩ := h row List.mem_cons_self
    obtain ⟨ys, hys, hall⟩ := ih fun r hr => h r (List.mem_cons_of_mem _ hr)
    refine ⟨y :: ys, ?_, .cons hP hall⟩
    rw [List.mapM_cons]
    exact bind_of_ok hy (bind_of_ok hys rfl)

/-- The labs in the order of the list. -/
def labsInOrder (st : Store) : List LabRow :=
  st.labs.select (fun _ => true) (ReconciliationService.before LabRow.createdAt LabRow.id)

omit [Content β] in
/-- **Where every lab has its storage row, the labs are listed**, each with its own. -/
theorem listLabs_eq_ok {s : Session β} (h : References s.store) :
    ∃ listed, App.listLabs s = .ok listed s ∧
      List.Forall₂ (fun lab entry => entry.1 = lab ∧ s.store.labStorage.get? lab.id = some entry.2)
        (labsInOrder s.store) listed := by
  unfold App.listLabs
  rw [bind_run_of_ok (get_run s)]
  apply mapM_of_found
  intro lab hlab
  have hstored : s.store.labs.get? lab.id = some lab := (get?_of_mem_select hlab).2
  obtain ⟨storage, hstorage⟩ := h.storage lab.id lab hstored
  have hmem : ((labsInOrder s.store).map LabRow.id).contains lab.id = true :=
    List.contains_iff_mem.mpr (List.mem_map_of_mem hlab)
  have hfound : (s.store.labStorage.rows.filter fun storageRow =>
      ((labsInOrder s.store).map LabRow.id).contains storageRow.labId).find?
        (fun storageRow => storageRow.labId = lab.id) = some storage := by
    rw [List.find?_filter, ← hstorage]
    refine congrArg (fun p => s.store.labStorage.rows.find? p) (funext fun row => ?_)
    by_cases hrow : row.labId = lab.id
    · rw [hrow, hmem]
      simp
    · simp [hrow]
  refine ⟨(lab, storage), ?_, rfl, hstorage⟩
  exact bind_of_ok (orRaise_eq_ok.mpr ⟨hfound, rfl⟩) rfl

omit [Content β] in
/-- What an approval is for is found. -/
theorem decideResource_found {a : ApprovalRow} {decision : App.Decision} {comment : Option String}
    {s s' : Session β} {e : Exc} (ha : RefersWithin s.store a) :
    ¬ App.decideResource a decision comment s = .error e s' := by
  intro h
  unfold App.decideResource at h
  rcases ha with ⟨htype, -, lab, hlab⟩ | ⟨htype, row, hrow, -⟩
  · rw [if_pos htype] at h
    simp only [bind_eq_error, getOr_eq_error, setRow_eq_error, and_false, exists_false, or_false] at h
    rw [hlab] at h
    cases h.1
  · rw [if_neg (by simp [htype]), if_pos htype] at h
    simp only [bind_eq_error, getOr_eq_error, setRow_eq_error, and_false, exists_false, or_false] at h
    rw [hrow] at h
    cases h.1

omit [Content β] in
/-- **A decision never answers that the resource of its approval is missing.** -/
theorem decideRequest_raises {now : ℤ} {decision : App.Decision} {approvalId actor : String}
    {comment : Option String} {s s' : Session β} {e : Exc} (hrefs : References s.store)
    (h : App.decideRequest now decision approvalId actor comment s = .error e s') :
    e ≠ .resourceNotFound "lab" ∧ e ≠ .resourceNotFound "export" := by
  unfold App.decideRequest at h
  rcases bind_eq_error.mp h with hget | ⟨a, s₀, hget, hrest⟩
  · obtain ⟨-, rfl, -⟩ := getOr_eq_error.mp hget
    decide
  obtain ⟨ha, rfl⟩ := getOr_eq_ok.mp hget
  rcases bind_eq_error.mp hrest with happly | ⟨_, _, -, hlast⟩
  · unfold App.applyApprovalDecision at happly
    rcases bind_eq_error.mp happly with hpending | ⟨_, s₁, hpending, hdecide⟩
    · simp only [App.ensureApprovalPending, bind_eq_error, raiseIf_eq_error, whenever_eq_error,
        setRow_eq_error, throw_eq_error, false_or] at hpending
      rcases hpending with ⟨-, rfl, -⟩ | ⟨_, _, -, -, _, _, -, rfl, -⟩
      · decide
      · decide
    obtain ⟨-, -, rfl⟩ := ensureApprovalPending_eq_ok hpending
    simp only [bind_eq_error, raiseIf_eq_error, raiseIf_eq_ok, setRow_eq_error, setRow_eq_ok, pure_eq_error,
      and_false, exists_false, or_false, false_or] at hdecide
    rcases hdecide with ⟨-, rfl, -⟩ | ⟨_, _, ⟨-, rfl⟩, _, _, rfl, hresource⟩
    · decide
    · exact absurd hresource (decideResource_found (hrefs.approvals approvalId a ha))
  · simp only [bind_eq_error, recordEvent_eq_error, pure_eq_error, and_false, exists_false, or_false] at hlast

/-- **References never dangle.** In every reachable state every lab has one storage row, every run, export,
snapshot, lease and approval is for a lab that is there, an export that names a run names one of its own lab,
and an approval names a lab or an export that is there and has no other. So the labs can always be
listed, each with its storage, and no decision on an approval answers that a lab or an export is
missing. -/
theorem references_never_dangle (env : Environment β) (s₀ : State β) (h₀ : Initial env s₀)
    (actions : List (Action β)) :
    References (runFrom env s₀ actions).store ∧
    (∀ id lab, (runFrom env s₀ actions).store.labs.get? id = some lab →
      ∃! storage, storage ∈ (runFrom env s₀ actions).store.labStorage.rows ∧ storage.labId = id) ∧
    (∀ fates, ∃ listed, App.listLabs ((runFrom env s₀ actions).session fates) =
        .ok listed ((runFrom env s₀ actions).session fates) ∧
      List.Forall₂ (fun lab entry => entry.1 = lab ∧
          (runFrom env s₀ actions).store.labStorage.get? lab.id = some entry.2)
        (labsInOrder (runFrom env s₀ actions).store) listed) ∧
    ∀ decision approvalId actor comment now fates e s',
      answer env (runFrom env s₀ actions) (decisionRequest decision approvalId actor comment) now fates =
        .error e s' → e ≠ .resourceNotFound "lab" ∧ e ≠ .resourceNotFound "export" := by
  have hrefs := references_of_run h₀ actions
  refine ⟨hrefs, fun id lab hlab => ?_, fun fates => ?_, ?_⟩
  · obtain ⟨storage, hstorage⟩ := hrefs.storage id lab hlab
    refine ⟨storage, ⟨Table.mem_of_get? hstorage, Table.key_of_get? hstorage⟩, fun other hother => ?_⟩
    obtain ⟨hmem, rfl⟩ := hother
    exact Option.some.inj ((Table.get?_of_mem hmem).symm.trans hstorage)
  · exact listLabs_eq_ok (s := (runFrom env s₀ actions).session fates) hrefs
  · intro decision approvalId actor comment now fates e s' h
    obtain ⟨-, rfl | rfl | ⟨s₁, hbody⟩⟩ := decision_eq_error h
    · decide
    · decide
    · exact decideRequest_raises (s := (runFrom env s₀ actions).session fates) hrefs hbody

/-- The approval of a staged export is for that export, and the lab it is of is listed with its storage. -/
theorem references_never_dangle_exportRun :
    ∃ lab, (runFrom (symbolic defaultProfiles) emptyState
        (exportRun "model-local" "aa" [])).store.labs.get? "a" = some lab ∧
      ∃ a, (runFrom (symbolic defaultProfiles) emptyState
        (exportRun "model-local" "aa" [])).store.approvals.get? "aaa" = some a ∧
      RefersWithin (runFrom (symbolic defaultProfiles) emptyState (exportRun "model-local" "aa" [])).store a ∧
      ∃! storage, storage ∈ (runFrom (symbolic defaultProfiles) emptyState
        (exportRun "model-local" "aa" [])).store.labStorage.rows ∧ storage.labId = "a" := by
  have hrows : (((runFrom (symbolic defaultProfiles) emptyState
      (exportRun "model-local" "aa" [])).store.labs.get? "a").isSome &&
      ((runFrom (symbolic defaultProfiles) emptyState
        (exportRun "model-local" "aa" [])).store.approvals.get? "aaa").isSome) = true := by
    decide +kernel
  obtain ⟨hlab, happroval⟩ := (Bool.and_eq_true ..).mp hrows
  obtain ⟨lab, hlab⟩ := Option.isSome_iff_exists.mp hlab
  obtain ⟨a, ha⟩ := Option.isSome_iff_exists.mp happroval
  obtain ⟨hrefs, hstorage, -⟩ := references_never_dangle (symbolic defaultProfiles) emptyState
    (initial_emptyState _) (exportRun "model-local" "aa" [])
  exact ⟨lab, hlab, a, ha, hrefs.approvals "aaa" a ha, hstorage "a" lab hlab⟩

end Runs

end LabOS
