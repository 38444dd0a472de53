import LabOS.System.Approvals

/-!
# Coherent exports and approvals

The fields of an export fit its state, and so do those of an approval. Two rows are linked:
while an approval of an export is pending, the export still asks for it, in quarantine or
rejected. The code that decides and expires approvals does not look at the export; what
makes a released export final is that no approval of it can be pending any more, and
that in turn needs that an export has one approval at most (`Coherent`).

## What is proved

* `coherent_of_effect` — answering a request keeps the rows coherent.
* `coherent_and_final` — every reachable state is coherent, and a released export and a
  decided approval never change again.
-/

namespace LabOS

open Exceptional

variable {β : Type}

/-- The fields of an export fit its state. -/
structure CoherentExport (row : ExportRow) : Prop where
  state : row.state = .quarantined ∨ row.state = .approved ∨ row.state = .released ∨ row.state = .rejected
  releasedPath : row.releasedPath.isSome = true ↔ row.state = .released
  denialReason : row.denialReason.isSome = true ↔ row.state = .rejected
  reasoned : ∀ reason, row.denialReason = some reason → Strings.isBlank reason = false
  cleared : row.state = .approved ∨ row.state = .released → row.approvalRequired = false

/-- The fields of an approval fit its state. -/
structure CoherentApproval (a : ApprovalRow) : Prop where
  approved : a.approved = true ↔ a.state = .approved
  decidedAt : a.decidedAt.isSome = true ↔ a.state ≠ .requested

/-- The export still waits for an approval. -/
def Waits (row : ExportRow) : Prop :=
  row.approvalRequired = true ∧ (row.state = .quarantined ∨ row.state = .rejected)

/-- The exports and approvals of a reachable state. -/
structure Coherent (st : Store) : Prop where
  exports : ∀ id row, st.exports.get? id = some row → CoherentExport row
  approvals : ∀ id a, st.approvals.get? id = some a → CoherentApproval a
  waits : ∀ id a, st.approvals.get? id = some a → a.resourceType = "export" →
    ∃ row, st.exports.get? a.resourceId = some row ∧ (a.state = .requested → Waits row)
  unique : ∀ id id' a a', st.approvals.get? id = some a → st.approvals.get? id' = some a' →
    a.resourceType = "export" → a'.resourceType = "export" → a.resourceId = a'.resourceId → id = id'

theorem coherent_empty : Coherent Store.empty := by
  constructor
  · intro id row h
    cases h
  · intro id a h
    cases h
  · intro id a h
    cases h
  · intro id id' a a' h
    cases h

/-- An export that waits has not been released, and no approval has been given for it. -/
theorem Waits.unreleased {row : ExportRow} (h : Waits row) :
    row.state ≠ .released ∧ row.state ≠ .approved := by
  rcases h.2 with hs | hs <;> rw [hs] <;> decide

section Moves

variable {now : ℤ} {r : Request β} {m m' : ℕ} {st st' : Store}

/-- A decision is on an approval whose export waits for it. -/
theorem waits_of_pending {a : ApprovalRow} {row : ExportRow} (hst : Coherent st)
    (ha : st.approvals.get? a.id = some a) (pending : a.state = .requested) (type : a.resourceType = "export")
    (resource : a.resourceId = row.id) (hrow : st.exports.get? row.id = some row) : Waits row := by
  obtain ⟨row', hrow', hwaits⟩ := hst.waits a.id a ha type
  rw [resource] at hrow'
  obtain rfl := Option.some.inj (hrow'.symm.trans hrow)
  exact hwaits pending

/-- A denial that is allowed gives a reason that is not blank. -/
theorem reason_of_comment {comment : Option String} (h : comment.all Strings.isBlank = false) :
    ∃ reason, comment = some reason ∧ Strings.isBlank reason = false := by
  cases comment with
  | none => cases h
  | some reason => exact ⟨reason, rfl, h⟩

theorem coherentExport_of_move {row row' : ExportRow} (hst : Coherent st)
    (hrow : st.exports.get? row.id = some row) (h : ExportMove now st st' r row row') :
    CoherentExport row' := by
  have hold := hst.exports row.id row hrow
  -- what waits has no released path
  have hunreleased : Waits row → row.releasedPath = none := by
    intro hwaits
    rw [← Option.not_isSome_iff_eq_none, hold.releasedPath]
    exact hwaits.unreleased.1
  cases h with
  | same => exact hold
  | @decided decision _ _ comment a _ decides type resource _ =>
    have ha : st.approvals.get? a.id = some a := Table.key_of_get? decides.row ▸ decides.row
    have hwaits := waits_of_pending hst ha decides.pending type resource hrow
    cases decision with
    | approved =>
      refine ⟨.inr (.inl rfl), ?_, by simp [App.decidedExport], by simp [App.decidedExport], fun _ => rfl⟩
      simp [App.decidedExport, hunreleased hwaits]
    | rejected =>
      obtain ⟨reason, rfl, hreason⟩ := reason_of_comment (decides.commented rfl)
      refine ⟨.inr (.inr (.inr rfl)), ?_, by simp [App.decidedExport], ?_, by simp [App.decidedExport]⟩
      · simp [App.decidedExport, hunreleased hwaits]
      · intro reason' he
        obtain rfl := Option.some.inj he
        exact hreason
  | released _ _ unrejected unreleased cleared => exact ⟨by simp, by simp, by simp, by simp, fun _ => cleared⟩
  | denied _ _ _ reasoned =>
    refine ⟨by simp, by simp, by simp, ?_, by simp⟩
    intro reason' he
    obtain rfl := Option.some.inj he
    exact reasoned
  | swept _ swept =>
    rcases swept with rfl | ⟨⟨a, ha, -, requested, -, type, resource⟩, rfl⟩
    · exact hold
    · have hwaits := waits_of_pending hst ha requested type resource hrow
      refine ⟨by simp [expiredExport], ?_, by simp [expiredExport], ?_, by simp [expiredExport]⟩
      · simp [expiredExport, hunreleased hwaits]
      · intro reason' he
        obtain rfl := Option.some.inj he
        decide

theorem coherentApproval_of_move {a a' : ApprovalRow} (hold : CoherentApproval a)
    (h : ApprovalMove now st r a a') :
    CoherentApproval a' := by
  cases h with
  | same => exact hold
  | @decided decision =>
    cases decision <;> exact ⟨by simp [App.decidedApproval, App.Decision.state], by simp [App.decidedApproval,
      App.Decision.state]⟩
  | swept _ swept =>
    rcases swept with rfl | ⟨-, -, rfl⟩
    · exact hold
    · exact ⟨by simp [expiredApproval], by simp [expiredApproval]⟩

/-- What an approval is for does not change, and one that is pending afterwards has not changed at all. -/
theorem kept_of_approvalMove {a a' : ApprovalRow} (h : ApprovalMove now st r a a') :
    a'.resourceType = a.resourceType ∧ a'.resourceId = a.resourceId ∧ (a'.state = .requested → a' = a) := by
  cases h with
  | same => exact ⟨rfl, rfl, fun _ => rfl⟩
  | @decided decision => exact ⟨rfl, rfl, fun h => by cases decision <;> cases h⟩
  | swept _ swept =>
    rcases swept with rfl | ⟨-, -, rfl⟩
    · exact ⟨rfl, rfl, fun _ => rfl⟩
    · exact ⟨rfl, rfl, fun h => by cases h⟩

/-- An export whose approval is still pending afterwards still waits. -/
theorem waits_of_move {a : ApprovalRow} {row row' : ExportRow} (hst : Coherent st)
    (ha : st.approvals.get? a.id = some a) (ha' : st'.approvals.get? a.id = some a)
    (pending : a.state = .requested) (type : a.resourceType = "export") (resource : a.resourceId = row.id)
    (hwaits : Waits row) (h : ExportMove now st st' r row row') : Waits row' := by
  -- an approval of the same export is this one, and it is pending afterwards
  have hsame : ∀ b, st.approvals.get? b.id = some b → b.resourceType = "export" → b.resourceId = row.id →
      ∀ b', st'.approvals.get? b.id = some b' → b'.state = .requested := by
    intro b hb htype hresource b' hb'
    have hid := hst.unique b.id a.id b a hb ha htype type (hresource.trans resource.symm)
    rw [hid, ha'] at hb'
    exact Option.some.inj hb' ▸ pending
  cases h with
  | same => exact hwaits
  | @decided decision _ actor comment b _ decides type' resource' stored =>
    have hb : st.approvals.get? b.id = some b := Table.key_of_get? decides.row ▸ decides.row
    have := hsame b hb type' resource' _ stored
    cases decision <;> cases this
  | released _ _ _ _ cleared =>
    rw [hwaits.1] at cleared
    cases cleared
  | denied => exact ⟨hwaits.1, .inr rfl⟩
  | swept _ swept =>
    rcases swept with rfl | ⟨⟨b, hb, stored, -, -, type', resource'⟩, rfl⟩
    · exact hwaits
    · have := hsame b hb type' resource' _ stored
      cases this

/-- A released export of a coherent state stays as it is. -/
theorem released_of_move {row row' : ExportRow} (hst : Coherent st) (hrow : st.exports.get? row.id = some row)
    (hstate : row.state = .released) (h : ExportMove now st st' r row row') : row' = row := by
  cases h with
  | same => rfl
  | @decided _ _ _ _ a _ decides type resource _ =>
    have ha : st.approvals.get? a.id = some a := Table.key_of_get? decides.row ▸ decides.row
    exact absurd hstate (waits_of_pending hst ha decides.pending type resource hrow).unreleased.1
  | released _ _ _ unreleased => exact absurd hstate unreleased
  | denied _ _ unreleased => exact absurd hstate unreleased
  | swept _ swept =>
    rcases swept with rfl | ⟨⟨a, ha, -, requested, -, type, resource⟩, rfl⟩
    · rfl
    · exact absurd hstate (waits_of_pending hst ha requested type resource hrow).unreleased.1

/-- An approval that has been decided stays as it is. -/
theorem decided_of_move {a a' : ApprovalRow} (hstate : a.state ≠ .requested)
    (h : ApprovalMove now st r a a') :
    a' = a := by
  cases h with
  | same => rfl
  | decided _ decides => exact absurd decides.pending hstate
  | swept _ swept =>
    rcases swept with rfl | ⟨requested, -⟩
    · rfl
    · exact absurd requested hstate

end Moves

variable [Content β] {env : Environment β}

/-- **Answering a request keeps the rows coherent.** -/
theorem coherent_of_effect {now : ℤ} {r : Request β} {m m' : ℕ} {st st' : Store}
    (h : Effect env now r m m' st st') (hst : Coherent st) : Coherent st' := by
  have hexport : ∀ {id row'}, st'.exports.get? id = some row' → (∃ row, st.exports.get? id = some row) →
      ∃ row, row.id = id ∧ st.exports.get? row.id = some row ∧ ExportMove now st st' r row row' := by
    rintro id row' hrow' ⟨row, hrow⟩
    obtain ⟨row₁, hrow₁, hmove⟩ := exportMove_of_effect h hrow
    obtain rfl := Option.some.inj (hrow₁.symm.trans hrow')
    have hid : row.id = id := Table.key_of_get? hrow
    exact ⟨row, hid, hid ▸ hrow, hmove⟩
  have happroval : ∀ {id a'}, st'.approvals.get? id = some a' →
      (∃ a, a.id = id ∧ st.approvals.get? a.id = some a ∧ ApprovalMove now st r a a') ∨
        NewApproval st st' a' := by
    intro id a' ha'
    refine (approval_of_effect h ha').imp_left ?_
    rintro ⟨a, ha⟩
    obtain ⟨a₁, ha₁, hmove⟩ := approvalMove_of_effect h ha
    obtain rfl := Option.some.inj (ha₁.symm.trans ha')
    have hid : a.id = id := Table.key_of_get? ha
    exact ⟨a, hid, hid ▸ ha, hmove⟩
  refine ⟨fun id row' hrow' => ?_, fun id a' ha' => ?_, fun id a' ha' type => ?_, ?_⟩
  · rcases export_of_effect h hrow' with hold | ⟨labId, sourcePath, runId, requester, -, new⟩
    · obtain ⟨row, -, hrow, hmove⟩ := hexport hrow' hold
      exact coherentExport_of_move hst hrow hmove
    · obtain ⟨hstate, hpath, hreason⟩ := new.state
      exact ⟨.inl hstate, by simp [hpath, hstate], by simp [hreason,
        hstate], by simp [hreason], by simp [hstate]⟩
  · rcases happroval ha' with ⟨a, -, ha, hmove⟩ | new
    · exact coherentApproval_of_move (hst.approvals a.id a ha) hmove
    · obtain ⟨hstate, happroved, hdecided⟩ := new.pending
      exact ⟨by simp [hstate, happroved], by simp [hstate, hdecided]⟩
  · rcases happroval ha' with ⟨a, hid, ha, hmove⟩ | new
    · obtain ⟨htype, hresource, hkept⟩ := kept_of_approvalMove hmove
      obtain ⟨row, hrow, hwaits⟩ := hst.waits a.id a ha (htype ▸ type)
      obtain ⟨row', hrow', hmove'⟩ := exportMove_of_effect h hrow
      refine ⟨row', hresource ▸ hrow', fun pending => ?_⟩
      obtain rfl := hkept pending
      have hrowId : row.id = a'.resourceId := Table.key_of_get? hrow
      exact waits_of_move hst ha (hid ▸ ha') pending type hrowId.symm (hwaits pending) hmove'
    · rcases new.resource with ⟨htype, -⟩ | ⟨-, -, row, hrow, hstate, hrequired⟩
      · rw [htype] at type
        exact absurd type (by decide)
      · exact ⟨row, hrow, fun _ => ⟨hrequired, .inl hstate⟩⟩
  · -- an approval that is new is for an export that is new, and there is no other
    have hnew : ∀ {id id' a' b'}, NewApproval st st' a' → st'.approvals.get? id = some a' →
        st'.approvals.get? id' = some b' → b'.resourceType = "export" → a'.resourceType = "export" →
        a'.resourceId = b'.resourceId → id = id' := by
      intro id id' a' b' new ha' hb' type' type resource
      rcases new.resource with ⟨htype, -⟩ | ⟨-, hnone, -⟩
      · rw [htype] at type
        exact absurd type (by decide)
      · have hid : a'.id = id := Table.key_of_get? ha'
        rcases new.alone id' b' hb' with hid' | ⟨b, hb⟩
        · exact hid.symm.trans hid'.symm
        · obtain ⟨b₁, hb₁, hmove⟩ := approvalMove_of_effect h hb
          obtain rfl := Option.some.inj (hb₁.symm.trans hb')
          obtain ⟨htype, hresource, -⟩ := kept_of_approvalMove hmove
          obtain ⟨row, hrow, -⟩ := hst.waits id' b hb (htype ▸ type')
          rw [← hresource, ← resource, hnone] at hrow
          cases hrow
    intro id id' a' b' ha' hb' type type' resource
    rcases happroval ha' with ⟨a, hid, ha, hmove⟩ | new
    · rcases happroval hb' with ⟨b, hid', hb, hmove'⟩ | new'
      · obtain ⟨htype, hresource, -⟩ := kept_of_approvalMove hmove
        obtain ⟨htype', hresource', -⟩ := kept_of_approvalMove hmove'
        rw [htype] at type
        rw [htype'] at type'
        rw [hresource, hresource'] at resource
        rw [← hid, ← hid']
        exact hst.unique a.id b.id a b ha hb type type' resource
      · exact (hnew new' hb' ha' type type' resource.symm).symm
    · exact hnew new ha' hb' type' type resource

/-- A released export, or an approval that is not pending, of a coherent state never changes again. -/
theorem final_of_run (env : Environment β) {s : State β} (hs : Coherent s.store) (actions : List (Action β)) :
    (∀ id row, s.store.exports.get? id = some row → row.state = .released →
      (runFrom env s actions).store.exports.get? id = some row) ∧
    ∀ id a, s.store.approvals.get? id = some a → a.state ≠ .requested →
      (runFrom env s actions).store.approvals.get? id = some a := by
  constructor
  · intro id row hrow hstate
    refine (rows_kept (I := fun st => Coherent st ∧ st.exports.get? id = some row) ?_ ⟨hs, hrow⟩).2
    intro now r m m' st st' h hst
    obtain ⟨hcoherent, hget⟩ := hst
    obtain ⟨row', hrow', hmove⟩ := exportMove_of_effect h hget
    have hid : row.id = id := Table.key_of_get? hget
    rw [released_of_move hcoherent (hid ▸ hget) hstate hmove] at hrow'
    exact ⟨coherent_of_effect h hcoherent, hrow'⟩
  · intro id a ha hstate
    refine rows_kept (I := fun st => st.approvals.get? id = some a) ?_ ha
    intro now r m m' st st' h hget
    obtain ⟨a', ha', hmove⟩ := approvalMove_of_effect h hget
    rwa [decided_of_move hstate hmove] at ha'

/-- **Exports and approvals are coherent and final.** In every reachable state the fields of every export and
every approval fit its state, and an export whose approval is pending waits for it; and whatever follows, a
released export and an approval that is no longer requested keep every field. -/
theorem coherent_and_final (env : Environment β) (s₀ : State β) (h₀ : Initial env s₀)
    (actions : List (Action β)) : (∀ row ∈ (runFrom env s₀ actions).store.exports.rows, CoherentExport row) ∧
    (∀ a ∈ (runFrom env s₀ actions).store.approvals.rows, CoherentApproval a) ∧
    (∀ a ∈ (runFrom env s₀ actions).store.approvals.rows, a.resourceType = "export" → a.state = .requested →
      ∃ row, (runFrom env s₀ actions).store.exports.get? a.resourceId = some row ∧
        row.approvalRequired = true ∧
        (row.state = .quarantined ∨ row.state = .rejected)) ∧
    ∀ future,
      (∀ row ∈ (runFrom env s₀ actions).store.exports.rows, row.state = .released →
        (runFrom env s₀ (actions ++ future)).store.exports.get? row.id = some row) ∧
      ∀ a ∈ (runFrom env s₀ actions).store.approvals.rows, a.state ≠ .requested →
        (runFrom env s₀ (actions ++ future)).store.approvals.get? a.id = some a := by
  have hcoherent : Coherent (runFrom env s₀ actions).store :=
    rows_kept coherent_of_effect (h₀.store ▸ coherent_empty)
  refine ⟨fun row hrow => hcoherent.exports row.id row (Table.get?_of_mem hrow),
    fun a ha => hcoherent.approvals a.id a (Table.get?_of_mem ha), fun a ha type pending => ?_,
      fun future => ?_⟩
  · obtain ⟨row, hrow, hwaits⟩ := hcoherent.waits a.id a (Table.get?_of_mem ha) type
    exact ⟨row, hrow, hwaits pending⟩
  · have happend : runFrom env s₀ (actions ++ future) = runFrom env (runFrom env s₀ actions) future :=
      Runs.after_append _ _ _
    rw [happend]
    obtain ⟨hexports, happrovals⟩ := final_of_run env hcoherent future
    exact ⟨fun row hrow => hexports row.id row (Table.get?_of_mem hrow),
      fun a ha => happrovals a.id a (Table.get?_of_mem ha)⟩

theorem coherent_and_final_exportRun :
    ∃ row ∈ (runFrom (symbolic defaultProfiles) emptyState (exportRun "safe-dev" "aa" [])).store.exports.rows,
      row.state = .released ∧ row.releasedPath.isSome = true ∧
        (runFrom (symbolic defaultProfiles) emptyState
          (exportRun "safe-dev" "aa" [] ++ [.request (.denyExport "aa" "too late") 9 []])).store.exports.get?
            row.id =
            some row := by
  have hrow : ∃ row ∈ (runFrom (symbolic defaultProfiles) emptyState
      (exportRun "safe-dev" "aa" [])).store.exports.rows, row.state = .released := by
    decide +kernel
  obtain ⟨row, hrow, hstate⟩ := hrow
  obtain ⟨hexports, -, -, hfinal⟩ :=
    coherent_and_final (symbolic defaultProfiles) emptyState (initial_emptyState _)
    (exportRun "safe-dev" "aa" [])
  exact ⟨row, hrow, hstate, (hexports row hrow).releasedPath.mpr hstate, (hfinal _).1 row hrow hstate⟩

end LabOS
