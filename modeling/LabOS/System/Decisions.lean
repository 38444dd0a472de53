import LabOS.Library.Columns
import LabOS.System.Leases
import LabOS.System.Lifecycles
import LabOS.System.Symbolic

/-!
# Decisions that overlap

The requests that decide on approvals and exports, and the passes that expire them, check
rows they have read and write back the columns they changed. Here such a request is two
steps, between which others take theirs: it runs on what is committed when it reads, and
its commit writes what it changed to the rows as they are by then.

## What is proved

* `commit_serial` — a request that commits right after it has read leaves the rows as its
  handler made them.
* `decisions_exclusive` — **decisions exclude each other** as long as each commits on rows
  that are still undecided; `approved_and_denied` is a run in which two do not.
-/

namespace LabOS

open Exceptional

variable {β : Type} [Content β] {env : Environment β}

/-! ### Units of work -/

instance : Columnar LabRow where
  merge base new cur := {
    id := pick base.id new.id cur.id
    profileName := pick base.profileName new.profileName cur.profileName
    state := pick base.state new.state cur.state
    runtimeClass := pick base.runtimeClass new.runtimeClass cur.runtimeClass
    destroyAttempts := pick base.destroyAttempts new.destroyAttempts cur.destroyAttempts
    lastDestroyError := pick base.lastDestroyError new.lastDestroyError cur.lastDestroyError
    createdAt := pick base.createdAt new.createdAt cur.createdAt }
  merge_self base cur := by simp
  merge_current base new := by simp

instance : Columnar RunRow where
  merge base new cur := {
    id := pick base.id new.id cur.id
    labId := pick base.labId new.labId cur.labId
    state := pick base.state new.state cur.state
    command := pick base.command new.command cur.command
    timeoutAt := pick base.timeoutAt new.timeoutAt cur.timeoutAt
    finishedAt := pick base.finishedAt new.finishedAt cur.finishedAt
    createdAt := pick base.createdAt new.createdAt cur.createdAt }
  merge_self base cur := by simp
  merge_current base new := by simp

instance : Columnar ApprovalRow where
  merge base new cur := {
    id := pick base.id new.id cur.id
    labId := pick base.labId new.labId cur.labId
    resourceType := pick base.resourceType new.resourceType cur.resourceType
    resourceId := pick base.resourceId new.resourceId cur.resourceId
    action := pick base.action new.action cur.action
    reason := pick base.reason new.reason cur.reason
    requestedBy := pick base.requestedBy new.requestedBy cur.requestedBy
    state := pick base.state new.state cur.state
    approved := pick base.approved new.approved cur.approved
    decisionComment := pick base.decisionComment new.decisionComment cur.decisionComment
    decidedBy := pick base.decidedBy new.decidedBy cur.decidedBy
    expiresAt := pick base.expiresAt new.expiresAt cur.expiresAt
    decidedAt := pick base.decidedAt new.decidedAt cur.decidedAt
    createdAt := pick base.createdAt new.createdAt cur.createdAt }
  merge_self base cur := by simp
  merge_current base new := by simp

instance : Columnar ExportRow where
  merge base new cur := {
    id := pick base.id new.id cur.id
    labId := pick base.labId new.labId cur.labId
    runId := pick base.runId new.runId cur.runId
    sourcePath := pick base.sourcePath new.sourcePath cur.sourcePath
    state := pick base.state new.state cur.state
    quarantinePath := pick base.quarantinePath new.quarantinePath cur.quarantinePath
    releasedPath := pick base.releasedPath new.releasedPath cur.releasedPath
    approvalRequired := pick base.approvalRequired new.approvalRequired cur.approvalRequired
    sha256 := pick base.sha256 new.sha256 cur.sha256
    sizeBytes := pick base.sizeBytes new.sizeBytes cur.sizeBytes
    denialReason := pick base.denialReason new.denialReason cur.denialReason
    createdAt := pick base.createdAt new.createdAt cur.createdAt }
  merge_self base cur := by simp
  merge_current base new := by simp

instance : Columnar SecretLeaseRow where
  merge base new cur := {
    id := pick base.id new.id cur.id
    labId := pick base.labId new.labId cur.labId
    secretName := pick base.secretName new.secretName cur.secretName
    approved := pick base.approved new.approved cur.approved
    expiresAt := pick base.expiresAt new.expiresAt cur.expiresAt
    revokedAt := pick base.revokedAt new.revokedAt cur.revokedAt
    createdAt := pick base.createdAt new.createdAt cur.createdAt }
  merge_self base cur := by simp
  merge_current base new := by simp

/-- Write back what a request that read `base` made `new` of it. -/
def writeBack (base new cur : Store) : Store := { cur with
  labs := Columnar.mergeTable base.labs new.labs cur.labs
  runs := Columnar.mergeTable base.runs new.runs cur.runs
  approvals := Columnar.mergeTable base.approvals new.approvals cur.approvals
  exports := Columnar.mergeTable base.exports new.exports cur.exports
  secretLeases := Columnar.mergeTable base.secretLeases new.secretLeases cur.secretLeases
  events := cur.events ++ new.events.drop base.events.length }

/-- A request that decides on approvals or exports, or a pass. -/
def Request.decides : Request β → Bool
  | .approveRequest .. | .denyRequest .. | .releaseExport .. | .denyExport .. | .reconcile .. => true
  | _ => false

def Action.decides : Action β → Bool
  | .request r _ _ => r.decides
  | .guest .. => false

/-- A request that has run and not committed: the rows it read, and what it made of them. -/
structure UnitOfWork where
  base : Store
  new : Store

/-- The approvals a unit of work decides, and how. -/
def UnitOfWork.decided (work : UnitOfWork) : List (String × ApprovalState) :=
  Columnar.changed ApprovalRow.state work.base.approvals work.new.approvals

/-- The exports a unit of work decides, and how. -/
def UnitOfWork.closed (work : UnitOfWork) : List (String × ExportState) :=
  Columnar.changed ExportRow.state work.base.exports work.new.exports

/-- The exports that require an approval. -/
def requiring (st : Store) : List String :=
    (st.exports.rows.filter fun e => e.approvalRequired).map fun e => e.id

/-- The committed state, the requests under way, what commits have decided, and the exports that have ever
required an approval. -/
structure Desk (β : Type) where
  state : State β
  underWay : List UnitOfWork
  decided : List (String × ApprovalState)
  closed : List (String × ExportState)
  required : List String

/-- The state before any request. -/
def Desk.start (s : State β) : Desk β := ⟨s, [], [], [], []⟩

inductive DeskStep (β : Type) where
  /-- A request that decides, or a pass, runs on what is committed. -/
  | read (r : Request β) (now : ℤ) (fates : List Fate) (h : r.decides = true)
  /-- The request at a place of the list commits. -/
  | commit (i : ℕ)
  /-- Any other action, as a whole. -/
  | other (a : Action β) (h : a.decides = false)

def deskStep (env : Environment β) (s : Desk β) : DeskStep β → Desk β
  | .read r now fates _ =>
    let s' := endState (answer env s.state r now fates)
    { s with
      state := { s'.state with store := s.state.store }
      underWay := s.underWay ++ [⟨s.state.store, s'.store⟩] }
  | .commit i =>
    match s.underWay[i]? with
    | none => s
    | some work =>
      let store := writeBack work.base work.new s.state.store
      { state := { s.state with store := store }
        underWay := s.underWay.eraseIdx i
        decided := s.decided ++ work.decided
        closed := s.closed ++ work.closed
        required := s.required ++ requiring store }
  | .other a _ =>
    let state := step env s.state a
    { s with state := state, required := s.required ++ requiring state.store }

/-! ### What a request that decides does -/

theorem keepsKey_approvals : Columnar.KeepsKey ApprovalRow.id := Columnar.keepsKey_of_pick fun _ _ _ => rfl

theorem keepsKey_exports : Columnar.KeepsKey ExportRow.id := Columnar.keepsKey_of_pick fun _ _ _ => rfl

theorem keepsKey_labs : Columnar.KeepsKey LabRow.id := Columnar.keepsKey_of_pick fun _ _ _ => rfl

section Effects

variable {now : ℤ} {r : Request β} {m m' : ℕ} {st st' : Store}

omit [Content β] in
theorem decides_decisionRequest {decision : App.Decision} {approvalId actor : String}
    {comment : Option String} :
    (decisionRequest decision approvalId actor comment : Request β).decides = true := by
  cases decision <;> rfl

/-- A request that decides adds no row. -/
theorem addsNone_of_decides (h : Effect env now r m m' st st') (hr : r.decides = true) : AddsNone st st' := by
  have hrefl := AddsNone.refl st
  cases h with
  | onlyEvents => exact { hrefl with }
  | labDecided decides type hlab =>
    have hid := Table.key_of_get? hlab
    have ha := Table.key_of_get? decides.row
    exact { hrefl with
      labs := fun h => Table.exists_of_get?_put h hlab hid
      approvals := fun h => Table.exists_of_get?_put h decides.row ha }
  | exportDecided decides type hrow =>
    have hid := Table.key_of_get? hrow
    have ha := Table.key_of_get? decides.row
    exact { hrefl with
      approvals := fun h => Table.exists_of_get?_put h decides.row ha
      exports := fun h => Table.exists_of_get?_put h hrow ((decidedExport_id _ _ _).trans hid) }
  | otherDecided decides =>
    have ha := Table.key_of_get? decides.row
    exact { hrefl with approvals := fun h => Table.exists_of_get?_put h decides.row ha }
  | exportReleased hrow =>
    have hid := Table.key_of_get? hrow
    exact { hrefl with exports := fun h => Table.exists_of_get?_put h hrow hid }
  | exportDenied hrow =>
    have hid := Table.key_of_get? hrow
    exact { hrefl with exports := fun h => Table.exists_of_get?_put h hrow hid }
  | reconciled sweeps => exact addsNone_of_sweeps sweeps
  | _ => cases hr

/-- An approval after a request: as it was, or decided. -/
theorem approval_cases {id : String} {b n : ApprovalRow} (h : Effect env now r m m' st st')
    (hb : st.approvals.get? id = some b) (hn : st'.approvals.get? id = some n) : n = b ∨
      b.state = .requested ∧ n.state ≠ .requested ∧ (n.approved = true ↔ n.state = .approved) ∧
        n.resourceType = b.resourceType ∧ n.resourceId = b.resourceId := by
  obtain ⟨n', hn', hmove⟩ := approvalMove_of_effect h hb
  obtain rfl := Option.some.inj (hn'.symm.trans hn)
  cases hmove with
  | same => exact .inl rfl
  | @decided decision _ _ _ _ decides =>
    refine .inr ⟨decides.pending, ?_, ?_, rfl, rfl⟩ <;> cases decision <;>
      simp [App.decidedApproval, App.Decision.state]
  | swept _ swept =>
    rcases swept with rfl | ⟨requested, -, rfl⟩
    · exact .inl rfl
    · exact .inr ⟨requested, by simp [expiredApproval], by simp [expiredApproval], rfl, rfl⟩

/-- An export after a request: as it was, or decided by its approval, or released or denied. -/
theorem export_cases {id : String} {b n : ExportRow} (h : Effect env now r m m' st st')
    (hb : st.exports.get? id = some b) (hn : st'.exports.get? id = some n) : n = b ∨
      (∃ k a, st.approvals.get? k = some a ∧ a.resourceType = "export" ∧ a.resourceId = id) ∨
      (n.state = .released ∨ n.state = .rejected) ∧ b.state ≠ .released ∧ b.state ≠ .rejected := by
  have hid := Table.key_of_get? hb
  obtain ⟨n', hn', hmove⟩ := exportMove_of_effect h hb
  obtain rfl := Option.some.inj (hn'.symm.trans hn)
  cases hmove with
  | same => exact .inl rfl
  | decided _ decides type resource => exact .inr (.inl ⟨_, _, decides.row, type, resource.trans hid⟩)
  | released _ _ unrejected unreleased => exact .inr (.inr ⟨.inl rfl, unreleased, unrejected⟩)
  | denied _ unrejected unreleased => exact .inr (.inr ⟨.inr rfl, unreleased, unrejected⟩)
  | swept _ swept =>
    rcases swept with rfl | ⟨⟨a, ha, -, -, -, type, resource⟩, -⟩
    · exact .inl rfl
    · exact .inr (.inl ⟨_, a, ha, type, resource.trans hid⟩)

/-- Any other request leaves the approvals and the exports that are there as they are. -/
theorem kept_of_not_decides (h : Effect env now r m m' st st') (hr : r.decides = false) :
    (∀ id a, st.approvals.get? id = some a → st'.approvals.get? id = some a) ∧
      ∀ id e, st.exports.get? id = some e → st'.exports.get? id = some e := by
  constructor
  · intro id a ha
    obtain ⟨a', ha', hmove⟩ := approvalMove_of_effect h ha
    cases hmove with
    | same => exact ha'
    | decided request =>
      rw [request, decides_decisionRequest] at hr
      cases hr
    | swept request =>
      obtain ⟨_, _, _, _, rfl, -⟩ := request
      cases hr
  · intro id e he
    obtain ⟨e', he', hmove⟩ := exportMove_of_effect h he
    cases hmove with
    | same => exact he'
    | decided request =>
      rw [request, decides_decisionRequest] at hr
      cases hr
    | released request | denied request =>
      rw [request] at hr
      cases hr
    | swept request =>
      obtain ⟨_, _, _, _, rfl, -⟩ := request
      cases hr

end Effects

theorem keepsKey_runs : Columnar.KeepsKey RunRow.id := Columnar.keepsKey_of_pick fun _ _ _ => rfl

theorem keepsKey_secretLeases : Columnar.KeepsKey SecretLeaseRow.id :=
  Columnar.keepsKey_of_pick fun _ _ _ => rfl

/-- Where nobody else commits meanwhile, a request leaves the rows as its handler made them. -/
theorem commit_serial {now : ℤ} {r : Request β} {m m' : ℕ} {st st' : Store} (h : Effect env now r m m' st st')
    (id : String) :
    (writeBack st st' st).labs.get? id = st'.labs.get? id ∧
    (writeBack st st' st).runs.get? id = st'.runs.get? id ∧
      (writeBack st st' st).approvals.get? id = st'.approvals.get? id ∧
      (writeBack st st' st).exports.get? id = st'.exports.get? id ∧
      (writeBack st st' st).secretLeases.get? id = st'.secretLeases.get? id := by
  refine ⟨Columnar.get?_mergeTable_current keepsKey_labs (fun k row hrow => ?_) id,
    Columnar.get?_mergeTable_current keepsKey_runs (fun k row hrow => ?_) id,
    Columnar.get?_mergeTable_current keepsKey_approvals (fun k row hrow => ?_) id,
    Columnar.get?_mergeTable_current keepsKey_exports (fun k row hrow => ?_) id,
    Columnar.get?_mergeTable_current keepsKey_secretLeases (fun k row hrow => ?_) id⟩
  · exact (labMove_of_effect h hrow).imp fun _ h => h.1
  · exact (runMove_of_effect h hrow).imp fun _ h => h.1
  · exact (approvalMove_of_effect h hrow).imp fun _ h => h.1
  · exact (exportMove_of_effect h hrow).imp fun _ h => h.1
  · exact (leaseMove_of_effect h hrow).imp fun _ h => h.1

/-! ### Exclusive decisions -/

/-- A commit that finds what it decides undecided: its approvals are pending, and of the exports that never
required an approval it releases none that is rejected and denies none that is released. -/
def Undecided (s : Desk β) : DeskStep β → Prop
  | .commit i => ∀ work ∈ s.underWay[i]?,
      (∀ x ∈ work.decided, ∀ a ∈ s.state.store.approvals.get? x.1, a.state = .requested) ∧
      ∀ x ∈ work.closed, x.1 ∉ s.required → ∀ e ∈ s.state.store.exports.get? x.1,
        (x.2 = .released → e.state ≠ .rejected) ∧ (x.2 = .rejected → e.state ≠ .released)
  | _ => True

instance (s : Desk β) (a : DeskStep β) : Decidable (Undecided s a) := by
  cases a with
  | commit i =>
    show Decidable (∀ work ∈ s.underWay[i]?, _)
    infer_instance
  | read => exact isTrue trivial
  | other => exact isTrue trivial

/-- What is known of a request under way: it decides, and what it read is consistent and still there. -/
structure Sane (env : Environment β) (s : Desk β) (work : UnitOfWork) : Prop where
  effect : ∃ now r m m', r.decides = true ∧ Effect env now r m m' work.base work.new
  approved : ∀ id b, work.base.approvals.get? id = some b → (b.approved = true ↔ b.state = .approved)
  required : ∀ id b, work.base.approvals.get? id = some b → b.resourceType = "export" →
    b.resourceId ∈ s.required
  approvals : ∀ id b, work.base.approvals.get? id = some b → ∃ a, s.state.store.approvals.get? id = some a
  exports : ∀ id b, work.base.exports.get? id = some b → ∃ e, s.state.store.exports.get? id = some e

/-- The invariant. -/
structure DeskInv (env : Environment β) (s : Desk β) : Prop where
  approved : ∀ id a, s.state.store.approvals.get? id = some a → (a.approved = true ↔ a.state = .approved)
  required : ∀ id a, s.state.store.approvals.get? id = some a → a.resourceType = "export" →
    a.resourceId ∈ s.required
  once : (s.decided.map Prod.fst).Nodup
  settled : ∀ x ∈ s.decided, ∃ a, s.state.store.approvals.get? x.1 = some a ∧ a.state ≠ .requested
  closed : ∀ x ∈ s.closed, x.1 ∉ s.required → (x.2 = .released ∨ x.2 = .rejected) ∧
    ∃ e, s.state.store.exports.get? x.1 = some e ∧ e.state = x.2
  sane : ∀ work ∈ s.underWay, Sane env s work

/-- A request under way stays what it is while rows stay there. -/
theorem Sane.mono {s s' : Desk β} {work : UnitOfWork} (h : Sane env s work)
    (hrequired : ∀ id ∈ s.required, id ∈ s'.required)
    (happrovals : ∀ id a, s.state.store.approvals.get? id = some a →
      ∃ a', s'.state.store.approvals.get? id = some a')
    (hexports : ∀ id e, s.state.store.exports.get? id = some e →
      ∃ e', s'.state.store.exports.get? id = some e') :
    Sane env s' work where
  effect := h.effect
  approved := h.approved
  required id b hb htype := hrequired _ (h.required id b hb htype)
  approvals id b hb := by
    obtain ⟨a, ha⟩ := h.approvals id b hb
    exact happrovals id a ha
  exports id b hb := by
    obtain ⟨e, he⟩ := h.exports id b hb
    exact hexports id e he

section Commit

variable {s : Desk β} {work : UnitOfWork}

/-- An approval after a commit: as it was, or decided while it was pending. -/
theorem approval_of_commit (hs : DeskInv env s) (hwork : Sane env s work)
    (hundecided : ∀ x ∈ work.decided, ∀ a ∈ s.state.store.approvals.get? x.1,
      a.state = .requested) (id : String)
    (a' : ApprovalRow) (ha' : (writeBack work.base work.new s.state.store).approvals.get? id = some a') :
    ∃ a, s.state.store.approvals.get? id = some a ∧ a'.resourceType = a.resourceType ∧
      a'.resourceId = a.resourceId ∧
      (a' = a ∧ id ∉ work.decided.map Prod.fst ∨
        a.state = .requested ∧ a'.state ≠ .requested ∧ (a'.approved = true ↔ a'.state = .approved)) := by
  obtain ⟨now, r, m, m', hr, heffect⟩ := hwork.effect
  have hadds := addsNone_of_decides heffect hr
  obtain ⟨a, ha, hrow⟩ := Columnar.row_of_mergeTable keepsKey_approvals (fun k n hn => hadds.approvals hn) ha'
  refine ⟨a, ha, ?_⟩
  by_cases hmem : id ∈ work.decided.map Prod.fst
  · obtain ⟨x, hx, rfl⟩ := List.mem_map.mp hmem
    obtain ⟨b, n, hb, hn, hne, -⟩ := Columnar.mem_changed.mp hx
    have hpending := hundecided x hx a ha
    have hmerged : (writeBack work.base work.new s.state.store).approvals.get? x.1 =
        some (Columnar.merge b n a) :=
      Columnar.get?_mergeTable_of_some keepsKey_approvals hb hn ha
    obtain rfl := Option.some.inj (hmerged.symm.trans ha')
    rcases approval_cases heffect hb hn with rfl | ⟨hrequested, hdecided, happroved, htype, hresource⟩
    · exact absurd rfl hne
    · have hstate : (Columnar.merge b n a).state = n.state := pick_of_ne fun h => hne h.symm
      have hbase : b.approved = false := by
        have hiff := hwork.approved x.1 b hb
        rw [hrequested] at hiff
        simpa using hiff
      have hcur : a.approved = false := by
        have hiff := hs.approved x.1 a ha
        rw [hpending] at hiff
        simpa using hiff
      have happroved' : (Columnar.merge b n a).approved = n.approved := by
        show pick b.approved n.approved a.approved = n.approved
        rw [hcur, hbase, pick_current]
      refine ⟨?_, ?_, .inr ⟨hpending, by rwa [hstate], by rw [hstate, happroved']; exact happroved⟩⟩
      · show pick b.resourceType n.resourceType a.resourceType = a.resourceType
        rw [htype, pick_self]
      · show pick b.resourceId n.resourceId a.resourceId = a.resourceId
        rw [hresource, pick_self]
  · have heq : a' = a := by
      rcases hrow with rfl | ⟨b, n, hb, hn, rfl⟩
      · rfl
      · rcases approval_cases heffect hb hn with rfl | ⟨hrequested, hdecided, -⟩
        · exact Columnar.merge_self _ _
        · exact absurd (List.mem_map.mpr ⟨(id, n.state), Columnar.mem_changed.mpr
            ⟨b, n, hb, hn, by rw [hrequested]; exact fun h => hdecided h.symm, rfl⟩, rfl⟩) hmem
    exact ⟨by rw [heq], by rw [heq], .inl ⟨heq, hmem⟩⟩

/-- An export that never required an approval, after a commit: in the state it was, or released or denied. -/
theorem export_of_commit (hwork : Sane env s work) {id : String} {e' : ExportRow}
    (hrequired : id ∉ s.required)
    (he' : (writeBack work.base work.new s.state.store).exports.get? id = some e') :
    ∃ e, s.state.store.exports.get? id = some e ∧ (∀ x ∈ work.closed, x.1 = id → x.2 = e'.state ∧
        (x.2 = .released ∨ x.2 = .rejected)) ∧ (e'.state = e.state ∨ (id, e'.state) ∈ work.closed) := by
  obtain ⟨now, r, m, m', hr, heffect⟩ := hwork.effect
  have hadds := addsNone_of_decides heffect hr
  obtain ⟨e, he, hrow⟩ := Columnar.row_of_mergeTable keepsKey_exports (fun k n hn => hadds.exports hn) he'
  refine ⟨e, he, ?_, ?_⟩
  · rintro ⟨id, state⟩ hx rfl
    obtain ⟨b, n, hb, hn, hne, hstate⟩ := Columnar.mem_changed.mp hx
    have hmerged : (writeBack work.base work.new s.state.store).exports.get? id =
        some (Columnar.merge b n e) :=
      Columnar.get?_mergeTable_of_some keepsKey_exports hb hn he
    obtain rfl := Option.some.inj (hmerged.symm.trans he')
    have hclosedState : (Columnar.merge b n e).state = n.state := pick_of_ne fun h => hne h.symm
    rcases export_cases heffect hb hn with rfl | ⟨k, a, ha, htype, hresource⟩ | ⟨hclosed, -⟩
    · exact absurd rfl hne
    · exact absurd (hresource ▸ hwork.required k a ha htype) hrequired
    · exact ⟨hstate.trans hclosedState.symm, by rw [hstate]; exact hclosed⟩
  · rcases hrow with rfl | ⟨b, n, hb, hn, rfl⟩
    · exact .inl rfl
    · by_cases hne : b.state = n.state
      · left
        show pick b.state n.state e.state = e.state
        rw [hne, pick_self]
      · refine .inr (Columnar.mem_changed.mpr ⟨b, n, hb, hn, hne, ?_⟩)
        exact pick_of_ne fun h => hne h.symm

/-- Every approval that is decided, before a commit or by it, is settled after it. -/
theorem settled_of_commit (hs : DeskInv env s) (hwork : Sane env s work)
    (hundecided : ∀ x ∈ work.decided, ∀ a ∈ s.state.store.approvals.get? x.1, a.state = .requested)
    {x : String × ApprovalState} (hx : x ∈ s.decided ++ work.decided) :
    ∃ a, (writeBack work.base work.new s.state.store).approvals.get? x.1 = some a ∧ a.state ≠ .requested := by
  rcases List.mem_append.mp hx with hx | hx
  · obtain ⟨a, ha, hsettled⟩ := hs.settled x hx
    obtain ⟨a', ha'⟩ := Columnar.exists_of_mergeTable keepsKey_approvals ha
    obtain ⟨a₁, ha₁, -, -, hrow⟩ := approval_of_commit hs hwork hundecided x.1 a' ha'
    obtain rfl := Option.some.inj (ha.symm.trans ha₁)
    rcases hrow with ⟨rfl, -⟩ | ⟨hpending, -⟩
    · exact ⟨a', ha', hsettled⟩
    · exact absurd hpending hsettled
  · obtain ⟨b, n, hb, -⟩ := Columnar.mem_changed.mp hx
    obtain ⟨a, ha⟩ := hwork.approvals x.1 b hb
    obtain ⟨a', ha'⟩ := Columnar.exists_of_mergeTable keepsKey_approvals ha
    obtain ⟨-, -, -, -, ⟨-, hnot⟩ | ⟨-, hdecided, -⟩⟩ := approval_of_commit hs hwork hundecided x.1 a' ha'
    · exact absurd (List.mem_map_of_mem hx) hnot
    · exact ⟨a', ha', hdecided⟩

/-- Every export that is closed without an approval, before a commit or by it, is in that state after it. -/
theorem closed_of_commit (hs : DeskInv env s) (hwork : Sane env s work)
    (hopen : ∀ x ∈ work.closed, x.1 ∉ s.required → ∀ e ∈ s.state.store.exports.get? x.1,
      (x.2 = .released → e.state ≠ .rejected) ∧ (x.2 = .rejected → e.state ≠ .released))
    {x : String × ExportState} (hx : x ∈ s.closed ++ work.closed) (hrequired : x.1 ∉ s.required) :
    (x.2 = .released ∨ x.2 = .rejected) ∧
      ∃ e, (writeBack work.base work.new s.state.store).exports.get? x.1 = some e ∧ e.state = x.2 := by
  rcases List.mem_append.mp hx with hx | hx
  · obtain ⟨hstates, e, he, hstate⟩ := hs.closed x hx hrequired
    obtain ⟨e', he'⟩ := Columnar.exists_of_mergeTable keepsKey_exports he
    obtain ⟨e₁, he₁, hnew, hsame⟩ := export_of_commit hwork hrequired he'
    obtain rfl := Option.some.inj (he.symm.trans he₁)
    refine ⟨hstates, e', he', ?_⟩
    rcases hsame with hsame | hclosed
    · exact hsame.trans hstate
    · -- the export is decided again: a release finds no rejected row, a denial no released one
      obtain ⟨hreleased, hrejected⟩ := hopen _ hclosed hrequired e he
      rcases (hnew _ hclosed rfl).2 with hnew | hnew <;> rcases hstates with hold | hold
      · exact hnew.trans hold.symm
      · exact absurd (hstate.trans hold) (hreleased hnew)
      · exact absurd (hstate.trans hold) (hrejected hnew)
      · exact hnew.trans hold.symm
  · obtain ⟨b, n, hb, -⟩ := Columnar.mem_changed.mp hx
    obtain ⟨e, he⟩ := hwork.exports x.1 b hb
    obtain ⟨e', he'⟩ := Columnar.exists_of_mergeTable keepsKey_exports he
    obtain ⟨-, -, hnew, -⟩ := export_of_commit hwork hrequired he'
    obtain ⟨hstate, hstates⟩ := hnew x hx rfl
    exact ⟨hstates, e', he', hstate.symm⟩

/-- **A commit on what is undecided keeps the invariant.** -/
theorem deskInv_of_commit {i : ℕ} (hs : DeskInv env s) (hwork : work ∈ s.underWay)
    (hundecided : ∀ x ∈ work.decided, ∀ a ∈ s.state.store.approvals.get? x.1, a.state = .requested)
    (hopen : ∀ x ∈ work.closed, x.1 ∉ s.required → ∀ e ∈ s.state.store.exports.get? x.1,
      (x.2 = .released → e.state ≠ .rejected) ∧ (x.2 = .rejected → e.state ≠ .released)) :
    DeskInv env {
      state := { s.state with store := writeBack work.base work.new s.state.store }
      underWay := s.underWay.eraseIdx i
      decided := s.decided ++ work.decided
      closed := s.closed ++ work.closed
      required := s.required ++ requiring (writeBack work.base work.new s.state.store) } := by
  have hsane := hs.sane work hwork
  have happroval := approval_of_commit hs hsane hundecided
  constructor
  case approved =>
    intro id a' ha'
    obtain ⟨a, ha, -, -, ⟨rfl, -⟩ | ⟨-, -, hiff⟩⟩ := happroval id a' ha'
    · exact hs.approved id a' ha
    · exact hiff
  case required =>
    intro id a' ha' htype
    obtain ⟨a, ha, htype', hresource, -⟩ := happroval id a' ha'
    rw [hresource]
    exact List.mem_append_left _ (hs.required id a ha (htype'.symm.trans htype))
  case once =>
    rw [List.map_append]
    refine List.nodup_append.mpr ⟨hs.once, Columnar.nodup_changed, ?_⟩
    rintro id hid _ hid' rfl
    obtain ⟨x, hx, rfl⟩ := List.mem_map.mp hid
    obtain ⟨y, hy, hxy⟩ := List.mem_map.mp hid'
    obtain ⟨a, ha, hsettled⟩ := hs.settled x hx
    exact hsettled (hundecided y hy a (by rw [hxy]; exact ha))
  case settled => exact fun x hx => settled_of_commit hs hsane hundecided hx
  case closed =>
    exact fun x hx hrequired =>
      closed_of_commit hs hsane hopen hx fun h => hrequired (List.mem_append_left _ h)
  case sane =>
    intro other hother
    exact (hs.sane other (List.mem_of_mem_eraseIdx hother)).mono
      (fun id h => List.mem_append_left _ h)
      (fun id a ha => Columnar.exists_of_mergeTable keepsKey_approvals ha)
      (fun id e he => Columnar.exists_of_mergeTable keepsKey_exports he)

end Commit

/-- What is decided by nobody keeps the invariant. -/
theorem deskInv_of_kept {s : Desk β} {state : State β} (hs : DeskInv env s)
    (hadded : ∀ id a, state.store.approvals.get? id = some a → s.state.store.approvals.get? id = some a ∨
      (a.approved = true ↔ a.state = .approved) ∧
        (a.resourceType = "export" → a.resourceId ∈ requiring state.store))
    (happrovals : ∀ id a, s.state.store.approvals.get? id = some a → state.store.approvals.get? id = some a)
    (hexports : ∀ id e, s.state.store.exports.get? id = some e → state.store.exports.get? id = some e) :
    DeskInv env { s with state := state, required := s.required ++ requiring state.store } where
  approved id a ha := by
    rcases hadded id a ha with ha | ⟨hnew, -⟩
    · exact hs.approved id a ha
    · exact hnew
  required id a ha htype := by
    rcases hadded id a ha with ha | ⟨-, hnew⟩
    · exact List.mem_append_left _ (hs.required id a ha htype)
    · exact List.mem_append_right _ (hnew htype)
  once := hs.once
  settled x hx := by
    obtain ⟨a, ha, hsettled⟩ := hs.settled x hx
    exact ⟨a, happrovals _ _ ha, hsettled⟩
  closed x hx hrequired := by
    obtain ⟨hstates, e, he, hstate⟩ := hs.closed x hx fun h => hrequired (List.mem_append_left _ h)
    exact ⟨hstates, e, hexports _ _ he, hstate⟩
  sane work hwork := (hs.sane work hwork).mono (fun _ h => List.mem_append_left _ h)
    (fun id a ha => ⟨a, happrovals id a ha⟩) fun id e he => ⟨e, hexports id e he⟩

theorem deskInv_of_step {s : Desk β} (a : DeskStep β) (hs : DeskInv env s) (ha : Undecided s a) :
    DeskInv env (deskStep env s a) := by
  cases a with
  | read r now fates hr =>
    have heffect := effect_of_answer env s.state r now fates
    refine { hs with sane := fun work hwork => ?_ }
    rcases List.mem_append.mp hwork with hwork | hwork
    · exact { hs.sane work hwork with }
    · rw [List.mem_singleton.mp hwork]
      exact ⟨⟨now, r, _, _, hr, heffect⟩, hs.approved, hs.required, fun _ a h => ⟨a, h⟩, fun _ e h => ⟨e, h⟩⟩
  | commit i =>
    simp only [deskStep]
    cases hi : s.underWay[i]? with
    | none => exact hs
    | some work =>
      obtain ⟨hundecided, hopen⟩ := ha work hi
      exact deskInv_of_commit hs (List.mem_of_getElem? hi) hundecided hopen
  | other a h =>
    cases a with
    | guest labId entries =>
      exact deskInv_of_kept hs (fun _ _ h => .inl h) (fun _ _ h => h) fun _ _ h => h
    | request r now fates =>
      have heffect := effect_of_answer env s.state r now fates
      obtain ⟨happrovals, hexports⟩ := kept_of_not_decides heffect h
      refine deskInv_of_kept hs (fun id a ha => ?_) happrovals hexports
      rcases approval_of_effect heffect ha with ⟨a₀, ha₀⟩ | new
      · exact .inl (by rw [← Option.some.inj ((happrovals id a₀ ha₀).symm.trans ha)]; exact ha₀)
      · refine .inr ⟨by simp [new.pending.1, new.pending.2.1], fun htype => ?_⟩
        rcases new.resource with ⟨hlab, -⟩ | ⟨-, -, row, hrow, -, hrequires⟩
        · rw [htype] at hlab
          exact absurd hlab (by decide)
        · have hid := Table.key_of_get? hrow
          exact List.mem_map.mpr ⟨row, List.mem_filter.mpr ⟨Table.mem_of_get? hrow, hrequires⟩, hid⟩

/-- **Decisions exclude each other**, in every run of overlapping requests whose commits find what they
decide undecided: an approval is approved, denied or expired once at most, its row is approved exactly when
its state says so, and an export that never required an approval is not released and denied. -/
theorem decisions_exclusive (env : Environment β) (s₀ : State β) (h₀ : Initial env s₀)
    (steps : List (DeskStep β)) (hsteps : Runs.Allowed (deskStep env) Undecided (Desk.start s₀) steps) :
    (∀ id, ((Runs.after (deskStep env) (Desk.start s₀) steps).decided.map Prod.fst).count id ≤ 1) ∧
    (∀ a ∈ (Runs.after (deskStep env) (Desk.start s₀) steps).state.store.approvals.rows,
      a.approved = true ↔ a.state = .approved) ∧
    ∀ id ∉ (Runs.after (deskStep env) (Desk.start s₀) steps).required,
      ¬ ((id, .released) ∈ (Runs.after (deskStep env) (Desk.start s₀) steps).closed ∧
        (id, .rejected) ∈ (Runs.after (deskStep env) (Desk.start s₀) steps).closed) := by
  have hstart : DeskInv env (Desk.start s₀) := by
    constructor
    case approved | required =>
      intro id a ha
      rw [show (Desk.start s₀).state.store = Store.empty from h₀.store] at ha
      cases ha
    case once => exact List.nodup_nil
    case settled | closed | sane =>
      intro x hx
      cases hx
  have hinv := Runs.after_keeps_of (fun s a hs ha => deskInv_of_step a hs ha) hstart hsteps
  refine ⟨List.nodup_iff_count_le_one.mp hinv.once,
    fun a ha => hinv.approved a.id a (Table.get?_of_mem ha), ?_⟩
  rintro id hid ⟨hreleased, hrejected⟩
  obtain ⟨-, e, he, hstate⟩ := hinv.closed _ hreleased hid
  obtain ⟨-, e', he', hstate'⟩ := hinv.closed _ hrejected hid
  obtain rfl := Option.some.inj (he.symm.trans he')
  simp [hstate] at hstate'

/-- A lab of a profile is created, and its guest writes an artifact, which is staged. -/
def stageRun (profileName : String) : List (DeskStep Blob) :=
  [.other (.request (.createLab profileName .human) 0 []) rfl,
   .other (.guest "a" [(["srv", "labs", "a", "exports", "r.txt"], .file (.data "a" ['x']))]) rfl,
   .other (.request (.createExport "a" "/lab/exports/r.txt" none .human) 1 []) rfl]

/-- The approval of an export is approved and denied by requests that both read it pending. -/
def decideRun : List (DeskStep Blob) := stageRun "model-local" ++
  [.read (.approveRequest "aaa" "ops" none) 2 [] rfl, .read (.denyRequest "aaa" "sec" (some "no")) 2 [] rfl,
   .commit 0, .commit 0]

/-- An export is released and denied by requests that both read it in quarantine. -/
def closeRun : List (DeskStep Blob) := stageRun "safe-dev" ++
  [.read (.releaseExport "aa") 2 [] rfl, .read (.denyExport "aa" "no") 2 [] rfl, .commit 0, .commit 0]

theorem decisions_exclusive_decideRun :
    ((Runs.after (deskStep (symbolic defaultProfiles)) (Desk.start emptyState)
      (decideRun.take 6)).decided.map Prod.fst).count "aaa" ≤ 1 :=
  (decisions_exclusive (symbolic defaultProfiles) emptyState (initial_emptyState _) (decideRun.take 6)
    (by decide +kernel)).1 "aaa"

/-- **An approval is approved and denied**, and ends up rejected and approved; and an export that never
required an approval is released and denied. -/
theorem approved_and_denied :
    ((Runs.after (deskStep (symbolic defaultProfiles)) (Desk.start emptyState) decideRun).decided.map
      Prod.fst).count "aaa" = 2 ∧
    (∃ a ∈ (Runs.after (deskStep (symbolic defaultProfiles)) (Desk.start emptyState) decideRun).state.store.approvals.rows,
      a.approved = true ∧ a.state = .rejected) ∧
    "aa" ∉ (Runs.after (deskStep (symbolic defaultProfiles)) (Desk.start emptyState) closeRun).required ∧
    ("aa", .released) ∈ (Runs.after (deskStep (symbolic defaultProfiles))
      (Desk.start emptyState) closeRun).closed ∧
    ("aa", .rejected) ∈ (Runs.after (deskStep (symbolic defaultProfiles))
      (Desk.start emptyState) closeRun).closed := by
  decide +kernel

end LabOS
