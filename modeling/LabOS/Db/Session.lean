import LabOS.Core.Errors
import LabOS.Db.Schema
import LabOS.Library.Confinement

/-!
# Database sessions

A request works on the rows of the store through a session, on the disk, and takes new
identifiers from a counter. `withSession` is the block every handler is in: what the
block does to the rows is committed when it returns and rolled back when it raises,
while what it did to the disk stays either way. The commit itself may fail, as any
effect may.

## What is proved

* `withSession_store` — after a block the rows are as before it, or as its body left them.
* `within_onDisk` and its companions — what a session does to the disk is what the
  programs over the disk in it do.
-/

namespace LabOS

open Exceptional FileOps FileTree

/-- What a request works on. -/
structure Session (β : Type) where
  store : Store
  disk : Disk β
  /-- How many identifiers have been taken. -/
  minted : ℕ

/-- Programs in a session. -/
abbrev SessionM (β : Type) := EStateM Exc (Session β)

variable {α β ρ : Type} {key : ρ → String}

/-- A mapped class: where the rows of its table are. -/
structure Mapped {ρ : Type} (key : ρ → String) where
  table : Store → Table key
  write : Store → Table key → Store

namespace Mapped

@[reducible] def labs : Mapped LabRow.id := ⟨Store.labs, fun st t => { st with labs := t }⟩
@[reducible] def labStorage : Mapped LabStorageRow.labId :=
  ⟨Store.labStorage, fun st t => { st with labStorage := t }⟩
@[reducible] def runs : Mapped RunRow.id := ⟨Store.runs, fun st t => { st with runs := t }⟩
@[reducible] def approvals : Mapped ApprovalRow.id :=
  ⟨Store.approvals, fun st t => { st with approvals := t }⟩
@[reducible] def exports : Mapped ExportRow.id := ⟨Store.exports, fun st t => { st with exports := t }⟩
@[reducible] def snapshots : Mapped SnapshotRow.id :=
  ⟨Store.snapshots, fun st t => { st with snapshots := t }⟩
@[reducible] def secretLeases : Mapped SecretLeaseRow.id :=
  ⟨Store.secretLeases, fun st t => { st with secretLeases := t }⟩
@[reducible] def schedulerJobs : Mapped SchedulerJobRow.id :=
  ⟨Store.schedulerJobs, fun st t => { st with schedulerJobs := t }⟩

end Mapped

/-! ### Statements -/

/-- Change the rows of the session. -/
def onStore (f : Store → Store) : SessionM β Unit := modify fun s => { s with store := f s.store }

/-- `session.get(Class, key)`. -/
def getRow (m : Mapped key) (k : String) : SessionM β (Option ρ) := do
  let s ← get
  pure ((m.table s.store).get? k)

/-- `session.get(Class, key)`, or `raise` where there is no row. -/
def getOr (m : Mapped key) (k : String) (e : Exc) : SessionM β ρ := do
  let row ← getRow m k
  orRaise row e

/-- `session.add(row)` and its flush: the key must be new. -/
def addRow (m : Mapped key) (row : ρ) : SessionM β Unit := do
  let there ← getRow m (key row)
  raiseIf (there.isSome = true) .integrity
  onStore fun st => m.write st ((m.table st).put row)

/-- Assign to attributes of a row of the session: the row is now `row`. -/
def setRow (m : Mapped key) (row : ρ) : SessionM β Unit := onStore fun st => m.write st ((m.table st).put row)

/-- `_record_event` and `EventWriter.write`. -/
def recordEvent (event : EventRow) : SessionM β Unit :=
  onStore fun st => { st with events := st.events ++ [event] }

/-- `str(uuid4())`, given the sequence of identifiers. -/
def newId (uuid4 : ℕ → String) : SessionM β String := do
  let s ← get
  modify fun s => { s with minted := s.minted + 1 }
  pure (uuid4 s.minted)

/-- Programs over the disk that raise the code's own exceptions too. -/
abbrev DiskM (β : Type) := EStateM Exc (Disk β)

/-- A file operation. -/
def files (x : FileM β α) : DiskM β α := x.adaptExcept Exc.file

/-- A program over the disk, in a session. -/
def onDisk (x : DiskM β α) : SessionM β α := onPart Session.disk (fun s d => { s with disk := d }) x

/-! ### Transactions -/

/-- What `x` did to the rows is undone when it raises. -/
def rollingBack (x : SessionM β α) : SessionM β α := fun s =>
  match x s with
  | .ok a s' => .ok a s'
  | .error e s' => .error e { s' with store := s.store }

/-- `session.commit()`. -/
def commit : SessionM β Unit := fun s =>
  match s.disk.fates with
  | .failed _ _ :: fates => .error .database { s with disk := ⟨s.disk.tree, fates⟩ }
  | fates => .ok () { s with disk := ⟨s.disk.tree, fates.tail⟩ }

/-- `with db_session_factory() as session: ...; session.commit()`. -/
def withSession (body : SessionM β α) : SessionM β α :=
  rollingBack do
    let a ← body
    commit
    pure a

/-! ### What statements do -/

section

variable {m : Mapped key} {s s' : Session β}

@[simp] theorem onStore_eq_ok {f : Store → Store} {u : Unit} :
    (onStore f : SessionM β Unit) s = .ok u s' ↔ { s with store := f s.store } = s' := modify_eq_ok

@[simp] theorem getRow_eq_ok {k : String} {row : Option ρ} :
    (getRow m k : SessionM β _) s = .ok row s' ↔ (m.table s.store).get? k = row ∧ s = s' := by
  unfold getRow
  rw [bind_eq_ok]
  simp [and_comm]

@[simp] theorem getOr_eq_ok {k : String} {e : Exc} {row : ρ} :
    (getOr m k e : SessionM β _) s = .ok row s' ↔ (m.table s.store).get? k = some row ∧ s = s' := by
  unfold getOr
  rw [bind_eq_ok]
  simp only [getRow_eq_ok, orRaise_eq_ok]
  constructor
  · rintro ⟨_, _, ⟨rfl, rfl⟩, h⟩
    exact h
  · exact fun h => ⟨_, _, ⟨rfl, rfl⟩, h⟩

@[simp] theorem addRow_eq_ok {row : ρ} {u : Unit} :
    (addRow m row : SessionM β _) s = .ok u s' ↔ (m.table s.store).get? (key row) = none ∧
      { s with store := m.write s.store ((m.table s.store).put row) } = s' := by
  unfold addRow
  simp only [bind_eq_ok, getRow_eq_ok, raiseIf_eq_ok, onStore_eq_ok]
  constructor
  · rintro ⟨_, _, ⟨rfl, rfl⟩, _, _, ⟨h, rfl⟩, h'⟩
    exact ⟨by simpa using h, h'⟩
  · rintro ⟨h, h'⟩
    exact ⟨_, _, ⟨rfl, rfl⟩, (), _, ⟨by simp [h], rfl⟩, h'⟩

@[simp] theorem setRow_eq_ok {row : ρ} {u : Unit} :
    (setRow m row : SessionM β _) s = .ok u s' ↔
      { s with store := m.write s.store ((m.table s.store).put row) } = s' := onStore_eq_ok

@[simp] theorem recordEvent_eq_ok {event : EventRow} {u : Unit} :
    (recordEvent event : SessionM β _) s = .ok u s' ↔
      { s with store := { s.store with events := s.store.events ++ [event] } } = s' := onStore_eq_ok

@[simp] theorem newId_eq_ok {uuid4 : ℕ → String} {id : String} :
    (newId uuid4 : SessionM β _) s = .ok id s' ↔ uuid4 s.minted = id ∧
    { s with minted := s.minted + 1 } = s' := by
  unfold newId
  simp only [bind_eq_ok, get_eq_ok, modify_eq_ok, pure_eq_ok]
  constructor
  · rintro ⟨_, _, ⟨rfl, rfl⟩, _, _, rfl, rfl, rfl⟩
    exact ⟨rfl, rfl⟩
  · rintro ⟨rfl, rfl⟩
    exact ⟨_, _, ⟨rfl, rfl⟩, (), _, rfl, rfl, rfl⟩

@[simp] theorem files_eq_ok {x : FileM β α} {a : α} {d d' : Disk β} : files x d = .ok a d' ↔ x d = .ok a d' :=
  adaptExcept_eq_ok

@[simp] theorem onDisk_eq_ok {x : DiskM β α} {a : α} :
    onDisk x s = .ok a s' ↔ ∃ d, x s.disk = .ok a d ∧ { s with disk := d } = s' := onPart_eq_ok

theorem onDisk_eq_error {x : DiskM β α} {e : Exc} :
    onDisk x s = .error e s' ↔ ∃ d, x s.disk = .error e d ∧ { s with disk := d } = s' := onPart_eq_error

@[simp] theorem files_eq_error {x : FileM β α} {e : Exc} {d d' : Disk β} :
    files x d = .error e d' ↔ ∃ e', x d = .error e' d' ∧ Exc.file e' = e := adaptExcept_eq_error

@[simp] theorem setRow_eq_error {row : ρ} {e : Exc} : ¬ (setRow m row : SessionM β _) s = .error e s' :=
  modify_eq_error

@[simp] theorem recordEvent_eq_error {event : EventRow} {e : Exc} :
    ¬ (recordEvent event : SessionM β _) s = .error e s' := modify_eq_error

@[simp] theorem getOr_eq_error {k : String} {e e' : Exc} :
    (getOr m k e : SessionM β _) s = .error e' s' ↔ (m.table s.store).get? k = none ∧ e = e' ∧ s = s' := by
  unfold getOr
  rw [bind_eq_error]
  constructor
  · rintro (h | ⟨_, _, h, h'⟩)
    · rcases bind_eq_error.mp h with h | ⟨_, _, -, h⟩
      · exact absurd h get_eq_error
      · exact absurd h pure_eq_error
    · obtain ⟨rfl, rfl⟩ := getRow_eq_ok.mp h
      exact orRaise_eq_error.mp h'
  · rintro ⟨h, rfl, rfl⟩
    exact .inr ⟨none, s, getRow_eq_ok.mpr ⟨h, rfl⟩, orRaise_eq_error.mpr ⟨rfl, rfl, rfl⟩⟩

theorem store_of_onDisk_error {x : DiskM β α} {e : Exc} (h : onDisk x s = .error e s') :
    s'.store = s.store := by
  unfold onDisk onPart at h
  split at h
  · cases h
  · obtain ⟨rfl, rfl⟩ := EStateM.Result.error.inj h
    rfl

theorem commit_eq_ok {u : Unit} (h : (commit : SessionM β Unit) s = .ok u s') :
    s'.store = s.store ∧ s'.disk.tree = s.disk.tree ∧ s'.minted = s.minted := by
  unfold commit at h
  split at h
  · cases h
  · obtain ⟨rfl, rfl⟩ := EStateM.Result.ok.inj h
    exact ⟨rfl, rfl, rfl⟩

@[simp] theorem rollingBack_eq_ok {x : SessionM β α} {a : α} : rollingBack x s = .ok a s' ↔
    x s = .ok a s' := by
  unfold rollingBack
  cases x s <;> simp

/-- **A block commits all its body did to the rows, or nothing.** -/
theorem withSession_eq_ok {body : SessionM β α} {a : α} (h : withSession body s = .ok a s') :
    ∃ s₁, body s = .ok a s₁ ∧ s'.store = s₁.store ∧ s'.disk.tree = s₁.disk.tree ∧ s'.minted = s₁.minted := by
  obtain ⟨a', s₁, hbody, h⟩ := bind_eq_ok.mp (rollingBack_eq_ok.mp h)
  obtain ⟨_, s₂, hc, h⟩ := bind_eq_ok.mp h
  obtain ⟨rfl, rfl⟩ := pure_eq_ok.mp h
  obtain ⟨h1, h2, h3⟩ := commit_eq_ok hc
  exact ⟨s₁, hbody, h1, h2, h3⟩

/-- Where the disk has no fault left, a block whose body returns commits. -/
theorem withSession_of_ok {body : SessionM β α} {a : α} {s₁ : Session β} (h : body s = .ok a s₁)
    (hfates : s₁.disk.fates = []) : ∃ s', withSession body s = .ok a s' := by
  obtain ⟨store, ⟨tree, fates⟩, minted⟩ := s₁
  obtain rfl : fates = [] := hfates
  exact ⟨_, rollingBack_eq_ok.mpr
    (bind_eq_ok.mpr ⟨a, _, h, bind_eq_ok.mpr ⟨(), _, rfl, pure_eq_ok.mpr ⟨rfl, rfl⟩⟩⟩)⟩

/-- A commit is all that is left of a block whose body returns. -/
theorem withSession_run_of_ok {body : SessionM β α} {a : α} {s₁ : Session β} (h : body s = .ok a s₁) :
    withSession body s = rollingBack (fun _ => (do commit; pure a : SessionM β α) s₁) s := by
  unfold withSession rollingBack
  rw [bind_run_of_ok h]

/-- A block whose body raises leaves the disk as it is and takes the rows back. -/
theorem withSession_of_error {body : SessionM β α} {e : Exc} {s₁ : Session β} (h : body s = .error e s₁) :
    withSession body s = .error e { s₁ with store := s.store } := by
  have hbody : (do let a ← body; commit; pure a : SessionM β α) s = .error e s₁ := bind_eq_error.mpr (.inl h)
  unfold withSession rollingBack
  rw [hbody]

theorem store_of_rollingBack_error {x : SessionM β α} {e : Exc} (h : rollingBack x s = .error e s') :
    s'.store = s.store := by
  unfold rollingBack at h
  split at h
  · cases h
  · obtain ⟨rfl, rfl⟩ := EStateM.Result.error.inj h
    rfl

/-- However a block ends, the rows are as they were, or its body returned and they are as it left them. -/
theorem store_of_withSession (body : SessionM β α) (s : Session β) :
    (endState (withSession body s)).store = s.store ∨ ∃ a s₁, body s = .ok a s₁ ∧
      (endState (withSession body s)).store = s₁.store ∧
        (endState (withSession body s)).minted = s₁.minted := by
  cases h : withSession body s with
  | ok a s' =>
    obtain ⟨s₁, hbody, hstore, -, hminted⟩ := withSession_eq_ok h
    exact .inr ⟨a, s₁, hbody, hstore, hminted⟩
  | error e s' =>
    unfold withSession at h
    exact .inl (store_of_rollingBack_error h)

/-- A block that raises leaves the rows as they were. -/
theorem store_of_block_error {γ : Type} {f : α → γ} {body : SessionM β α} {e : Exc}
    (h : (f <$> withSession body) s = .error e s') : s'.store = s.store := by
  cases hbody : withSession body s with
  | ok a s₁ =>
    rw [map_eq_ok.mpr ⟨a, hbody, rfl⟩] at h
    cases h
  | error e' s₁ =>
    have hend : endState ((f <$> withSession body) s) = s₁ := by rw [endState_map, hbody, endState_error]
    rw [h, endState_error] at hend
    rw [hend]
    exact store_of_rollingBack_error hbody

end

/-! ### Frames -/

/-- The frame of programs that change the disk as `G` allows, and give no identifier back. -/
def touching (G : Frame (FileTree β)) : Frame (Session β) where
  rel s s' := G.rel s.disk.tree s'.disk.tree ∧ s.minted ≤ s'.minted
  refl s := ⟨G.refl s.disk.tree, le_rfl⟩
  trans h h' := ⟨G.trans h.1 h'.1, h.2.trans h'.2⟩

section Frames

variable {G : Frame (FileTree β)} {s : Session β} {m : Mapped key}

theorem within_onDisk {x : DiskM β α} (h : Within (onTree G) x s.disk) :
    Within (touching G) (onDisk x) s := by
  unfold Within onDisk onPart at *
  cases hx : x s.disk <;> (rw [hx] at h; exact ⟨h, le_rfl⟩)

theorem within_onStore (f : Store → Store) : Within (touching G) (onStore f) s := ⟨G.refl _, le_rfl⟩

theorem within_getRow (k : String) : Within (touching G) (getRow m k) s := ⟨G.refl _, le_rfl⟩

theorem within_getOr (k : String) (e : Exc) : Within (touching G) (getOr m k e) s :=
  (within_getRow k).bind fun _ _ _ _ => Within.orRaise _ _

theorem within_addRow (row : ρ) : Within (touching G) (addRow m row) s :=
  (within_getRow _).bind fun _ _ _ _ => (Within.raiseIf _ _).bind fun _ _ _ _ => within_onStore _

theorem within_setRow (row : ρ) : Within (touching G) (setRow m row) s := within_onStore _

theorem within_recordEvent (event : EventRow) : Within (touching G) (recordEvent event) s := within_onStore _

theorem within_newId (uuid4 : ℕ → String) : Within (touching G) (newId uuid4) s :=
  ⟨G.refl _, Nat.le_succ _⟩

theorem within_commit : Within (touching G) commit s := by
  unfold Within commit
  split <;> exact ⟨G.refl _, le_rfl⟩

theorem within_rollingBack {x : SessionM β α} (h : Within (touching G) x s) :
    Within (touching G) (rollingBack x) s := by
  unfold Within rollingBack at *
  cases hx : x s <;> (rw [hx] at h; exact h)

theorem within_withSession {body : SessionM β α} (h : Within (touching G) body s) :
    Within (touching G) (withSession body) s :=
  within_rollingBack <| h.bind fun _ _ _ _ => within_commit.bind fun _ _ _ _ => Within.pure _

end Frames

end LabOS
