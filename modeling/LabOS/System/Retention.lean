import LabOS.System.Symbolic

/-!
# Retention

The tree of a persistent lab is kept for some days after the lab is released. The allocator knows for
how many from the allocation it returned; a row of the database keeps everything of an allocation
but that number, and both readers of rows put `0` in its place.

## What is proved

* `retention_survives_iff` — **an allocation that is read back from its row has the deadline it had,
  and is cleaned up when it would have been, exactly when** it is ephemeral.
* `cleanup_early` — from the release on an allocation that was read back is cleaned up.

## Where the code parts from its tests

`retention_lost`: the deadline of a persistent lab that is to be kept for a day is, read back, the release.
-/

namespace LabOS

open Exceptional FileOps

variable {β : Type}

/-! ### Times -/

namespace DateTime

/-- The least and the greatest value, in microseconds from 1970 on. -/
def inRange (d : DateTime) : Bool := -62135596800000000 ≤ d.wall && d.wall ≤ 253402300799999999

/-- `d + timedelta(days=n)`; nothing where the days or the sum overflow. -/
def addDays (d : DateTime) (n : ℤ) : Option DateTime :=
  let later : DateTime := { d with wall := d.wall + n * 86400000000 }
  if -999999999 ≤ n ∧ n ≤ 999999999 ∧ later.inRange = true then some later else none

/-- `a < b`; nothing where one of them has an offset and the other none. -/
def less (a b : DateTime) : Option Bool :=
  match a.offset, b.offset with
  | none, none => some (a.wall < b.wall)
  | some _, some _ => some (a.instant < b.instant)
  | _, _ => none

theorem addDays_ne_self {d : DateTime} {n : ℤ} (h : 1 ≤ n) : d.addDays n ≠ some d := by
  unfold addDays
  dsimp only
  split
  · intro he
    have hwall := congrArg DateTime.wall (Option.some.inj he)
    dsimp only at hwall
    omega
  · nofun

end DateTime

/-! ### The allocator -/

/-- What the clean-up of an allocation raises. -/
inductive RetentionExc where
  | overflow
  | typeError
  | storage (e : Exc)
  deriving DecidableEq, Repr

namespace ManagedStorageAllocator

def retentionDeadline (allocation : StorageAllocation) (releasedAt : DateTime) :
    Except RetentionExc DateTime :=
  if allocation.persistenceMode = .ephemeral then .ok releasedAt
  else match releasedAt.addDays allocation.retentionDays with
    | some deadline => .ok deadline
    | none => .error .overflow

def cleanup (root : PosixPath) (allocation : StorageAllocation) (releasedAt asOf : DateTime) :
    EStateM RetentionExc (Disk β) Bool := do
  (assertManagedPath root allocation.rootPath).adaptExcept .storage
  let deadline ← fromExcept (retentionDeadline allocation releasedAt)
  let early ← orRaise (asOf.less deadline) .typeError
  if early then return false
  let there ← (files (pathExists allocation.rootPath)).adaptExcept .storage
  whenever there ((files (rmtree allocation.rootPath)).adaptExcept .storage)
  return true

end ManagedStorageAllocator

/-- `ReconciliationService._storage_allocation_from_row`, which is told the lab. -/
def ReconciliationService.storageAllocationFromRow (row : LabStorageRow) (labId : String) :
    Except Exc StorageAllocation := do
  let allocation ← LabOS.storageAllocationFromRow row
  return { allocation with labId := labId }

/-! ### The round trip -/

open ManagedStorageAllocator

variable {root : PosixPath} {labId : String} {policy : StoragePolicy}

/-- An allocation as it is read back from its row. -/
def readBack (allocation : StorageAllocation) : StorageAllocation := { allocation with retentionDays := 0 }

theorem storageAllocationFromRow_newLabStorage (allocation : StorageAllocation) :
    storageAllocationFromRow (App.newLabStorage allocation) = .ok (readBack allocation) := by
  obtain ⟨_, _, _, _, _, _, mode, _, _⟩ := allocation
  cases mode <;> rfl

theorem retentionDeadline_of_ephemeral {allocation : StorageAllocation} {releasedAt : DateTime}
    (h : allocation.persistenceMode = .ephemeral) :
    retentionDeadline allocation releasedAt = .ok releasedAt :=
  if_pos h

/-- What is read back of an allocation is to be kept until it is released. -/
theorem retentionDeadline_readBack {allocation : StorageAllocation} {releasedAt : DateTime}
    (h : releasedAt.inRange = true) :
    retentionDeadline (readBack allocation) releasedAt = .ok releasedAt := by
  have hsame : releasedAt.addDays 0 = some releasedAt := by
    simp [DateTime.addDays, h]
  unfold retentionDeadline
  split
  · rfl
  · change (match releasedAt.addDays 0 with
      | some deadline => Except.ok deadline
      | none => .error RetentionExc.overflow) = _
    rw [hsame]

/-- An allocation that is kept for a day or more is kept until it is released only where it is ephemeral. -/
theorem retentionDeadline_eq_released_iff {allocation : StorageAllocation} {releasedAt : DateTime}
    (hdays : 1 ≤ allocation.retentionDays) :
    retentionDeadline allocation releasedAt = .ok releasedAt ↔ allocation.persistenceMode = .ephemeral := by
  refine ⟨fun h => ?_, retentionDeadline_of_ephemeral⟩
  by_contra hmode
  rw [retentionDeadline, if_neg hmode] at h
  split at h
  · next hlater =>
    obtain rfl := Except.ok.inj h
    exact DateTime.addDays_ne_self hdays hlater
  · cases h

/-- A clean-up asks of the allocation only where its tree is and what its deadline is. -/
theorem cleanup_congr {allocation allocation' : StorageAllocation} {releasedAt : DateTime}
    (hroot : allocation'.rootPath = allocation.rootPath)
    (hdeadline : retentionDeadline allocation' releasedAt = retentionDeadline allocation releasedAt)
    (asOf : DateTime) (d : Disk β) :
    cleanup root allocation' releasedAt asOf d = cleanup root allocation releasedAt asOf d := by
  unfold cleanup
  rw [hroot, hdeadline]

/-- **What is read back is cleaned up early**: where the tree is to be kept until a later deadline, the
clean-up of the allocation leaves it, and that of what was read back does not. -/
theorem cleanup_early {allocation : StorageAllocation} {releasedAt asOf deadline : DateTime} {d d' : Disk β}
    (hreleased : releasedAt.inRange = true)
    (hdeadline : retentionDeadline allocation releasedAt = .ok deadline)
    (hearly : asOf.less deadline = some true) (hlate : asOf.less releasedAt = some false)
    (hmanaged : assertManagedPath root allocation.rootPath d = .ok () d') :
    cleanup root allocation releasedAt asOf d = .ok false d' ∧
      ∀ b d'', cleanup root (readBack allocation) releasedAt asOf d = .ok b d'' → b = true := by
  have hchecked : ((assertManagedPath root allocation.rootPath).adaptExcept RetentionExc.storage :
      EStateM RetentionExc (Disk β) Unit) d = .ok () d' := adaptExcept_eq_ok.mpr hmanaged
  constructor
  · unfold cleanup
    rw [bind_run_of_ok hchecked, hdeadline, bind_run_of_ok (fromExcept_eq_ok.mpr ⟨rfl, rfl⟩),
      bind_run_of_ok (orRaise_eq_ok.mpr ⟨hearly, rfl⟩)]
    rfl
  · intro b d'' h
    unfold cleanup at h
    rw [show (readBack allocation).rootPath = allocation.rootPath from rfl, bind_run_of_ok hchecked,
      retentionDeadline_readBack hreleased, bind_run_of_ok (fromExcept_eq_ok.mpr ⟨rfl, rfl⟩),
      bind_run_of_ok (orRaise_eq_ok.mpr ⟨hlate, rfl⟩)] at h
    obtain ⟨_, _, -, h⟩ := bind_eq_ok.mp h
    obtain ⟨_, _, -, h⟩ := bind_eq_ok.mp h
    exact (pure_eq_ok.mp h).1.symm

/-- **Retention survives the round trip exactly for ephemeral labs.** The allocation of a lab whose policy
keeps it for a day or more is read back from its row by the application and by the reconciler alike, and
what they read has the deadline of the allocation, and is cleaned up as the allocation would be, exactly
when the policy is ephemeral. -/
theorem retention_survives_iff (root : PosixPath) (labId : String) (policy : StoragePolicy)
    (hdays : 1 ≤ policy.retentionDays) (releasedAt asOf : DateTime) (hreleased : releasedAt.inRange = true)
    (allocation : StorageAllocation) (d d' : Disk β) (h : allocate root labId policy d = .ok allocation d') :
    ∃ rebuilt, storageAllocationFromRow (App.newLabStorage allocation) = .ok rebuilt ∧
      ReconciliationService.storageAllocationFromRow (App.newLabStorage allocation) labId = .ok rebuilt ∧
      ((retentionDeadline rebuilt releasedAt = retentionDeadline allocation releasedAt ∧
        ∀ d : Disk β, cleanup root rebuilt releasedAt asOf d = cleanup root allocation releasedAt asOf d) ↔
      policy.persistenceMode = .ephemeral) := by
  obtain rfl := allocate_eq_ok h
  refine ⟨readBack (allocationFor root labId policy), storageAllocationFromRow_newLabStorage _, ?_, ?_⟩
  · rw [ReconciliationService.storageAllocationFromRow, storageAllocationFromRow_newLabStorage]
    rfl
  have hkept : retentionDeadline (allocationFor root labId policy) releasedAt = .ok releasedAt ↔
      policy.persistenceMode = .ephemeral := retentionDeadline_eq_released_iff hdays
  rw [← hkept, retentionDeadline_readBack hreleased]
  constructor
  · rintro ⟨hsame, -⟩
    exact hsame.symm
  · intro hsame
    have hdeadline : retentionDeadline (readBack (allocationFor root labId policy)) releasedAt =
        retentionDeadline (allocationFor root labId policy) releasedAt :=
      (retentionDeadline_readBack hreleased).trans hsame.symm
    have hroot : (readBack (allocationFor root labId policy)).rootPath =
        (allocationFor root labId policy).rootPath := rfl
    exact ⟨hsame.symm, cleanup_congr hroot hdeadline asOf⟩

/-- What a profile with a day of retention makes of a lab. -/
def dayPolicy (mode : PersistenceMode) : StoragePolicy where
  filesystemMode := .managed
  persistenceMode := mode
  diskMb := 1024
  retentionDays := 1

/-- The allocation of an ephemeral lab is read back with its deadline. -/
theorem retention_survives_iff_ephemeral :
    ∃ rebuilt, storageAllocationFromRow
      (App.newLabStorage (allocationFor ["srv"] "a" (dayPolicy .ephemeral))) =
        .ok rebuilt ∧
      retentionDeadline rebuilt (.utc 0) =
        retentionDeadline (allocationFor ["srv"] "a" (dayPolicy .ephemeral)) (.utc 0) := by
  obtain ⟨rebuilt, hread, -, hiff⟩ :=
    retention_survives_iff ["srv"] "a" (dayPolicy .ephemeral) (by decide) (.utc 0)
    (.utc 1) (by decide) (allocationFor ["srv"] "a" (dayPolicy .ephemeral)) ⟨emptyState.tree, []⟩ _ rfl
  exact ⟨rebuilt, hread, (hiff.mpr rfl).1⟩

/-- **The retention of a persistent lab is lost**: read back, it is to be kept until it is released. -/
theorem retention_lost :
    ∃ rebuilt, storageAllocationFromRow
      (App.newLabStorage (allocationFor ["srv"] "a" (dayPolicy .persistent))) =
        .ok rebuilt ∧
      retentionDeadline (allocationFor ["srv"] "a" (dayPolicy .persistent)) (.utc 0) = .ok
        (.utc 86400000000) ∧
      retentionDeadline rebuilt (.utc 0) = .ok (.utc 0) :=
  ⟨_, rfl, rfl, rfl⟩

end LabOS
