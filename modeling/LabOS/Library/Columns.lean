import LabOS.Library.Table

/-!
# Writing only the columns that changed

A unit of work reads a row, changes some of its columns, and when it is flushed writes
those columns and no others to the row as it is by then. `pick` is that for one column,
`Columnar` for the rows of a type, and `mergeTable` for a table: what a transaction that
read `base` and made `new` of it leaves of a table that is `cur` when it commits.
-/

/-- A column when it is written back: what was read, what it was changed to, what it is now. -/
def pick {α : Type} [DecidableEq α] (base new cur : α) : α := if new = base then cur else new

section

variable {α : Type} [DecidableEq α]

@[simp] theorem pick_self (base cur : α) : pick base base cur = cur := if_pos rfl

@[simp] theorem pick_current (base new : α) : pick base new base = new := by
  unfold pick
  split
  · next h => exact h.symm
  · rfl

theorem pick_of_ne {base new cur : α} (h : new ≠ base) : pick base new cur = new := if_neg h

end

/-- Rows whose columns are written back one by one. -/
class Columnar (ρ : Type) where
  merge : ρ → ρ → ρ → ρ
  /-- Nothing was changed. -/
  merge_self : ∀ base cur, merge base base cur = cur
  /-- Nobody else wrote the row. -/
  merge_current : ∀ base new, merge base new base = new

namespace Columnar

attribute [simp] merge_self merge_current

variable {ρ κ : Type} {key : ρ → κ} [DecidableEq κ] [Columnar ρ]

/-- Write one row back: insert it, or write its columns that changed. -/
def mergeRow (base cur : Table key) (new : ρ) : Table key :=
  match base.get? (key new) with
  | none => cur.put new
  | some b => cur.modify (key new) fun c => some (merge b new c)

/-- Write a table back. -/
def mergeTable (base new cur : Table key) : Table key := new.rows.foldl (mergeRow base) cur

/-- Rows of a type whose key no write back changes. -/
def KeepsKey (key : ρ → κ) : Prop := ∀ b n c, key n = key b → key (merge b n c) = key c

theorem keepsKey_of_pick (h : ∀ b n c : ρ, key (merge b n c) = pick (key b) (key n) (key c)) :
    KeepsKey key := by
  intro b n c hkey
  rw [h, hkey, pick_self]

variable (hkey : KeepsKey key)
include hkey

theorem get?_mergeRow (base cur : Table key) (new : ρ) (k : κ) : (mergeRow base cur new).get? k =
    if k = key new then
      match base.get? k with
      | none => some new
      | some b => (cur.get? k).map (merge b new)
    else cur.get? k := by
  unfold mergeRow
  cases hb : base.get? (key new) with
  | none =>
    by_cases hk : k = key new
    · simp [hk, hb]
    · simp [hk, Table.get?_put_ne hk]
  | some b =>
    have hbase : key new = key b := (Table.key_of_get? hb).symm
    dsimp only
    rw [Table.get?_modify _ fun c c' h => by rw [← Option.some.inj h]; exact hkey b new c hbase]
    by_cases hk : k = key new
    · simp [hk, hb]
    · simp [hk]

theorem get?_foldl_mergeRow_of_notMem (base : Table key) {rows : List ρ} {cur : Table key} {k : κ}
    (h : k ∉ rows.map key) : (rows.foldl (mergeRow base) cur).get? k = cur.get? k := by
  induction rows generalizing cur with
  | nil => rfl
  | cons new rows ih =>
    obtain ⟨hne, hrest⟩ := not_or.mp (List.mem_cons.not.mp h)
    rw [List.foldl_cons, ih hrest, get?_mergeRow hkey, if_neg hne]

theorem get?_foldl_mergeRow_of_mem (base : Table key) {rows : List ρ} (hnodup : (rows.map key).Nodup)
    {cur : Table key} {new : ρ} (h : new ∈ rows) : (rows.foldl (mergeRow base) cur).get? (key new) =
      match base.get? (key new) with
      | none => some new
      | some b => (cur.get? (key new)).map (merge b new) := by
  induction rows generalizing cur with
  | nil => cases h
  | cons row rows ih =>
    obtain ⟨hrow, hnodup⟩ := List.nodup_cons.mp hnodup
    rw [List.foldl_cons]
    rcases List.mem_cons.mp h with rfl | h
    · rw [get?_foldl_mergeRow_of_notMem hkey base hrow, get?_mergeRow hkey, if_pos rfl]
    · have hne : key new ≠ key row := fun e => hrow (e ▸ List.mem_map_of_mem h)
      rw [ih hnodup h, get?_mergeRow hkey, if_neg hne]

/-- **What a write back leaves of a row.** -/
theorem get?_mergeTable (base new cur : Table key) (k : κ) : (mergeTable base new cur).get? k =
    match new.get? k with
    | none => cur.get? k
    | some n =>
      match base.get? k with
      | none => some n
      | some b => (cur.get? k).map (merge b n) := by
  unfold mergeTable
  cases hn : new.get? k with
  | none =>
    refine get?_foldl_mergeRow_of_notMem hkey base fun hmem => ?_
    obtain ⟨n, hrow, rfl⟩ := List.mem_map.mp hmem
    rw [Table.get?_of_mem hrow] at hn
    cases hn
  | some n =>
    obtain rfl := Table.key_of_get? hn
    exact get?_foldl_mergeRow_of_mem hkey base new.nodup (Table.mem_of_get? hn)

theorem get?_mergeTable_of_some {base new cur : Table key} {k : κ} {b n c : ρ} (hb : base.get? k = some b)
    (hn : new.get? k = some n) (hc : cur.get? k = some c) :
    (mergeTable base new cur).get? k = some (merge b n c) := by
  rw [get?_mergeTable hkey, hn, hb, hc]
  rfl

/-- Where nobody else wrote, a write back leaves each row as it was made. -/
theorem get?_mergeTable_current {base new : Table key}
    (hkept : ∀ k b, base.get? k = some b → ∃ n, new.get? k = some n) (k : κ) :
    (mergeTable base new base).get? k = new.get? k := by
  rw [get?_mergeTable hkey]
  cases hn : new.get? k with
  | none =>
    cases hb : base.get? k with
    | none => rfl
    | some b =>
      obtain ⟨n, hn'⟩ := hkept k b hb
      rw [hn] at hn'
      cases hn'
  | some n =>
    cases hb : base.get? k with
    | none => rfl
    | some b => simp

/-- A row that is there stays there, and one that is not written stays as it is. -/
theorem exists_of_mergeTable {base new cur : Table key} {k : κ} {c : ρ} (h : cur.get? k = some c) :
    ∃ m, (mergeTable base new cur).get? k = some m := by
  rw [get?_mergeTable hkey]
  cases new.get? k with
  | none => exact ⟨c, h⟩
  | some n =>
    cases base.get? k with
    | none => exact ⟨n, rfl⟩
    | some b => exact ⟨merge b n c, by rw [h]; rfl⟩

/-- A row after a write back that inserts none: as it was, or with the columns that changed. -/
theorem row_of_mergeTable {base new cur : Table key}
    (hadds : ∀ k n, new.get? k = some n → ∃ b, base.get? k = some b) {k : κ} {m : ρ}
    (h : (mergeTable base new cur).get? k = some m) : ∃ c, cur.get? k = some c ∧
      (m = c ∨ ∃ b n, base.get? k = some b ∧ new.get? k = some n ∧ m = merge b n c) := by
  rw [get?_mergeTable hkey] at h
  cases hn : new.get? k with
  | none =>
    rw [hn] at h
    exact ⟨m, h, .inl rfl⟩
  | some n =>
    obtain ⟨b, hb⟩ := hadds k n hn
    simp only [hn, hb, Option.map_eq_some_iff] at h
    obtain ⟨c, hc, rfl⟩ := h
    exact ⟨c, hc, .inr ⟨b, n, hb, rfl, rfl⟩⟩

omit hkey

/-! ### One column -/

section Changed

variable {τ : Type} [DecidableEq τ] {column : ρ → τ} {base new : Table key}

/-- The rows one column of which was changed, and what to. -/
def changed (column : ρ → τ) (base new : Table key) : List (κ × τ) :=
  (new.rows.filter fun n => (base.get? (key n)).any fun b => column b ≠ column n).map fun n =>
    (key n, column n)

omit [Columnar ρ] in
theorem mem_changed {x : κ × τ} : x ∈ changed column base new ↔
    ∃ b n, base.get? x.1 = some b ∧ new.get? x.1 = some n ∧ column b ≠ column n ∧ x.2 = column n := by
  simp only [changed, List.mem_map, List.mem_filter, Option.any_eq_true, decide_eq_true_eq]
  constructor
  · rintro ⟨n, ⟨hn, b, hb, hne⟩, rfl⟩
    exact ⟨b, n, hb, Table.get?_of_mem hn, hne, rfl⟩
  · rintro ⟨b, n, hb, hn, hne, hx⟩
    have hkey := Table.key_of_get? hn
    refine ⟨n, ⟨Table.mem_of_get? hn, b, hkey ▸ hb, hne⟩, ?_⟩
    rw [hkey, ← hx]

omit [Columnar ρ] in
/-- No row is told of twice. -/
theorem nodup_changed : ((changed column base new).map Prod.fst).Nodup := by
  simp only [changed, List.map_map]
  exact (List.filter_sublist.map _).nodup new.nodup

end Changed

end Columnar
