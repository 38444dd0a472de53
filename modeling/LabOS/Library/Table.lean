import Mathlib.Algebra.GroupWithZero.Nat
import Mathlib.Data.List.Nodup
import Mathlib.Data.List.Sort

/-!
# Keyed tables

A table is the list of its rows, no two of them with one key; the uniqueness is a
field of the structure, so that a table with a key stored twice cannot be built.
`get?` looks a row up by its key, `put` is the upsert of a database, `restrict`
keeps the rows that pass a test and `select` is a query with its `order by`.

Everything a caller needs about the three ways to change a table is what they do
to `get?` (`get?_put`, `get?_restrict`), so that no proof outside this module
looks at the list.
-/

/-- Rows of type `ρ`, no two of them with one `key`. -/
structure Table {ρ κ : Type} (key : ρ → κ) where
  /-- The rows, in the order they were added. -/
  rows : List ρ
  /-- No key occurs twice. -/
  nodup : (rows.map key).Nodup

namespace Table

variable {ρ κ : Type} {key : ρ → κ}

/-- The table without rows. -/
def empty : Table key := ⟨[], List.nodup_nil⟩

instance : EmptyCollection (Table key) := ⟨empty⟩

/-- Keep the rows that pass the test `p`. -/
def restrict (t : Table key) (p : ρ → Bool) : Table key :=
  ⟨t.rows.filter p, (List.filter_sublist.map key).nodup t.nodup⟩

/-- The rows that pass the test `p`, in the order of `le`. -/
def select (t : Table key) (p : ρ → Bool) (le : ρ → ρ → Prop) [DecidableRel le] : List ρ :=
  (t.rows.filter p).insertionSort le

@[simp] theorem mem_select {t : Table key} {p : ρ → Bool} {le : ρ → ρ → Prop} [DecidableRel le] {r : ρ} :
    r ∈ t.select p le ↔ r ∈ t.rows ∧ p r = true := by
  simp [select]

/-- A query gives no key twice. -/
theorem nodup_select (t : Table key) (p : ρ → Bool) (le : ρ → ρ → Prop) [DecidableRel le] :
    ((t.select p le).map key).Nodup :=
  (((t.rows.filter p).perm_insertionSort le).map key).nodup_iff.mpr
    ((List.filter_sublist.map key).nodup t.nodup)

/-- A query gives its rows in their order. -/
theorem pairwise_select (t : Table key) (p : ρ → Bool) (le : ρ → ρ → Prop) [DecidableRel le] [Std.Total le]
    [IsTrans ρ le] : (t.select p le).Pairwise le :=
  List.pairwise_insertionSort le _

variable [DecidableEq κ]

/-- The row with key `k`. -/
def get? (t : Table key) (k : κ) : Option ρ := t.rows.find? fun r => key r = k

/-- The rows after `r` has taken the place of the row with its key, or the last place. -/
def putRows (key : ρ → κ) (r : ρ) : List ρ → List ρ
  | [] => [r]
  | x :: xs => if key x = key r then r :: xs else x :: putRows key r xs

theorem map_putRows (r : ρ) (rs : List ρ) :
    (putRows key r rs).map key = if key r ∈ rs.map key then rs.map key else rs.map key ++ [key r] := by
  induction rs with
  | nil => simp [putRows]
  | cons x xs ih =>
    by_cases h : key x = key r
    · simp [putRows, h]
    · have h' : key r ≠ key x := fun e => h e.symm
      simp only [putRows, h, if_false, List.map_cons, ih, List.mem_cons, h', false_or]
      split <;> simp

/-- Store `r`: replace the row with its key, or add it. -/
def put (t : Table key) (r : ρ) : Table key :=
  ⟨putRows key r t.rows, by
    rw [map_putRows]
    split
    · exact t.nodup
    · next h => exact t.nodup.append (List.nodup_singleton _) (List.disjoint_singleton.mpr h)⟩

@[simp] theorem get?_empty (k : κ) : (∅ : Table key).get? k = none := rfl

theorem key_of_get? {t : Table key} {k : κ} {r : ρ} (h : t.get? k = some r) : key r = k := by
  simpa using List.find?_some h

theorem mem_of_get? {t : Table key} {k : κ} {r : ρ} (h : t.get? k = some r) : r ∈ t.rows :=
  List.mem_of_find?_eq_some h

/-- A row is found under its own key. -/
theorem get?_of_mem {t : Table key} {r : ρ} (h : r ∈ t.rows) : t.get? (key r) = some r := by
  obtain ⟨rows, nodup⟩ := t
  induction rows with
  | nil => cases h
  | cons x xs ih =>
    simp only [List.map_cons, List.nodup_cons] at nodup
    rcases List.mem_cons.mp h with rfl | h
    · simp [get?]
    · have hne : key x ≠ key r := fun e => nodup.1 (e ▸ List.mem_map_of_mem h)
      have := ih nodup.2 h
      simp only [get?] at this ⊢
      rw [List.find?_cons_of_neg (by simpa using hne), this]

theorem mem_rows_iff {t : Table key} {r : ρ} : r ∈ t.rows ↔ t.get? (key r) = some r :=
  ⟨get?_of_mem, mem_of_get?⟩

/-- **A query refined** is the query filtered, where rows that the order does not tell apart have one key. -/
theorem filter_select (t : Table key) (p q : ρ → Bool) (le : ρ → ρ → Prop) [DecidableRel le] [Std.Total le]
    [IsTrans ρ le] (hkey : ∀ a b, le a b → le b a → key a = key b) :
    (t.select p le).filter q = t.select (fun r => p r && q r) le := by
  have hperm : ((t.select p le).filter q).Perm (t.select (fun r => p r && q r) le) := by
    have hrefined : (t.rows.filter p).filter q = t.rows.filter fun r => p r && q r := by
      rw [List.filter_filter]
      exact List.filter_congr fun r _ => Bool.and_comm _ _
    refine (((t.rows.filter p).perm_insertionSort le).filter q).trans ?_
    rw [hrefined]
    exact (List.perm_insertionSort le _).symm
  refine hperm.eq_of_pairwise (fun a b ha hb hab hba => ?_) ((t.pairwise_select p le).filter q)
    (t.pairwise_select _ le)
  have hrows : a ∈ t.rows ∧ b ∈ t.rows :=
    ⟨(mem_select.mp (List.mem_of_mem_filter ha)).1, (mem_select.mp hb).1⟩
  have hsame := get?_of_mem hrows.1
  rw [hkey a b hab hba, get?_of_mem hrows.2] at hsame
  exact (Option.some.inj hsame).symm

/-- **What `put` does**: its row under its key, every other key as before. -/
theorem get?_put (t : Table key) (r : ρ) (k : κ) :
    (t.put r).get? k = if k = key r then some r else t.get? k := by
  obtain ⟨rows, nodup⟩ := t
  show (putRows key r rows).find? _ = _
  simp only [get?]
  clear nodup
  induction rows with
  | nil =>
    by_cases h : k = key r
    · simp [putRows, h]
    · simp [putRows, h, Ne.symm h]
  | cons x xs ih =>
    by_cases hx : key x = key r
    · by_cases h : k = key r
      · simp [putRows, hx, h]
      · simp [putRows, hx, h, Ne.symm h]
    · by_cases hk : key x = k
      · have : ¬ k = key r := fun e => hx (hk.trans e)
        simp [putRows, hk, this]
      · simp [putRows, hx, hk, ih]

@[simp] theorem get?_put_self (t : Table key) (r : ρ) : (t.put r).get? (key r) = some r := by
  simp [get?_put]

theorem get?_put_ne {t : Table key} {r : ρ} {k : κ} (h : k ≠ key r) : (t.put r).get? k = t.get? k := by
  simp [get?_put, h]

/-- What is found after `put`: its row, or a row found before. -/
theorem eq_or_of_get?_put {t : Table key} {r x : ρ} {k : κ} (h : (t.put r).get? k = some x) :
    (k = key r ∧ x = r) ∨ k ≠ key r ∧ t.get? k = some x := by
  rw [get?_put] at h
  split at h
  · next hk => exact .inl ⟨hk, (Option.some.inj h).symm⟩
  · next hk => exact .inr ⟨hk, h⟩

/-- A row under a new key leaves the others as they are. -/
theorem get?_put_of_fresh {t : Table key} {r x : ρ} {k : κ} (hr : t.get? (key r) = none)
    (h : t.get? k = some x) : (t.put r).get? k = some x := by
  rw [get?_put_ne, h]
  rintro rfl
  exact absurd (hr.symm.trans h) (by simp)

/-- When the row under `k` moves by `R`, every row does, for `R` reflexive. -/
theorem exists_move_of_put {R : ρ → ρ → Prop} (hrefl : ∀ r, R r r) {t : Table key} {r r' x : ρ} {k i : κ}
    (hr : t.get? k = some r) (hk : key r' = k) (hmove : R r r') (hx : t.get? i = some x) :
    ∃ x', (t.put r').get? i = some x' ∧ R x x' := by
  by_cases hi : i = k
  · obtain rfl : r = x := Option.some.inj (hr.symm.trans (hi ▸ hx))
    exact ⟨r', by rw [hi, ← hk]; exact get?_put_self _ _, hmove⟩
  · exact ⟨x, (get?_put_ne (by rwa [hk])).trans hx, hrefl x⟩

/-- Storing a row over one that is there adds none. -/
theorem exists_of_get?_put {t : Table key} {r r' x : ρ} {k i : κ} (hx : (t.put r').get? i = some x)
    (hr : t.get? k = some r) (hk : key r' = k) : ∃ y, t.get? i = some y := by
  rcases eq_or_of_get?_put hx with ⟨rfl, -⟩ | ⟨-, hx⟩
  · exact ⟨r, hk ▸ hr⟩
  · exact ⟨x, hx⟩

/-- Storing a row that is not, and is not over one that is, of a kind changes none of that kind. -/
theorem get?_put_iff_of_not {P : ρ → Prop} {t : Table key} {r x : ρ} {k : κ} (hr : ¬ P r)
    (hold : ∀ y, t.get? (key r) = some y → ¬ P y) (hx : P x) :
    (t.put r).get? k = some x ↔ t.get? k = some x := by
  by_cases hk : k = key r
  · subst hk
    rw [get?_put_self]
    constructor
    · rintro ⟨⟩
      exact absurd hx hr
    · intro h
      exact absurd hx (hold x h)
  · rw [get?_put_ne hk]

/-- Storing a row of another kind under a new key changes none of a kind. -/
theorem get?_put_iff_of_fresh {P : ρ → Prop} {t : Table key} {r x : ρ} {k : κ} (h : t.get? (key r) = none)
    (hr : ¬ P r) (hx : P x) : (t.put r).get? k = some x ↔ t.get? k = some x := by
  refine get?_put_iff_of_not hr (fun y hy => ?_) hx
  rw [h] at hy
  cases hy

/-- Storing a row of another kind over one of another kind changes none of a kind. -/
theorem get?_put_iff_of_move {P : ρ → Prop} {t : Table key} {r r' x : ρ} {k i : κ} (h : t.get? k = some r)
    (hk : key r' = k) (hr : ¬ P r) (hr' : ¬ P r') (hx : P x) :
    (t.put r').get? i = some x ↔ t.get? i = some x := by
  refine get?_put_iff_of_not hr' (fun y hy => ?_) hx
  obtain rfl := Option.some.inj (h.symm.trans (hk ▸ hy))
  exact hr

/-- The last of two rows stored under one key stays. -/
theorem put_put {t : Table key} {r r' : ρ} (h : key r = key r') : (t.put r).put r' = t.put r' := by
  obtain ⟨rows, nodup⟩ := t
  have hrows : putRows key r' (putRows key r rows) = putRows key r' rows := by
    clear nodup
    induction rows with
    | nil => simp [putRows, h]
    | cons x xs ih => by_cases hx : key x = key r' <;> simp [putRows, h, hx, ih]
  simp only [put, hrows]

/-- Storing a row over one that is there changes no query that selects neither of them. -/
theorem select_put_of_not {t : Table key} {r r' : ρ} {p : ρ → Bool} {le : ρ → ρ → Prop} [DecidableRel le]
    (h : t.get? (key r') = some r) (hr : p r = false) (hr' : p r' = false) :
    (t.put r').select p le = t.select p le := by
  have hrows : ∀ rows : List ρ, (rows.find? fun y => key y = key r') = some r →
      (putRows key r' rows).filter p = rows.filter p := by
    intro rows
    induction rows with
    | nil => intro h; cases h
    | cons x xs ih =>
      intro h
      by_cases hx : key x = key r'
      · have hxr : x = r := by simpa [hx] using h
        rw [hxr] at hx ⊢
        simp [putRows, hx, hr, hr']
      · have hxs : (xs.find? fun y => key y = key r') = some r := by simpa [hx] using h
        simp only [putRows, hx, if_false, List.filter_cons, ih hxs]
  simp only [select, put, hrows t.rows h]

/-- Storing a row that is there changes nothing. -/
theorem put_eq_self {t : Table key} {r : ρ} (h : t.get? (key r) = some r) : t.put r = t := by
  have hrows : ∀ rows : List ρ, (rows.find? fun y => key y = key r) = some r → putRows key r rows = rows := by
    intro rows
    induction rows with
    | nil => simp
    | cons x xs ih =>
      intro h
      by_cases hx : key x = key r
      · obtain rfl : x = r := by simpa [hx] using h
        simp [putRows]
      · have hxs : (xs.find? fun y => key y = key r) = some r := by simpa [hx] using h
        simp only [putRows, hx, if_false, ih hxs]
  obtain ⟨rows, nodup⟩ := t
  simp only [put, hrows rows h]

/-- Change the row under `k`, where there is one and `f` says to what. -/
def modify (t : Table key) (k : κ) (f : ρ → Option ρ) : Table key :=
  match (t.get? k).bind f with
  | some r => t.put r
  | none => t

/-- **What `modify` does**, for a change that keeps keys. -/
theorem get?_modify (t : Table key) {f : ρ → Option ρ}
    (hf : ∀ r r', f r = some r' → key r' = key r) (k i : κ) :
    (t.modify k f).get? i = (t.get? i).map fun r => if i = k then (f r).getD r else r := by
  unfold modify
  cases hk : t.get? k with
  | none =>
    by_cases hi : i = k
    · simp [hi, hk]
    · simp [hi]
  | some r =>
    cases hr : f r with
    | none =>
      by_cases hi : i = k
      · simp [hi, hk, hr]
      · simp [hi, hr]
    | some r' =>
      have hkey : key r' = k := (hf r r' hr).trans (key_of_get? hk)
      by_cases hi : i = k
      · simp [hi, hk, hr, get?_put, hkey]
      · simp [hi, hr, get?_put, hkey]

/-- A row under a new key goes to the end. -/
theorem rows_put_of_fresh {t : Table key} {r : ρ} (h : t.get? (key r) = none) :
    (t.put r).rows = t.rows ++ [r] := by
  have hrows : ∀ rows : List ρ, (rows.find? fun y => key y = key r) = none →
      putRows key r rows = rows ++ [r] := by
    intro rows
    induction rows with
    | nil => simp [putRows]
    | cons x xs ih =>
      intro h
      by_cases hx : key x = key r
      · simp [hx] at h
      · have hxs : (xs.find? fun y => key y = key r) = none := by simpa [hx] using h
        simp [putRows, hx, ih hxs]
  exact hrows t.rows h

/-- Storing a row over one that is there changes a sum over the rows that pass a test by these two. -/
theorem sum_put {t : Table key} {r r' : ρ} (h : t.get? (key r') = some r) (p : ρ → Bool) (f : ρ → ℕ) :
    (((t.put r').rows.filter p).map f).sum + (if p r then f r else 0) =
      ((t.rows.filter p).map f).sum + if p r' then f r' else 0 := by
  have hrows : ∀ rows : List ρ, (rows.find? fun y => key y = key r') = some r →
      (((putRows key r' rows).filter p).map f).sum + (if p r then f r else 0) =
        ((rows.filter p).map f).sum + if p r' then f r' else 0 := by
    intro rows
    induction rows with
    | nil => simp
    | cons x xs ih =>
      intro h
      by_cases hx : key x = key r'
      · obtain rfl : x = r := by simpa [hx] using h
        simp only [putRows, hx, if_true, List.filter_cons]
        split <;> split <;> simp <;> omega
      · have hxs := ih (by simpa [hx] using h)
        simp only [putRows, hx, if_false, List.filter_cons]
        split
        · simp only [List.map_cons, List.sum_cons]
          omega
        · exact hxs
  exact hrows t.rows h

/-- Storing a row over one that is there changes how many rows pass a test by these two. -/
theorem countP_put {t : Table key} {r r' : ρ} (h : t.get? (key r') = some r) (p : ρ → Bool) :
    (t.put r').rows.countP p + (if p r then 1 else 0) = t.rows.countP p + if p r' then 1 else 0 := by
  simpa [List.countP_eq_length_filter] using sum_put h p fun _ => 1

/-- Storing a row under a new key changes how many rows pass a test by this one. -/
theorem countP_put_of_fresh {t : Table key} {r : ρ} (h : t.get? (key r) = none) (p : ρ → Bool) :
    (t.put r).rows.countP p = t.rows.countP p + if p r then 1 else 0 := by
  rw [rows_put_of_fresh h, List.countP_append, List.countP_singleton]

/-- The rows of a table under keys it has not. -/
theorem filter_new_self (t : Table key) : (t.rows.filter fun r => (t.get? (key r)).isNone) = [] := by
  rw [List.filter_eq_nil_iff]
  intro r hr
  rw [get?_of_mem hr]
  simp

/-- The one new row of a table is the one that was stored. -/
theorem filter_new_put {t : Table key} {r : ρ} (h : t.get? (key r) = none) :
    ((t.put r).rows.filter fun r => (t.get? (key r)).isNone) = [r] := by
  rw [rows_put_of_fresh h, List.filter_append, filter_new_self]
  simp [h]

/-! ### Storing many rows -/

section Many

variable {γ : Type} {f : γ → ρ} {xs : List γ} {t : Table key}

/-- Storing rows leaves every other key as it was. -/
theorem get?_foldl_put_of_notMem {k : κ} (h : k ∉ xs.map fun x => key (f x)) :
    (xs.foldl (fun t x => t.put (f x)) t).get? k = t.get? k := by
  induction xs generalizing t with
  | nil => rfl
  | cons x xs ih =>
    obtain ⟨hx, hxs⟩ := not_or.mp (List.mem_cons.not.mp h)
    rw [List.foldl_cons, ih hxs, get?_put_ne hx]

/-- Each of the rows stored, no two under one key, is found. -/
theorem get?_foldl_put_of_mem (hnodup : (xs.map fun x => key (f x)).Nodup) {x : γ} (hx : x ∈ xs) :
    (xs.foldl (fun t x => t.put (f x)) t).get? (key (f x)) = some (f x) := by
  induction xs generalizing t with
  | nil => cases hx
  | cons y xs ih =>
    obtain ⟨hy, hnodup⟩ := List.nodup_cons.mp hnodup
    rcases List.mem_cons.mp hx with rfl | hx
    · rw [List.foldl_cons, get?_foldl_put_of_notMem hy, get?_put_self]
    · rw [List.foldl_cons, ih hnodup hx]

/-- Storing rows that are there changes nothing. -/
theorem foldl_put_eq_self (h : ∀ x ∈ xs, t.get? (key (f x)) = some (f x)) :
    xs.foldl (fun t x => t.put (f x)) t = t := by
  induction xs with
  | nil => rfl
  | cons x xs ih =>
    rw [List.foldl_cons, put_eq_self (h x List.mem_cons_self)]
    exact ih fun y hy => h y (List.mem_cons_of_mem _ hy)

end Many

/-- **A loop over the rows of a query** that changes those that pass a further test changes
exactly the rows that pass both. -/
theorem get?_foldl_put_select (t : Table key) (f : ρ → ρ) (hf : ∀ r, key (f r) = key r) (p q : ρ → Bool)
    (le : ρ → ρ → Prop) [DecidableRel le] (k : κ) :
    (((t.select p le).filter q).foldl (fun t r => t.put (f r)) t).get? k =
      (t.get? k).map fun r => if p r && q r then f r else r := by
  have hkeys : (((t.select p le).filter q).map fun r => key (f r)) = ((t.select p le).filter q).map key :=
    List.map_congr_left fun r _ => hf r
  have hnodup : (((t.select p le).filter q).map fun r => key (f r)).Nodup := by
    rw [hkeys]
    exact (List.filter_sublist.map key).nodup (nodup_select t p le)
  by_cases hmem : k ∈ ((t.select p le).filter q).map key
  · obtain ⟨r, hr, rfl⟩ := List.mem_map.mp hmem
    have hpq : r ∈ t.rows ∧ (p r && q r) = true := by
      simpa [and_assoc] using hr
    rw [get?_of_mem hpq.1, Option.map_some, if_pos hpq.2, ← hf r, get?_foldl_put_of_mem hnodup hr]
  · rw [get?_foldl_put_of_notMem (hkeys ▸ hmem)]
    cases hk : t.get? k with
    | none => rfl
    | some r =>
      have hpq : (p r && q r) = false := by
        by_contra hpq
        refine hmem (List.mem_map.mpr ⟨r, ?_, key_of_get? hk⟩)
        simpa [mem_of_get? hk] using hpq
      rw [Option.map_some, if_neg (by simp [hpq])]

/-- **What `restrict` does**: a row that fails the test is no longer found. -/
theorem get?_restrict (t : Table key) (p : ρ → Bool) (k : κ) :
    (t.restrict p).get? k = (t.get? k).filter p := by
  cases h : (t.restrict p).get? k with
  | some r =>
    have hm : r ∈ t.rows ∧ p r = true := by simpa [restrict] using mem_of_get? h
    have hk : key r = k := key_of_get? h
    rw [← hk, get?_of_mem hm.1]
    simp [Option.filter, hm.2]
  | none =>
    cases h' : t.get? k with
    | none => rfl
    | some r =>
      have hk : key r = k := key_of_get? h'
      cases hp : p r with
      | false => simp [Option.filter, hp]
      | true =>
        have hm : r ∈ (t.restrict p).rows := by simpa [restrict, hp] using mem_of_get? h'
        rw [← hk, get?_of_mem hm] at h
        cases h

end Table
