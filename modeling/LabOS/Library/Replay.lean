import LabOS.Library.Table

/-!
# Journals

A system that keeps a journal appends entries to it while it changes. `replay` reads a journal on a
view of the state: an entry changes the view, or makes no sense where it stands. A change of the
state is *explained* when the entries it appended lead from the view of the state before to that of
the state after. Being explained goes from one change to the next, so a program is explained when its
parts are, and a journal whose every change was explained is one from which the view can be read back.

Where the state is a table, a view of it is a map from keys to what is kept of a row; `add` and
`change` are what an entry may do to such a map.

## What is proved

* `replay_of_explained` — an explained change keeps a journal readable, up to the state it leads to.
* `viewOf_put` — a row stored is an entry updated.
-/

namespace Replay

variable {σ ε ν : Type}

/-- Read entries, one after another. -/
def replay (apply : ν → ε → Option ν) : ν → List ε → Option ν
  | v, [] => some v
  | v, e :: es => (apply v e).bind fun v => replay apply v es

variable {apply : ν → ε → Option ν} {log : σ → List ε} {view : σ → ν}

@[simp] theorem replay_nil (v : ν) : replay apply v [] = some v := rfl

theorem replay_cons (v : ν) (e : ε) (es : List ε) :
    replay apply v (e :: es) = (apply v e).bind fun v => replay apply v es := rfl

theorem replay_append (v : ν) (es es' : List ε) :
    replay apply v (es ++ es') = (replay apply v es).bind fun v => replay apply v es' := by
  induction es generalizing v with
  | nil => rfl
  | cons e es ih =>
    rw [List.cons_append, replay_cons, replay_cons, Option.bind_assoc]
    congr 1
    funext v
    exact ih v

/-- The entries a change appended lead from one view to the other. -/
def Explained (apply : ν → ε → Option ν) (log : σ → List ε) (view : σ → ν) (s s' : σ) : Prop :=
  ∃ es, log s' = log s ++ es ∧ replay apply (view s) es = some (view s')

theorem Explained.refl (s : σ) : Explained apply log view s s := ⟨[], by simp, rfl⟩

theorem Explained.trans {s s' s'' : σ} (h : Explained apply log view s s')
    (h' : Explained apply log view s' s'') : Explained apply log view s s'' := by
  obtain ⟨es, hlog, hes⟩ := h
  obtain ⟨es', hlog', hes'⟩ := h'
  refine ⟨es ++ es', by rw [hlog', hlog, List.append_assoc], ?_⟩
  rw [replay_append, hes]
  exact hes'

/-- **After an explained change** the journal reads as the state it led to. -/
theorem replay_of_explained {v₀ : ν} {s s' : σ} (hs : replay apply v₀ (log s) = some (view s))
    (h : Explained apply log view s s') : replay apply v₀ (log s') = some (view s') := by
  obtain ⟨es, hlog, hes⟩ := h
  rw [hlog, replay_append, hs]
  exact hes

/-! ### Views of tables -/

section Tables

variable {ρ κ γ : Type} {key : ρ → κ} [DecidableEq κ] {m : κ → Option γ} {k : κ} {x : γ}

/-- Add an entry under a new key. -/
def add (m : κ → Option γ) (k : κ) (x : γ) : Option (κ → Option γ) :=
  if (m k).isSome then none else some (Function.update m k (some x))

/-- Change the entry under a key, where it may be changed. -/
def change (m : κ → Option γ) (k : κ) (f : γ → Option γ) : Option (κ → Option γ) :=
  ((m k).bind f).map fun x => Function.update m k (some x)

/-- What is kept of the rows of a table. -/
def viewOf (t : Table key) (f : ρ → γ) : κ → Option γ := fun k => (t.get? k).map f

variable {t : Table key} {f : ρ → γ} {r : ρ}

theorem viewOf_eq_some (h : t.get? k = some r) : viewOf t f k = some (f r) := by rw [viewOf, h]; rfl

theorem viewOf_eq_none (h : t.get? k = none) : viewOf t f k = none := by rw [viewOf, h]; rfl

/-- A row stored is an entry updated. -/
@[simp] theorem viewOf_put : viewOf (t.put r) f = Function.update (viewOf t f) (key r) (some (f r)) := by
  funext k
  by_cases hk : k = key r
  · subst hk
    rw [Function.update_self, viewOf, Table.get?_put_self]
    rfl
  · rw [Function.update_of_ne hk, viewOf, viewOf, Table.get?_put_ne hk]

theorem add_eq_some (h : m k = none) : add m k x = some (Function.update m k (some x)) := by
  rw [add, h]
  rfl

theorem change_eq {g : γ → Option γ} (h : m k = some x) :
    change m k g = (g x).map fun y => Function.update m k (some y) := by
  rw [change, h]
  rfl

/-- An entry that is changed into itself. -/
theorem change_self {g : γ → Option γ} (h : m k = some x) (hg : g x = some x) : change m k g = some m := by
  rw [change_eq h, hg, Option.map_some, ← h, Function.update_eq_self]

end Tables

end Replay
