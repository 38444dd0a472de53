import Mathlib.Data.Rat.Defs

/-!
# JSON values as Python sees them

A decoded JSON value, its truth value, and when it equals a string or a number: a
Boolean is a number to Python, so that `True == 1`.
-/

/-- A decoded JSON value. -/
inductive Json where
  | null
  | bool (b : Bool)
  | int (n : ℤ)
  | float (q : ℚ)
  | str (s : String)
  | arr (items : List Json)
  | obj (fields : List (String × Json))

namespace Json

/-- `bool(v)`. -/
def truthy : Json → Bool
  | null => false
  | bool b => b
  | int n => n ≠ 0
  | float q => q ≠ 0
  | str s => s ≠ ""
  | arr items => !items.isEmpty
  | obj fields => !fields.isEmpty

/-- The number a value counts as. -/
def number? : Json → Option ℚ
  | bool b => some (if b then 1 else 0)
  | int n => some n
  | float q => some q
  | _ => none

/-- `v == s` for a string `s`. -/
def eqStr (v : Json) (s : String) : Bool :=
  match v with
  | str s' => s' = s
  | _ => false

/-- `v == n` for an integer `n`. -/
def eqInt (v : Json) (n : ℤ) : Bool := v.number? = some (n : ℚ)

/-- Can the value be put in a set? -/
def hashable : Json → Bool
  | arr _ | obj _ => false
  | _ => true

/-- `d.get(key)` on a decoded object; the last of several values of one key counts. -/
def get? (fields : List (String × Json)) (key : String) : Option Json :=
  (fields.reverse.find? fun f => f.1 = key).map Prod.snd

/-- The value of an optional text: `null` where there is none. -/
def ofOption : Option String → Json
  | some s => str s
  | none => null

end Json
