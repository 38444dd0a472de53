import LabOS.Library.Exceptional

/-!
# Programs that do not look

A program is blind to a change of the state when it does the same after the change as before: it neither reads
nor overwrites what is changed. `Blind f x` says so of the change `f`, and has one rule for each construct of
a program, so that a handler is shown blind by going over its statements.

## What is proved

* `Blind.bind`, `Blind.reading` — the rules for what comes after a program, and for what is read.
* `Blind.foldlM` — the rule for a loop.
-/

namespace Exceptional

open EStateM (Result)

variable {ε ε' σ α β γ : Type}

/-- The result with its state changed. -/
def changing (f : σ → σ) : Result ε σ α → Result ε σ α
  | .ok a s => .ok a (f s)
  | .error e s => .error e (f s)

/-- `x` does the same after the change `f`. -/
def Blind (f : σ → σ) (x : EStateM ε σ α) : Prop := ∀ s, x (f s) = changing f (x s)

theorem endState_changing (f : σ → σ) (r : Result ε σ α) : endState (changing f r) = f (endState r) := by
  cases r with
  | ok a s => rfl
  | error e s => rfl

namespace Blind

variable {f : σ → σ} {x : EStateM ε σ α}

theorem of_ok (h : Blind f x) {s s' : σ} {a : α} (hx : x s = .ok a s') : x (f s) = .ok a (f s') := by
  rw [h s, hx]
  rfl

theorem of_error (h : Blind f x) {s s' : σ} {e : ε} (hx : x s = .error e s') : x (f s) = .error e (f s') := by
  rw [h s, hx]
  rfl

theorem pure (a : α) : Blind f (Pure.pure a : EStateM ε σ α) := fun _ => rfl

theorem throw (e : ε) : Blind f (MonadExcept.throw e : EStateM ε σ α) := fun _ => rfl

/-- **What comes after** a blind program may use what that returned. -/
theorem bind {k : α → EStateM ε σ β} (hx : Blind f x) (hk : ∀ a, Blind f (k a)) : Blind f (x >>= k) := by
  intro s
  cases h : x s with
  | ok a s' =>
    rw [bind_run_of_ok h, bind_run_of_ok (hx.of_ok h)]
    exact hk a s'
  | error e s' =>
    rw [bind_eq_error.mpr (.inl h), bind_eq_error.mpr (.inl (hx.of_error h))]
    rfl

theorem map {g : α → β} (hx : Blind f x) : Blind f (g <$> x) := by
  intro s
  show EStateM.map g x (f s) = changing f (EStateM.map g x s)
  unfold EStateM.map
  rw [hx s]
  cases x s with
  | ok a s' => rfl
  | error e s' => rfl

/-- **What is read** may be used where it is the same after the change. -/
theorem reading {k : σ → EStateM ε σ α} (hsame : ∀ s, k (f s) = k s) (hk : ∀ s, Blind f (k s)) :
    Blind f (get >>= k) := by
  intro s
  rw [bind_run_of_ok (get_run _), bind_run_of_ok (get_run _), hsame s]
  exact hk s s

/-- Two changes that commute. -/
theorem change {g : σ → σ} (h : ∀ s, g (f s) = f (g s)) : Blind f (modify g : EStateM ε σ PUnit) := by
  intro s
  rw [modify_run, modify_run, h s]
  rfl

theorem raiseIf {c : Prop} [Decidable c] {e : ε} : Blind f (Exceptional.raiseIf c e) := by
  unfold Exceptional.raiseIf
  split
  · exact throw e
  · exact pure ()

theorem orRaise {o : Option α} {e : ε} : Blind f (Exceptional.orRaise o e) := by
  cases o with
  | some a => exact pure a
  | none => exact throw e

theorem fromExcept {r : Except ε α} : Blind f (Exceptional.fromExcept r) := by
  cases r with
  | ok a => exact pure a
  | error e => exact throw e

theorem whenever {c : Bool} {x : EStateM ε σ Unit} (hx : Blind f x) : Blind f (Exceptional.whenever c x) := by
  cases c with
  | true => exact hx
  | false => exact pure ()

theorem adaptExcept {g : ε' → ε} {x : EStateM ε' σ α} (hx : Blind f x) : Blind f (x.adaptExcept g) := by
  intro s
  show EStateM.adaptExcept g x (f s) = changing f (EStateM.adaptExcept g x s)
  unfold EStateM.adaptExcept
  rw [hx s]
  cases x s with
  | ok a s' => rfl
  | error e s' => rfl

/-- A program on a part of the state that the change leaves alone. -/
theorem onPart {τ : Type} {get : σ → τ} {put : σ → τ → σ} {x : EStateM ε τ α} (hget : ∀ s, get (f s) = get s)
    (hput : ∀ s t, put (f s) t = f (put s t)) : Blind f (Exceptional.onPart get put x) := by
  intro s
  unfold Exceptional.onPart
  rw [hget s]
  cases x (get s) with
  | ok a t => exact congrArg (Result.ok a) (hput s t)
  | error e t => exact congrArg (Result.error e) (hput s t)

/-- **A loop** of blind rounds. -/
theorem foldlM {round : γ → α → EStateM ε σ γ} (h : ∀ c a, Blind f (round c a)) (l : List α) (c : γ) :
    Blind f (l.foldlM round c) := by
  induction l generalizing c with
  | nil => exact pure c
  | cons a l ih => exact (h c a).bind fun c' => ih c'

end Blind

end Exceptional
