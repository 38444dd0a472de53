import Mathlib.Logic.Relation

/-!
# Runs of a system

A system takes one action after another; `step s a` is the state the action `a`
leads to from `s`. A run is a list of actions, `after s as` is where it ends, and
`Allowed ok s as` says that every action of it meets the condition `ok` in the state
it is taken in. A property of all reachable states is proved once for a step
(`after_keeps`, and `after_keeps_of` where it holds on allowed runs only).
Where a step may have an output, `lastOutput out s as` is the last one of the run.
-/

namespace Runs

variable {σ α ω : Type} {step : σ → α → σ} {ok : σ → α → Prop} {out : σ → α → Option ω}

/-- The state at the end of a run. -/
def after (step : σ → α → σ) (s : σ) (as : List α) : σ := as.foldl step s

/-- Every action of the run meets `ok` where it is taken. -/
def Allowed (step : σ → α → σ) (ok : σ → α → Prop) : σ → List α → Prop
  | _, [] => True
  | s, a :: as => ok s a ∧ Allowed step ok (step s a) as

/-- The last output of a run in which a step may have one. -/
def lastOutput (step : σ → α → σ) (out : σ → α → Option ω) : σ → List α → Option ω
  | _, [] => none
  | s, a :: as => (lastOutput step out (step s a) as).or (out s a)

/-- Whether a run is allowed can be decided when each step can. -/
def decAllowed (step : σ → α → σ) (ok : σ → α → Prop) [∀ s a, Decidable (ok s a)] :
    ∀ (s : σ) (as : List α), Decidable (Allowed step ok s as)
  | _, [] => isTrue trivial
  | s, a :: as => @instDecidableAnd _ _ _ (decAllowed step ok (step s a) as)

instance (step : σ → α → σ) (ok : σ → α → Prop) [∀ s a, Decidable (ok s a)] (s : σ) (as : List α) :
    Decidable (Allowed step ok s as) := decAllowed step ok s as

@[simp] theorem after_nil (s : σ) : after step s [] = s := rfl

@[simp] theorem after_cons (s : σ) (a : α) (as : List α) :
    after step s (a :: as) = after step (step s a) as := rfl

theorem after_append (s : σ) (as bs : List α) :
    after step s (as ++ bs) = after step (after step s as) bs := by
  simp [after]

theorem allowed_append {s : σ} {as bs : List α} :
    Allowed step ok s (as ++ bs) ↔ Allowed step ok s as ∧ Allowed step ok (after step s as) bs := by
  induction as generalizing s with
  | nil => simp [Allowed]
  | cons a as ih => simp [Allowed, ih, and_assoc]

/-- The last output of a run that goes on is that of its last step, if that has one. -/
theorem lastOutput_append_singleton (s : σ) (as : List α) (a : α) :
    lastOutput step out s (as ++ [a]) = (out (after step s as) a).or (lastOutput step out s as) := by
  induction as generalizing s with
  | nil => simp [lastOutput]
  | cons b as ih =>
    simp only [List.cons_append, lastOutput, after_cons]
    rw [ih, Option.or_assoc]

/-- A weaker condition allows more runs. -/
theorem Allowed.mono {ok' : σ → α → Prop} (h : ∀ s a, ok s a → ok' s a) {s : σ} {as : List α}
    (hs : Allowed step ok s as) : Allowed step ok' s as := by
  induction as generalizing s with
  | nil => trivial
  | cons a as ih => exact ⟨h _ _ hs.1, ih hs.2⟩

/-- A condition on the actions alone. -/
theorem allowed_of_forall {P : α → Prop} {s : σ} {as : List α} (h : ∀ a ∈ as, P a) :
    Allowed step (fun _ a => P a) s as := by
  induction as generalizing s with
  | nil => trivial
  | cons a as ih => exact ⟨h a List.mem_cons_self, ih fun b hb => h b (List.mem_cons_of_mem _ hb)⟩

/-- **What every allowed step keeps, every allowed run keeps.** -/
theorem after_keeps_of {I : σ → Prop} (hstep : ∀ s a, I s → ok s a → I (step s a)) {s : σ} {as : List α}
    (hs : I s) (hok : Allowed step ok s as) : I (after step s as) := by
  induction as generalizing s with
  | nil => exact hs
  | cons a as ih => exact ih (hstep s a hs hok.1) hok.2

/-- What every step keeps, every run keeps. -/
theorem after_keeps {I : σ → Prop} (hstep : ∀ s a, I s → I (step s a)) {s : σ} {as : List α} (hs : I s) :
    I (after step s as) := by
  induction as generalizing s with
  | nil => exact hs
  | cons a as ih => exact ih (hstep s a hs)

end Runs
