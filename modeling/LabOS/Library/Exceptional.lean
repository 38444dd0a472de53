import Mathlib.Order.Defs.Unbundled

/-!
# Programs that raise and keep their effects

A Python function that raises leaves behind whatever it did to its state before
the exception. `EStateM ε σ` is that reading: a computation ends by returning a
value or by raising, and in both cases there is an end state. This module has
the small operations such programs are written with, how each of them can end
(`bind_eq_ok`, `bind_eq_error` and their companions peel a program apart one statement at a time),
and the frame rule: `Within F x s` says that `x`, however it ends from `s`, stays inside
the frame `F`, a reflexive and transitive relation between states.
-/

namespace Exceptional

open EStateM (Result)

variable {ε ε' σ α β : Type}

/-! ### Operations -/

/-- `if c: raise e`. -/
def raiseIf (c : Prop) [Decidable c] (e : ε) : EStateM ε σ Unit := if c then throw e else pure ()

/-- The value of `o`; `raise e` where there is none. -/
def orRaise (o : Option α) (e : ε) : EStateM ε σ α :=
  match o with
  | some a => pure a
  | none => throw e

/-- `if c: x`. -/
def whenever (c : Bool) (x : EStateM ε σ Unit) : EStateM ε σ Unit := if c then x else pure ()

/-- `try: x` that passes over every exception: did `x` return? -/
def tried (x : EStateM ε σ Unit) : EStateM ε σ Bool := fun s =>
  match x s with
  | .ok _ s' => .ok true s'
  | .error _ s' => .ok false s'

/-- Run a computation without effects. -/
def fromExcept (x : Except ε α) : EStateM ε σ α :=
  match x with
  | .ok a => pure a
  | .error e => throw e

/-- Run a computation on a part of the state, reached by `get` and put back by `put`. -/
def onPart {τ : Type} (get : σ → τ) (put : σ → τ → σ) (x : EStateM ε τ α) : EStateM ε σ α := fun s =>
  match x (get s) with
  | .ok a t => .ok a (put s t)
  | .error e t => .error e (put s t)

/-! ### How a program ends -/

/-- Does it return, with a value and a state that pass the test? -/
def returns (test : α → σ → Bool) : Result ε σ α → Bool
  | .ok a s => test a s
  | .error _ _ => false

/-- Does it raise, with an exception and a state that pass the test? -/
def raises (test : ε → σ → Bool) : Result ε σ α → Bool
  | .ok _ _ => false
  | .error e s => test e s

theorem returns_eq_true {test : α → σ → Bool} {r : Result ε σ α} :
    returns test r = true ↔ ∃ a s, r = .ok a s ∧ test a s = true := by
  cases r with
  | ok a s => simp [returns, and_assoc]
  | error e s => simp [returns]

theorem raises_eq_true {test : ε → σ → Bool} {r : Result ε σ α} :
    raises test r = true ↔ ∃ e s, r = .error e s ∧ test e s = true := by
  cases r with
  | ok a s => simp [raises]
  | error e s => simp [raises, and_assoc]

/-- What it returns, if it does. -/
def returned : Result ε σ α → Option α
  | .ok a _ => some a
  | .error _ _ => none

/-- The state a program ends in, whether it returns or raises. -/
def endState : Result ε σ α → σ
  | .ok _ s => s
  | .error _ s => s

theorem returned_eq_some {x : Result ε σ α} {a : α} : returned x = some a ↔ ∃ s, x = .ok a s := by
  cases x with
  | ok b s => simp [returned]
  | error e s => simp [returned]

@[simp] theorem endState_ok (a : α) (s : σ) : endState (.ok a s : Result ε σ α) = s := rfl

@[simp] theorem endState_error (e : ε) (s : σ) : endState (.error e s : Result ε σ α) = s := rfl

@[simp] theorem pure_eq_ok {a b : α} {s s' : σ} :
    (pure a : EStateM ε σ α) s = .ok b s' ↔ a = b ∧ s = s' := by
  show (Result.ok a s : Result ε σ α) = _ ↔ _
  simp

@[simp] theorem throw_eq_ok {e : ε} {a : α} {s s' : σ} :
    ¬ (throw e : EStateM ε σ α) s = .ok a s' := by
  show ¬ (Result.error e s : Result ε σ α) = _
  simp

/-- A sequence returns when its first part returns and so does the rest from there. -/
theorem bind_eq_ok {x : EStateM ε σ α} {f : α → EStateM ε σ β} {s s'' : σ} {b : β} :
    (x >>= f) s = .ok b s'' ↔ ∃ a s', x s = .ok a s' ∧ f a s' = .ok b s'' := by
  show (match x s with
    | .ok a s' => f a s'
    | .error e s' => .error e s') = _ ↔ _
  cases x s with
  | ok a s' => simp [and_assoc]
  | error e s' => simp

theorem bind_of_ok {x : EStateM ε σ α} {f : α → EStateM ε σ β} {s s' s'' : σ} {a : α} {b : β}
    (hx : x s = .ok a s') (hf : f a s' = .ok b s'') : (x >>= f) s = .ok b s'' :=
      bind_eq_ok.mpr ⟨a, s', hx, hf⟩

theorem get_run (s : σ) : (get : EStateM ε σ σ) s = .ok s s := rfl

theorem modify_run (f : σ → σ) (s : σ) : (modify f : EStateM ε σ PUnit) s = .ok ⟨⟩ (f s) := rfl

theorem throw_run (e : ε) (s : σ) : (throw e : EStateM ε σ α) s = .error e s := rfl

/-- What comes after a program that returns. -/
theorem bind_run_of_ok {x : EStateM ε σ α} {f : α → EStateM ε σ β} {s s' : σ} {a : α} (hx : x s = .ok a s') :
    (x >>= f) s = f a s' := by
  show EStateM.bind x f s = f a s'
  simp only [EStateM.bind, hx]

@[simp] theorem map_eq_ok {x : EStateM ε σ α} {f : α → β} {s s' : σ} {b : β} :
    (f <$> x) s = .ok b s' ↔ ∃ a, x s = .ok a s' ∧ f a = b := by
  show EStateM.map f x s = _ ↔ _
  unfold EStateM.map
  cases x s with
  | ok a s₁ =>
    constructor
    · intro h
      obtain ⟨rfl, rfl⟩ := Result.ok.inj h
      exact ⟨a, rfl, rfl⟩
    · rintro ⟨a', h, rfl⟩
      obtain ⟨rfl, rfl⟩ := Result.ok.inj h
      rfl
  | error e s₁ => simp

@[simp] theorem mapError_eq_ok {x : Except ε α} {f : ε → ε'} {a : α} : x.mapError f = .ok a ↔ x = .ok a := by
  cases x with
  | error e => exact ⟨fun h => (by cases h), fun h => (by cases h)⟩
  | ok b =>
    show (Except.ok b : Except ε' α) = .ok a ↔ _
    simp only [Except.ok.injEq]

/-- A function on what a program returns changes no state. -/
@[simp] theorem endState_map {x : EStateM ε σ α} {f : α → β} {s : σ} :
    endState ((f <$> x) s) = endState (x s) := by
  show endState (EStateM.map f x s) = _
  unfold EStateM.map
  cases x s <;> rfl

/-- An exception raised at the end leaves the state as it was. -/
theorem endState_bind_fromExcept {x : EStateM ε σ (Except ε α)} {f : α → β} {s : σ} :
    endState ((x >>= fun a => f <$> fromExcept a) s) = endState (x s) := by
  cases h : x s with
  | ok a s' => cases a <;> (simp only [Bind.bind, EStateM.bind, h]; rfl)
  | error e s' =>
    simp only [Bind.bind, EStateM.bind, h]
    rfl

/-- A sequence of computations without effects. -/
theorem except_bind_eq_ok {x : Except ε α} {f : α → Except ε β} {b : β} :
    (x >>= f) = .ok b ↔ ∃ a, x = .ok a ∧ f a = .ok b := by
  cases x with
  | error e => simp [Bind.bind, Except.bind]
  | ok a => simp [Bind.bind, Except.bind]

theorem except_bind_eq_error {x : Except ε α} {f : α → Except ε β} {e : ε} :
    (x >>= f) = .error e ↔ x = .error e ∨ ∃ a, x = .ok a ∧ f a = .error e := by
  cases x with
  | error e => simp [Bind.bind, Except.bind]
  | ok a => simp [Bind.bind, Except.bind]

/-- A loop of checks passes where each of them does. -/
theorem except_forM_eq_ok {l : List α} {f : α → Except ε Unit} {u : Unit} :
    l.forM f = .ok u ↔ ∀ a ∈ l, f a = .ok () := by
  induction l with
  | nil => exact iff_of_true rfl fun a ha => nomatch ha
  | cons a l ih =>
    show (f a >>= fun _ => l.forM f) = .ok u ↔ _
    rw [except_bind_eq_ok, List.forall_mem_cons]
    constructor
    · rintro ⟨_, ha, hl⟩
      exact ⟨ha, ih.mp hl⟩
    · rintro ⟨ha, hl⟩
      exact ⟨⟨⟩, ha, ih.mpr hl⟩

/-- A loop of checks raises what one of them raises. -/
theorem except_forM_eq_error {l : List α} {f : α → Except ε Unit} {e : ε} (h : l.forM f = .error e) :
    ∃ a ∈ l, f a = .error e := by
  induction l with
  | nil => cases h
  | cons a l ih =>
    have h : (f a >>= fun _ => l.forM f) = .error e := h
    rcases except_bind_eq_error.mp h with ha | ⟨_, -, hl⟩
    · exact ⟨a, List.mem_cons_self, ha⟩
    · obtain ⟨b, hb, he⟩ := ih hl
      exact ⟨b, List.mem_cons_of_mem a hb, he⟩

@[simp] theorem raiseIf_eq_ok {c : Prop} [Decidable c] {e : ε} {u : Unit} {s s' : σ} :
    (raiseIf c e : EStateM ε σ Unit) s = .ok u s' ↔ ¬ c ∧ s = s' := by
  unfold raiseIf
  split <;> simp_all

@[simp] theorem orRaise_eq_ok {o : Option α} {e : ε} {a : α} {s s' : σ} :
    (orRaise o e : EStateM ε σ α) s = .ok a s' ↔ o = some a ∧ s = s' := by
  cases o <;> simp [orRaise]

@[simp] theorem fromExcept_eq_ok {x : Except ε α} {a : α} {s s' : σ} :
    (fromExcept x : EStateM ε σ α) s = .ok a s' ↔ x = .ok a ∧ s = s' := by
  cases x <;> simp [fromExcept]

@[simp] theorem get_eq_ok {a s s' : σ} : (get : EStateM ε σ σ) s = .ok a s' ↔ s = a ∧ s = s' := by
  show (Result.ok s s : Result ε σ σ) = _ ↔ _
  simp

@[simp] theorem modify_eq_ok {f : σ → σ} {u : Unit} {s s' : σ} :
    (modify f : EStateM ε σ Unit) s = .ok u s' ↔ f s = s' := by
  show (Result.ok () (f s) : Result ε σ Unit) = _ ↔ _
  simp

/-- A call whose exceptions are passed over always returns. -/
theorem tried_eq_ok {x : EStateM ε σ Unit} {done : Bool} {s s' : σ} :
    tried x s = .ok done s' ↔ (done = true ∧ x s = .ok () s') ∨ (done = false ∧ ∃ e, x s = .error e s') := by
  unfold tried
  cases x s with
  | ok u s₁ => cases done <;> simp
  | error e s₁ => cases done <;> simp

theorem whenever_eq_ok {c : Bool} {x : EStateM ε σ Unit} {u : Unit} {s s' : σ} :
    (whenever c x) s = .ok u s' ↔ (c = true ∧ x s = .ok u s') ∨ (c = false ∧ s = s') := by
  cases c <;> simp [whenever]

theorem adaptExcept_eq_ok {f : ε → ε'} {x : EStateM ε σ α} {a : α} {s s' : σ} :
    (x.adaptExcept f) s = .ok a s' ↔ x s = .ok a s' := by
  unfold EStateM.adaptExcept
  cases x s <;> simp

theorem onPart_eq_ok {τ : Type} {get : σ → τ} {put : σ → τ → σ} {x : EStateM ε τ α} {a : α} {s s' : σ} :
    onPart get put x s = .ok a s' ↔ ∃ t, x (get s) = .ok a t ∧ put s t = s' := by
  unfold onPart
  cases x (get s) <;> simp [and_assoc]

/-- **A loop over a list** whose rounds act on the elements that pass `q` and do nothing on the
others: what is accumulated and the state it ends in are those of the elements that pass. -/
theorem foldlM_filter_eq {γ : Type} {round : γ → α → EStateM ε σ γ} {q : α → Bool} (acc : γ → List α → γ)
    (state : σ → List α → σ) (hacc : ∀ c, acc c [] = c) (hacc' : ∀ c a l, acc (acc c [a]) l = acc c (a :: l))
    (hstate : ∀ s, state s [] = s) (hstate' : ∀ s a l, state (state s [a]) l = state s (a :: l))
    (hact : ∀ c a s, q a = true → round c a s = .ok (acc c [a]) (state s [a]))
    (hskip : ∀ c a s, q a = false → round c a s = .ok c s) (l : List α) (c : γ) (s : σ) :
    l.foldlM round c s = .ok (acc c (l.filter q)) (state s (l.filter q)) := by
  induction l generalizing c s with
  | nil =>
    rw [List.filter_nil, hacc, hstate]
    rfl
  | cons a l ih =>
    apply bind_eq_ok.mpr
    cases hq : q a with
    | true =>
      refine ⟨acc c [a], state s [a], hact c a s hq, ?_⟩
      rw [ih, List.filter_cons_of_pos hq, hacc', hstate']
    | false =>
      refine ⟨c, s, hskip c a s hq, ?_⟩
      rw [ih, List.filter_cons_of_neg (by simp [hq])]

/-- **A loop relates the states its rounds relate**, for a relation that is reflexive and transitive. A round may
rely on what `Q` says of its element, as long as no round of another element takes that away. -/
theorem foldlM_relates_of {γ : Type} {R : σ → σ → Prop} {Q : σ → α → Prop} {D : α → α → Prop}
    (hrefl : ∀ s, R s s) (htrans : ∀ {s₁ s₂ s₃}, R s₁ s₂ → R s₂ s₃ → R s₁ s₃) {round : γ → α → EStateM ε σ γ}
    (hround : ∀ c c' a s s', Q s a → round c a s = .ok c' s' → R s s' ∧ ∀ b, D a b → Q s b → Q s' b)
    {l : List α} (hl : l.Pairwise D) {c c' : γ} {s s' : σ} (hQ : ∀ a ∈ l, Q s a)
    (h : l.foldlM round c s = .ok c' s') : R s s' := by
  induction l generalizing c s with
  | nil =>
    obtain ⟨-, rfl⟩ := pure_eq_ok.mp h
    exact hrefl s
  | cons a l ih =>
    obtain ⟨c₁, s₁, hfirst, hrest⟩ := bind_eq_ok.mp h
    obtain ⟨hapart, hl⟩ := List.pairwise_cons.mp hl
    obtain ⟨hstep, hkeeps⟩ := hround _ _ _ _ _ (hQ a List.mem_cons_self) hfirst
    exact htrans hstep (ih hl (fun b hb => hkeeps b (hapart b hb) (hQ b (List.mem_cons_of_mem _ hb))) hrest)

theorem foldlM_relates {γ : Type} {R : σ → σ → Prop} (hrefl : ∀ s, R s s)
    (htrans : ∀ {s₁ s₂ s₃}, R s₁ s₂ → R s₂ s₃ → R s₁ s₃) {round : γ → α → EStateM ε σ γ}
    (hround : ∀ c c' a s s', round c a s = .ok c' s' → R s s') {l : List α} {c c' : γ} {s s' : σ}
    (h : l.foldlM round c s = .ok c' s') : R s s' :=
  foldlM_relates_of (Q := fun _ _ => True) (D := fun _ _ => True) hrefl htrans
    (fun _ _ _ _ _ _ hok => ⟨hround _ _ _ _ _ hok, fun _ _ _ => trivial⟩)
    (List.pairwise_of_forall fun _ _ => trivial) (fun _ _ => trivial) h

/-- A loop over one list after another. -/
theorem forM_append_eq (l l' : List α) (f : α → EStateM ε σ PUnit) :
    (l ++ l').forM f = (l.forM f >>= fun _ => l'.forM f) :=
  List.forM_append

/-- A loop over one element. -/
theorem forM_singleton_eq (a : α) (f : α → EStateM ε σ PUnit) : [a].forM f = f a := by
  show (f a >>= fun _ => pure ⟨⟩) = f a
  simp

/-- A loop of which no round does anything. -/
theorem forM_run_self {l : List α} {f : α → EStateM ε σ PUnit} {s : σ} (h : ∀ a ∈ l, f a s = .ok ⟨⟩ s) :
    l.forM f s = .ok ⟨⟩ s := by
  induction l with
  | nil => rfl
  | cons a l ih =>
    show (f a >>= fun _ => l.forM f) s = _
    rw [bind_run_of_ok (h a List.mem_cons_self)]
    exact ih fun b hb => h b (List.mem_cons_of_mem _ hb)

/-! ### How a program raises -/

/-- A sequence raises when its first part does, or returns and the rest raises from there. -/
theorem bind_eq_error {x : EStateM ε σ α} {f : α → EStateM ε σ β} {e : ε} {s s'' : σ} :
    (x >>= f) s = .error e s'' ↔ x s = .error e s'' ∨ ∃ a s', x s = .ok a s' ∧ f a s' = .error e s'' := by
  show (match x s with
    | .ok a s' => f a s'
    | .error e s' => .error e s') = _ ↔ _
  cases x s with
  | ok a s' => simp [and_assoc]
  | error e s' => simp

@[simp] theorem pure_eq_error {a : α} {e : ε} {s s' : σ} : ¬ (pure a : EStateM ε σ α) s = .error e s' := by
  show ¬ (Result.ok a s : Result ε σ α) = _
  simp

@[simp] theorem throw_eq_error {e e' : ε} {s s' : σ} :
    (throw e : EStateM ε σ α) s = .error e' s' ↔ e = e' ∧ s = s' := by
  show (Result.error e s : Result ε σ α) = _ ↔ _
  simp

@[simp] theorem get_eq_error {e : ε} {s s' : σ} : ¬ (get : EStateM ε σ σ) s = .error e s' := by
  show ¬ (Result.ok s s : Result ε σ σ) = _
  simp

@[simp] theorem modify_eq_error {f : σ → σ} {e : ε} {s s' : σ} :
    ¬ (modify f : EStateM ε σ Unit) s = .error e s' := by
  show ¬ (Result.ok () (f s) : Result ε σ Unit) = _
  simp

@[simp] theorem raiseIf_eq_error {c : Prop} [Decidable c] {e e' : ε} {s s' : σ} :
    (raiseIf c e : EStateM ε σ Unit) s = .error e' s' ↔ c ∧ e = e' ∧ s = s' := by
  unfold raiseIf
  split <;> simp_all

@[simp] theorem orRaise_eq_error {o : Option α} {e e' : ε} {s s' : σ} :
    (orRaise o e : EStateM ε σ α) s = .error e' s' ↔ o = none ∧ e = e' ∧ s = s' := by
  cases o <;> simp [orRaise]

@[simp] theorem fromExcept_eq_error {x : Except ε α} {e : ε} {s s' : σ} :
    (fromExcept x : EStateM ε σ α) s = .error e s' ↔ x = .error e ∧ s = s' := by
  cases x <;> simp [fromExcept]

theorem whenever_eq_error {c : Bool} {x : EStateM ε σ Unit} {e : ε} {s s' : σ} :
    (whenever c x) s = .error e s' ↔ c = true ∧ x s = .error e s' := by
  cases c <;> simp [whenever]

@[simp] theorem map_eq_error {x : EStateM ε σ α} {f : α → β} {e : ε} {s s' : σ} :
    (f <$> x) s = .error e s' ↔ x s = .error e s' := by
  show EStateM.map f x s = _ ↔ _
  unfold EStateM.map
  cases x s <;> simp

theorem adaptExcept_eq_error {f : ε → ε'} {x : EStateM ε σ α} {e' : ε'} {s s' : σ} :
    (x.adaptExcept f) s = .error e' s' ↔ ∃ e, x s = .error e s' ∧ f e = e' := by
  unfold EStateM.adaptExcept
  cases x s with
  | ok a s₁ => simp
  | error e s₁ =>
    simp only [Result.error.injEq]
    exact ⟨fun ⟨h, h'⟩ => ⟨e, ⟨rfl, h'⟩, h⟩, fun ⟨_, ⟨h, h'⟩, h''⟩ => ⟨h ▸ h'', h'⟩⟩

theorem onPart_eq_error {τ : Type} {get : σ → τ} {put : σ → τ → σ} {x : EStateM ε τ α} {e : ε} {s s' : σ} :
    onPart get put x s = .error e s' ↔ ∃ t, x (get s) = .error e t ∧ put s t = s' := by
  unfold onPart
  cases x (get s) <;> simp [and_assoc]

/-- What holds wherever a program raises, for one that raises. -/
theorem forall_error_iff {x : EStateM ε σ α} {e : ε} {s s' : σ} (h : x s = .error e s') (P : σ → Prop) :
    (∀ e' s'', x s = .error e' s'' → P s'') ↔ P s' := by
  rw [h]
  constructor
  · exact fun hall => hall e s' rfl
  · rintro hP _ _ ⟨⟩
    exact hP

/-- What holds wherever a program raises, for one that returns. -/
theorem forall_error_of_ok {x : EStateM ε σ α} {a : α} {s s' : σ} (h : x s = .ok a s') (P : σ → Prop) :
    ∀ e' s'', x s = .error e' s'' → P s'' := by
  rw [h]
  rintro _ _ ⟨⟩

/-! ### Frames -/

/-- What may happen to the state, over any number of steps. -/
structure Frame (σ : Type) where
  /-- The relation between the state before and the state after. -/
  rel : σ → σ → Prop
  /-- Nothing happened. -/
  refl : ∀ s, rel s s
  /-- One thing after another. -/
  trans : ∀ {s t u}, rel s t → rel t u → rel s u

/-- The frame of programs that change nothing. -/
def unchanged : Frame σ where
  rel s s' := s = s'
  refl _ := rfl
  trans h h' := h.trans h'

/-- However `x` ends from `s`, the frame relates `s` to the state it ends in. -/
def Within (F : Frame σ) (x : EStateM ε σ α) (s : σ) : Prop := F.rel s (endState (x s))

namespace Within

variable {F G : Frame σ} {s : σ}

theorem pure (a : α) : Within F (Pure.pure a : EStateM ε σ α) s := F.refl s

theorem throw (e : ε) : Within F (MonadExcept.throw e : EStateM ε σ α) s := F.refl s

/-- A program that returns has stayed in the frame. -/
theorem of_ok {x : EStateM ε σ α} (hx : Within F x s) {s' : σ} {a : α} (h : x s = .ok a s') : F.rel s s' := by
  unfold Within at hx
  rwa [h] at hx

/-- A program that raises has stayed in the frame. -/
theorem of_error {x : EStateM ε σ α} (hx : Within F x s) {s' : σ} {e : ε} (h : x s = .error e s') :
    F.rel s s' := by
  unfold Within at hx
  rwa [h] at hx

/-- A sequence stays in the frame when its first part does, and the rest does from
every state the first part returns in. -/
theorem bind {x : EStateM ε σ α} {f : α → EStateM ε σ β} (hx : Within F x s)
    (hf : ∀ a s', x s = .ok a s' → F.rel s s' → Within F (f a) s') : Within F (x >>= f) s := by
  show F.rel s (endState (match x s with
    | .ok a s' => f a s'
    | .error e s' => .error e s'))
  cases hs : x s with
  | ok a s' =>
    have hrel := hx.of_ok hs
    exact F.trans hrel (hf a s' hs hrel)
  | error e s' =>
    unfold Within at hx
    rwa [hs] at hx

theorem raiseIf (c : Prop) [Decidable c] (e : ε) : Within F (Exceptional.raiseIf c e) s := by
  unfold Exceptional.raiseIf
  split
  · exact throw e
  · exact pure ()

theorem orRaise (o : Option α) (e : ε) : Within F (Exceptional.orRaise o e) s := by
  cases o with
  | none => exact throw e
  | some a => exact pure a

theorem fromExcept (x : Except ε α) : Within F (Exceptional.fromExcept x) s := by
  cases x with
  | error e => exact throw e
  | ok a => exact pure a

theorem tried {x : EStateM ε σ Unit} (hx : Within F x s) : Within F (Exceptional.tried x) s := by
  unfold Within Exceptional.tried
  unfold Within at hx
  cases h : x s with
  | ok u s' => rwa [h] at hx
  | error e s' => rwa [h] at hx

theorem whenever {c : Bool} {x : EStateM ε σ Unit} (hx : c = true → Within F x s) :
    Within F (Exceptional.whenever c x) s := by
  cases c with
  | true => exact hx rfl
  | false => exact pure ()

theorem adaptExcept {f : ε → ε'} {x : EStateM ε σ α} (hx : Within F x s) : Within F (x.adaptExcept f) s := by
  unfold Within at hx ⊢
  unfold EStateM.adaptExcept
  cases hs : x s <;> (rw [hs] at hx; exact hx)

theorem get : Within F (MonadState.get : EStateM ε σ σ) s := F.refl s

/-- A loop over a list stays in the frame when each round does, from any state the
rounds before it lead to; `I` is what these rounds keep. -/
theorem forM {l : List α} {f : α → EStateM ε σ PUnit} (I : σ → Prop) (hs : I s)
    (hf : ∀ a ∈ l, ∀ s, I s → Within F (f a) s) (hI : ∀ a ∈ l, ∀ s s' u, I s → f a s = .ok u s' → I s') :
    Within F (l.forM f) s := by
  induction l generalizing s with
  | nil => exact pure _
  | cons a l ih =>
    show Within F (f a >>= fun _ => l.forM f) s
    refine bind (hf a List.mem_cons_self s hs) fun u s' h _ => ih (hI a List.mem_cons_self s s' u hs h) ?_ ?_
    · exact fun b hb => hf b (List.mem_cons_of_mem _ hb)
    · exact fun b hb => hI b (List.mem_cons_of_mem _ hb)

/-- A loop with an accumulator stays in the frame when each round does. -/
theorem foldlM {γ : Type} {l : List α} {f : γ → α → EStateM ε σ γ} {c : γ}
    (hf : ∀ a ∈ l, ∀ c s, Within F (f c a) s) :
    Within F (l.foldlM f c) s := by
  induction l generalizing c s with
  | nil => exact pure _
  | cons a l ih =>
    show Within F (f c a >>= fun c' => l.foldlM f c') s
    exact bind (hf a List.mem_cons_self c s) fun _ _ _ _ => ih fun b hb => hf b (List.mem_cons_of_mem _ hb)

theorem map {x : EStateM ε σ α} {f : α → β} (hx : Within F x s) : Within F (f <$> x) s := by
  unfold Within at hx ⊢
  rwa [endState_map]

/-- A larger frame is a weaker statement. -/
theorem mono {x : EStateM ε σ α} (hx : Within F x s) (h : ∀ s', F.rel s s' → G.rel s s') :
    Within G x s := h _ hx

end Within

end Exceptional
