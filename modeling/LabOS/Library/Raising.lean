import LabOS.Library.Exceptional

/-!
# What a program raises

`Raising E x s` says that the program `x`, run from `s`, raises nothing but what passes `E`. Nothing is said
of where it returns: this is the contract of its exceptions alone. A sequence keeps the contract when its
first part does, and the rest does from every state the first part returns in. Where a program changes the
exceptions of another, the contract is that of the other for what its exceptions become.

`Refusing o E x s` says more of a program that first checks what it is asked: it raises what `o` says, and
where `o` says nothing, only what passes `E`. The checks of a program are computed beside it with `looking`
and `if`, one for each `orRaise` and `raiseIf` it starts with.
-/

namespace Exceptional

variable {ε ε' σ α β : Type}

/-- Whatever `x` raises from `s` passes `E`. -/
def Raising (E : ε → Prop) (x : EStateM ε σ α) (s : σ) : Prop := ∀ e s', x s = .error e s' → E e

namespace Raising

variable {E E' : ε → Prop} {s : σ}

theorem of_ok {x : EStateM ε σ α} {a : α} {s' : σ} (h : x s = .ok a s') : Raising E x s := by
  intro e s'' h'
  rw [h] at h'
  cases h'

theorem pure (a : α) : Raising E (Pure.pure a : EStateM ε σ α) s := of_ok (a := a) rfl

theorem throw {e : ε} (h : E e) : Raising E (MonadExcept.throw e : EStateM ε σ α) s := by
  intro e' s' h'
  obtain ⟨rfl, -⟩ := throw_eq_error.mp h'
  exact h

theorem get : Raising E (MonadState.get : EStateM ε σ σ) s := of_ok (a := s) rfl

theorem change (f : σ → σ) : Raising E (modify f : EStateM ε σ PUnit) s := of_ok (a := ⟨⟩) rfl

theorem mono {x : EStateM ε σ α} (hx : Raising E x s) (h : ∀ e, E e → E' e) : Raising E' x s :=
  fun e s' h' => h e (hx e s' h')

/-- A sequence raises what its first part raises, or what the rest raises from where that part returned. -/
theorem bind {x : EStateM ε σ α} {f : α → EStateM ε σ β} (hx : Raising E x s)
    (hf : ∀ a s', x s = .ok a s' → Raising E (f a) s') : Raising E (x >>= f) s := by
  intro e s'' h
  rcases bind_eq_error.mp h with h | ⟨a, s', ha, h⟩
  · exact hx e s'' h
  · exact hf a s' ha e s'' h

theorem map {x : EStateM ε σ α} {f : α → β} (hx : Raising E x s) : Raising E (f <$> x) s :=
  fun e s' h => hx e s' (map_eq_error.mp h)

theorem raiseIf {c : Prop} [Decidable c] {e : ε} (h : c → E e) : Raising E (Exceptional.raiseIf c e) s := by
  intro e' s' h'
  obtain ⟨hc, rfl, -⟩ := raiseIf_eq_error.mp h'
  exact h hc

theorem orRaise {o : Option α} {e : ε} (h : o = none → E e) : Raising E (Exceptional.orRaise o e) s := by
  intro e' s' h'
  obtain ⟨ho, rfl, -⟩ := orRaise_eq_error.mp h'
  exact h ho

theorem fromExcept {x : Except ε α} (h : ∀ e, x = .error e → E e) : Raising E (Exceptional.fromExcept x) s :=
  fun e _ h' => h e (fromExcept_eq_error.mp h').1

theorem whenever {c : Bool} {x : EStateM ε σ Unit} (hx : c = true → Raising E x s) :
    Raising E (Exceptional.whenever c x) s := by
  intro e s' h
  obtain ⟨hc, h⟩ := whenever_eq_error.mp h
  exact hx hc e s' h

/-- What a program raises under other names. -/
theorem adaptExcept {f : ε' → ε} {x : EStateM ε' σ α} (hx : Raising (fun e => E (f e)) x s) :
    Raising E (x.adaptExcept f) s := by
  intro e s' h
  obtain ⟨e', hraised, rfl⟩ := adaptExcept_eq_error.mp h
  exact hx e' s' hraised

theorem onPart {τ : Type} {get : σ → τ} {put : σ → τ → σ} {x : EStateM ε τ α} (hx : Raising E x (get s)) :
    Raising E (Exceptional.onPart get put x) s := by
  intro e s' h
  obtain ⟨t, h, -⟩ := onPart_eq_error.mp h
  exact hx e t h

/-- A loop raises what one of its rounds raises. -/
theorem forM {l : List α} {f : α → EStateM ε σ PUnit} (hf : ∀ a ∈ l, ∀ s, Raising E (f a) s) :
    Raising E (l.forM f) s := by
  induction l generalizing s with
  | nil => exact pure _
  | cons a l ih =>
    show Raising E (f a >>= fun _ => l.forM f) s
    exact bind (hf a List.mem_cons_self s) fun _ _ _ => ih fun b hb => hf b (List.mem_cons_of_mem _ hb)

theorem foldlM {γ : Type} {l : List α} {f : γ → α → EStateM ε σ γ} {c : γ}
    (hf : ∀ c, ∀ a ∈ l, ∀ s, Raising E (f c a) s) : Raising E (l.foldlM f c) s := by
  induction l generalizing c s with
  | nil => exact pure _
  | cons a l ih =>
    rw [List.foldlM_cons]
    exact bind (hf c a List.mem_cons_self s) fun _ _ _ => ih fun c b hb => hf c b (List.mem_cons_of_mem _ hb)

end Raising

/-! ### Programs that check first -/

/-- The refusal of a program that looks something up and goes on with what it finds. -/
def looking (found : Option α) (missing : ε) (checks : α → Option ε) : Option ε :=
  match found with
  | none => some missing
  | some a => checks a

/-- `x` raises what `o` says, and where it says nothing, only what passes `E`. -/
def Refusing (o : Option ε) (E : ε → Prop) (x : EStateM ε σ α) (s : σ) : Prop :=
  match o with
  | some e => ∃ s', x s = .error e s'
  | none => Raising E x s

theorem map_looking {found : Option α} {missing : ε} {checks : α → Option ε} (f : ε → ε') :
    (looking found missing checks).map f = looking found (f missing) fun a => (checks a).map f := by
  cases found <;> rfl

namespace Refusing

variable {o : Option ε} {E : ε → Prop} {s s' : σ}

theorem of_raising {x : EStateM ε σ α} (h : Raising E x s) : Refusing none E x s := h

/-- A program that looks something up first. -/
theorem orRaise_bind {found : Option α} {missing : ε} {checks : α → Option ε} {f : α → EStateM ε σ β}
    (h : ∀ a, found = some a → Refusing (checks a) E (f a) s) :
    Refusing (looking found missing checks) E (orRaise found missing >>= f) s := by
  cases found with
  | none => exact ⟨s, bind_eq_error.mpr (.inl rfl)⟩
  | some a => exact h a rfl

/-- A program that makes a check first. -/
theorem raiseIf_bind {c : Prop} [Decidable c] {e : ε} {f : Unit → EStateM ε σ β}
    (h : ¬ c → Refusing o E (f ()) s) : Refusing (if c then some e else o) E (raiseIf c e >>= f) s := by
  by_cases hc : c
  · rw [if_pos hc]
    exact ⟨s, bind_eq_error.mpr (.inl (raiseIf_eq_error.mpr ⟨hc, rfl, rfl⟩))⟩
  · rw [if_neg hc]
    have hrun : (raiseIf c e >>= f) s = f () s := bind_run_of_ok (raiseIf_eq_ok.mpr ⟨hc, rfl⟩)
    unfold Refusing Raising at h ⊢
    rw [hrun]
    exact h hc

/-- What comes after a part that returns. -/
theorem bind_of_ok {x : EStateM ε σ α} {f : α → EStateM ε σ β} {a : α} (hx : x s = .ok a s')
    (h : Refusing o E (f a) s') : Refusing o E (x >>= f) s := by
  unfold Refusing Raising at h ⊢
  rwa [bind_run_of_ok hx]

/-- The checks are over after the first part. -/
theorem bind {x : EStateM ε σ α} {f : α → EStateM ε σ β} (hx : Refusing o E x s)
    (hf : ∀ a s', x s = .ok a s' → Raising E (f a) s') : Refusing o E (x >>= f) s := by
  cases o with
  | none => exact Raising.bind hx hf
  | some e =>
    obtain ⟨s', h⟩ := hx
    exact ⟨s', bind_eq_error.mpr (.inl h)⟩

theorem map {x : EStateM ε σ α} {f : α → β} (hx : Refusing o E x s) : Refusing o E (f <$> x) s := by
  cases o with
  | none => exact Raising.map hx
  | some e =>
    obtain ⟨s', h⟩ := hx
    exact ⟨s', map_eq_error.mpr h⟩

/-- What a program refuses under other names. -/
theorem adaptExcept {o : Option ε'} {f : ε' → ε} {x : EStateM ε' σ α}
    (hx : Refusing o (fun e => E (f e)) x s) : Refusing (o.map f) E (x.adaptExcept f) s := by
  cases o with
  | none => exact Raising.adaptExcept hx
  | some e =>
    obtain ⟨s', h⟩ := hx
    exact ⟨s', adaptExcept_eq_error.mpr ⟨e, h, rfl⟩⟩

theorem onPart {τ : Type} {get : σ → τ} {put : σ → τ → σ} {x : EStateM ε τ α} (hx : Refusing o E x (get s)) :
    Refusing o E (Exceptional.onPart get put x) s := by
  cases o with
  | none => exact Raising.onPart hx
  | some e =>
    obtain ⟨t, h⟩ := hx
    exact ⟨put s t, onPart_eq_error.mpr ⟨t, h, rfl⟩⟩

end Refusing

end Exceptional
