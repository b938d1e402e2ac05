/-!
# Computations over a state that may be cut short

An `Action` changes a state and gives a value, or stops with a reason; the state at that point
is kept. `Triple` says what holds after it, one postcondition for each way to end, and has one
rule for each way to build an action.
-/

namespace HostServices.Lib

/-- What is done on a state, and may end in an exception. -/
abbrev Action (σ ε α : Type) := ExceptT ε (StateM σ) α

variable {σ ε α β : Type}

/-- What does not look at the state. -/
def Action.lift (x : Except ε α) : Action σ ε α := fun s => (x, s)

/-- From a state with `P`, `x` gives an `a` and a state with `Q a`, or stops for a reason `e` in
a state with `E e`. -/
def Triple (P : σ → Prop) (x : Action σ ε α) (Q : α → σ → Prop) (E : ε → σ → Prop) : Prop :=
  ∀ s, P s → match x s with
    | (.ok a, s') => Q a s'
    | (.error e, s') => E e s'

namespace Triple

variable {P P' : σ → Prop} {Q Q' : α → σ → Prop} {E E' : ε → σ → Prop} {x : Action σ ε α}

/-- A triple with less assumed and more concluded holds the more. -/
theorem weaken (h : Triple P x Q E) (hP : ∀ s, P' s → P s) (hQ : ∀ a s, Q a s → Q' a s)
    (hE : ∀ e s, E e s → E' e s) : Triple P' x Q' E' := by
  intro s hs
  have hx := h s (hP s hs)
  rcases hr : x s with ⟨_ | _, s'⟩ <;> rw [hr] at hx
  · exact hE _ _ hx
  · exact hQ _ _ hx

/-- An action that gives a value and leaves the state alone. -/
theorem value {a : α} (h : ∀ s, P s → Q a s) : Triple P (pure a) Q E := h

/-- Throwing an exception ends the action. -/
theorem stop {e : ε} (h : ∀ s, P s → E e s) : Triple P (throw e) Q E := h

/-- Changing the state. -/
theorem update {f : σ → σ} {R : Unit → σ → Prop} (h : ∀ s, P s → R () (f s)) :
    Triple P (modify f) R E := h

/-- One action after another. -/
theorem bind {f : α → Action σ ε β} {R : β → σ → Prop} (hx : Triple P x Q E)
    (hf : ∀ a, Triple (Q a) (f a) R E) : Triple P (x >>= f) R E := by
  intro s hs
  have h := hx s hs
  have hrun : (x >>= f) s = match x s with
      | (.ok a, s') => f a s'
      | (.error e, s') => (.error e, s') := by
    show (match x s with | (r, s') => ExceptT.bindCont f r s') = _
    rcases x s with ⟨_ | _, s'⟩ <;> rfl
  rw [hrun]
  rcases hr : x s with ⟨e | a, s'⟩ <;> rw [hr] at h
  · exact h
  · exact hf a s' h

/-- An action that first looks at the state. -/
theorem look {f : σ → Action σ ε β} {R : β → σ → Prop}
    (h : ∀ s, P s → Triple (· = s) (f s) R E) : Triple P (get >>= f) R E :=
  fun s hs => h s hs s rfl

/-- A value that may be an exception, without a look at the state. -/
theorem lift {x : Except ε α} (hok : ∀ a, x = .ok a → ∀ s, P s → Q a s)
    (herror : ∀ e, x = .error e → ∀ s, P s → E e s) : Triple P (Action.lift x) Q E := by
  intro s hs
  cases x with
  | error e => exact herror e rfl s hs
  | ok a => exact hok a rfl s hs

end Triple

end HostServices.Lib
