/-!
# Runs of a system

A system takes one event after the other. Which events may happen in a state is given by a
predicate: the system's own guards, or a condition under which a run is looked at.

- `Reached`: the states of all such runs;
- `Reached.invariant`: what holds initially and is kept by every step holds throughout;
- `Permitted`, `Permitted.reached`: a run that is given as a list of events;
- `Permitted.length_le`: how long a run can be.
-/

namespace HostServices.Lib

variable {σ ε : Type} {step : σ → ε → σ} {allowed : σ → ε → Prop} {init s : σ}

/-- The states that are reached from `init` by events that are allowed when they happen. -/
inductive Reached (step : σ → ε → σ) (allowed : σ → ε → Prop) (init : σ) : σ → Prop
  | start : Reached step allowed init init
  | next {s : σ} (e : ε) : Reached step allowed init s → allowed s e →
      Reached step allowed init (step s e)

/-- What holds at first and is kept by every allowed step holds of every state reached. -/
theorem Reached.invariant {P : σ → Prop} (h : Reached step allowed init s) (hinit : P init)
    (hstep : ∀ s e, P s → allowed s e → P (step s e)) : P s := by
  induction h with
  | start => exact hinit
  | next e _ he ih => exact hstep _ e ih he

/-- Allowing more reaches more. -/
theorem Reached.mono {allowed' : σ → ε → Prop} (h : Reached step allowed init s)
    (hallowed : ∀ s e, allowed s e → allowed' s e) : Reached step allowed' init s := by
  induction h with
  | start => exact .start
  | next e _ he ih => exact .next e ih (hallowed _ e he)

/-- Each of the events is allowed when its turn comes. -/
def Permitted (step : σ → ε → σ) (allowed : σ → ε → Prop) : σ → List ε → Prop
  | _, [] => True
  | s, e :: events => allowed s e ∧ Permitted step allowed (step s e) events

instance decidablePermitted [∀ s e, Decidable (allowed s e)] :
    (s : σ) → (events : List ε) → Decidable (Permitted step allowed s events)
  | _, [] => .isTrue trivial
  | s, e :: events =>
    have := decidablePermitted (step s e) events
    inferInstanceAs (Decidable (allowed s e ∧ Permitted step allowed (step s e) events))

/-- A list of allowed steps leads to a state that is reached. -/
theorem Permitted.reached {events : List ε} (h : Permitted step allowed s events)
    (hs : Reached step allowed init s) : Reached step allowed init (events.foldl step s) := by
  induction events generalizing s with
  | nil => exact hs
  | cons e events ih => exact ih h.2 (.next e hs h.1)

/-- A run is no longer than a measure that every event makes smaller. -/
theorem Permitted.length_le {measure : σ → Nat} {events : List ε}
    (hstep : ∀ s e, allowed s e → measure (step s e) < measure s)
    (h : Permitted step allowed s events) : events.length ≤ measure s := by
  induction events generalizing s with
  | nil => exact Nat.zero_le _
  | cons e events ih => exact Nat.lt_of_le_of_lt (ih h.2) (hstep s e h.1)

end HostServices.Lib
