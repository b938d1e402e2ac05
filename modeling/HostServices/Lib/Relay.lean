import Mathlib.Data.List.Basic

/-!
# Relays

Something that takes pieces off a source and gives pieces to a sink, in order: a copy loop with
its buffer, or a reliable connection with what is in flight. Only what it has given and what it
still holds is kept, so that it cannot lose, repeat or reorder anything.

- `Relay`, `Relay.taken`: what it has taken is what it has given, and then what it holds;
- `Relay.take`, `Relay.give`: one piece;
- `Relay.given_of_fed`: relays in a row.
-/

namespace HostServices.Lib

variable {α : Type*}

/-- What has been taken in and given on, and what has been taken in and is still held. -/
structure Relay (α : Type*) where
  given : List α := []
  held : List α := []
  deriving DecidableEq

namespace Relay

variable (r : Relay α)

/-- All that was taken off the source. -/
def taken : List α := r.given ++ r.held

/-- A piece is taken in. -/
def take (piece : List α) : Relay α := { r with held := r.held ++ piece }

/-- Up to `n` of what is held are given on. -/
def give (n : Nat) : Relay α where
  given := r.given ++ r.held.take n
  held := r.held.drop n

@[simp] theorem taken_take (piece : List α) : (r.take piece).taken = r.taken ++ piece :=
  (List.append_assoc _ _ _).symm

@[simp] theorem given_take (piece : List α) : (r.take piece).given = r.given := rfl

@[simp] theorem held_take (piece : List α) : (r.take piece).held = r.held ++ piece := rfl

/-- Giving takes nothing. -/
@[simp] theorem taken_give (n : Nat) : (r.give n).taken = r.taken := by
  show (r.given ++ r.held.take n) ++ r.held.drop n = r.given ++ r.held
  rw [List.append_assoc, List.take_append_drop]

@[simp] theorem given_give (n : Nat) : (r.give n).given = r.given ++ r.held.take n := rfl

@[simp] theorem held_give (n : Nat) : (r.give n).held = r.held.drop n := rfl

/-- What was given is a first part of what was taken. -/
theorem given_first : r.given <+: r.taken := List.prefix_append _ _

variable {r}

theorem given_of_held_nil (h : r.held = []) : r.given = r.taken := by
  rw [taken, h, List.append_nil]

/-- Of what one relay took, the next one gives nothing but a first part, if it is fed by it. -/
theorem given_of_fed {r r' : Relay α} (h : r'.taken <+: r.given) : r'.given <+: r.taken :=
  ((given_first r').trans h).trans (given_first r)

end Relay

end HostServices.Lib
