import Mathlib.Algebra.Group.Nat.Defs
import Mathlib.Logic.Function.Iterate
import Mathlib.Tactic.Common

/-!
# Cyclic redundancy checks as shift registers

A register of `w` bits is shifted left once for every bit of the message, and the
generator polynomial is subtracted whenever a one falls out. All of it is linear in
exclusive or, so what an error does to the remainder, its syndrome, does not depend
on the message it is added to.

- `shift`, `remainder`: the register, and what it holds after a list of symbols that
  are added at its upper end;
- `remainder_error`: an error in one symbol shows up as its syndrome;
- `scan`: how far the register can be shifted without meeting a certain kind of value.
-/

namespace HostServices.Lib.Crc

variable {w : Nat}

/-- One bit: shift, and subtract the generator when a one falls out. -/
def shift (poly c : BitVec w) : BitVec w :=
  if c.msb then (c <<< 1) ^^^ poly else c <<< 1

/-- Shifting is linear. -/
theorem shift_xor (poly a b : BitVec w) :
    shift poly (a ^^^ b) = shift poly a ^^^ shift poly b := by
  unfold shift
  rw [BitVec.msb_xor, BitVec.shiftLeft_xor_distrib]
  cases a.msb <;> cases b.msb
  · simp
  · simp [BitVec.xor_assoc]
  · simp [BitVec.xor_assoc, BitVec.xor_comm poly]
  · -- the generator is subtracted on both sides, and cancels
    have hcancel : poly ^^^ (b <<< 1 ^^^ poly) = b <<< 1 := by
      rw [BitVec.xor_comm, BitVec.xor_assoc, BitVec.xor_self, BitVec.xor_zero]
    simp [BitVec.xor_assoc, hcancel]

theorem iterate_shift_xor (poly a b : BitVec w) (n : Nat) :
    (shift poly)^[n] (a ^^^ b) = (shift poly)^[n] a ^^^ (shift poly)^[n] b := by
  induction n generalizing a b with
  | zero => rfl
  | succ n ih => rw [Function.iterate_succ_apply, shift_xor, ih]; rfl

/-- The register after symbols of `bits` bits each. -/
def remainder (poly : BitVec w) (bits : Nat) (symbols : List (BitVec w)) (c : BitVec w) :
    BitVec w :=
  symbols.foldl (fun c x => (shift poly)^[bits] (c ^^^ x)) c

/-- A difference in the register is carried through the symbols that follow. -/
theorem remainder_xor (poly : BitVec w) (bits : Nat) (symbols : List (BitVec w))
    (c e : BitVec w) :
    remainder poly bits symbols (c ^^^ e)
      = remainder poly bits symbols c ^^^ (shift poly)^[bits * symbols.length] e := by
  induction symbols generalizing c e with
  | nil => rfl
  | cons x symbols ih =>
    have hmove : c ^^^ e ^^^ x = c ^^^ x ^^^ e := by
      rw [BitVec.xor_assoc, BitVec.xor_comm e, BitVec.xor_assoc]
    rw [remainder, List.foldl_cons, hmove, iterate_shift_xor]
    refine (ih _ _).trans ?_
    rw [← Function.iterate_add_apply, List.length_cons, Nat.mul_succ]
    rfl

/-- **An error in one symbol** changes the remainder by its syndrome: the error,
shifted as often as there are bits from that symbol on. -/
theorem remainder_error (poly : BitVec w) (bits : Nat) (before after : List (BitVec w))
    (x e c : BitVec w) :
    remainder poly bits (before ++ (x ^^^ e) :: after) c
      = remainder poly bits (before ++ x :: after) c
        ^^^ (shift poly)^[bits * (after.length + 1)] e := by
  rw [remainder, remainder, List.foldl_append, List.foldl_append, List.foldl_cons,
    List.foldl_cons, ← BitVec.xor_assoc, iterate_shift_xor]
  refine (remainder_xor ..).trans ?_
  rw [← Function.iterate_add_apply, Nat.mul_succ]
  rfl

/-- The remainder, looking at the register after every symbol: the same value, in a form
in which a long message can be computed with. -/
def remainderByStep (poly : BitVec w) (bits : Nat) : List (BitVec w) → BitVec w → BitVec w
  | [], c => c
  | x :: symbols, c =>
    if c.toNat < 2 ^ w then remainderByStep poly bits symbols ((shift poly)^[bits] (c ^^^ x))
    else c

/-- The remainder, one shift at a time. -/
theorem remainder_eq_byStep (poly : BitVec w) (bits : Nat) (symbols : List (BitVec w))
    (c : BitVec w) : remainder poly bits symbols c = remainderByStep poly bits symbols c := by
  induction symbols generalizing c with
  | nil => rfl
  | cons x symbols ih =>
    rw [remainderByStep, if_pos c.isLt, ← ih]
    rfl

/-- Shift `n` times, unless a value on the way is of the kind. -/
def scan (poly : BitVec w) (kind : BitVec w → Bool) : Nat → BitVec w → Option (BitVec w)
  | 0, c => some c
  | n + 1, c => if kind c then none else scan poly kind n (shift poly c)

/-- What a scan has found: nothing of the kind on the way, and the register at its end. -/
theorem scan_eq_some {poly c v : BitVec w} {kind : BitVec w → Bool} {n : Nat}
    (h : scan poly kind n c = some v) :
    (∀ m < n, kind ((shift poly)^[m] c) = false) ∧ (shift poly)^[n] c = v := by
  induction n generalizing c with
  | zero => exact ⟨fun m hm => absurd hm (Nat.not_lt_zero m), Option.some.inj h⟩
  | succ n ih =>
    rw [scan] at h
    split_ifs at h with hkind
    obtain ⟨hall, hlast⟩ := ih h
    refine ⟨fun m hm => ?_, hlast⟩
    cases m with
    | zero => exact Bool.eq_false_iff.mpr hkind
    | succ m => exact hall m (Nat.lt_of_succ_lt_succ hm)

end HostServices.Lib.Crc
