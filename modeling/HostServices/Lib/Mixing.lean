import Mathlib.Algebra.Group.Units.Basic
import Mathlib.Data.BitVec
import Mathlib.Data.Fintype.EquivFin

/-!
# Mixing the bits of a word

The steps that pseudo-random generators put together are one-to-one on the words of a width:
nothing is lost by them, and every word is the outcome for some word.

- `xorShift`: a word with itself shifted to the right on top of it;
- `xorShift_bijective`, `mul_bijective`: this step, and a product with an odd constant, which
  comes with its inverse.
-/

namespace HostServices.Lib

variable {w : Nat}

/-- `z ^ (z >> k)` -/
def xorShift (k : Nat) (z : BitVec w) : BitVec w := z ^^^ (z >>> k)

/-- Only zero is not made smaller by a shift. -/
theorem eq_zero_of_eq_shift {k : Nat} (hk : 0 < k) {z : BitVec w} (h : z = z >>> k) :
    z = 0#w := by
  have hdiv : z.toNat = z.toNat / 2 ^ k := by
    have hnat := congrArg BitVec.toNat h
    rwa [BitVec.toNat_ushiftRight, Nat.shiftRight_eq_div_pow] at hnat
  have hzero : z.toNat = 0 := by
    by_contra hne
    have hlt := Nat.div_lt_self (Nat.pos_of_ne_zero hne) (Nat.one_lt_two_pow hk.ne')
    omega
  refine BitVec.eq_of_toNat_eq ?_
  rw [hzero, BitVec.toNat_ofNat, Nat.zero_mod]

theorem xorShift_injective {k : Nat} (hk : 0 < k) :
    Function.Injective (@xorShift w k) := by
  intro y z h
  -- where `y` and `z` differ is left as it is by the shift
  rw [← BitVec.xor_eq_zero_iff]
  refine eq_zero_of_eq_shift hk ?_
  have hsame : y ^^^ (y >>> k) ^^^ (z ^^^ (z >>> k)) = 0#w := BitVec.xor_eq_zero_iff.mpr h
  rw [BitVec.ushiftRight_xor_distrib, ← BitVec.xor_eq_zero_iff, ← hsame]
  ac_rfl

/-- Shifting a word onto itself loses nothing. -/
theorem xorShift_bijective {k : Nat} (hk : 0 < k) :
    Function.Bijective (@xorShift w k) := by
  have hfinite : Finite (BitVec w) := Finite.of_injective BitVec.toFin BitVec.toFin_injective
  exact Finite.injective_iff_bijective.mp (xorShift_injective hk)

/-- Multiplying a word by something that has an inverse loses nothing. -/
theorem mul_bijective {c d : BitVec w} (h : c * d = 1) : Function.Bijective (· * c) :=
  IsUnit.isUnit_iff_mulRight_bijective.mp (IsUnit.of_mul_eq_one d h)

end HostServices.Lib
