import Mathlib.Order.MinMax
import Mathlib.Data.Int.Order.Basic
import Mathlib.Tactic.Common

/-!
# Signed 64-bit integers as a linear order

The order of `Int64` is that of the integers its values stand for, and its `max`
and `min` are the order's. Subtraction wraps; between values that are not
negative it does not.
-/

namespace HostServices.Lib

instance int64LinearOrder : LinearOrder Int64 where
  le_refl := Int64.le_refl
  le_trans := fun _ _ _ => Int64.le_trans
  lt_iff_le_not_ge a b := by
    rw [Int64.lt_iff_toInt_lt, Int64.le_iff_toInt_le, Int64.le_iff_toInt_le]
    omega
  le_antisymm := fun _ _ => Int64.le_antisymm
  le_total := Int64.le_total
  toDecidableLE := inferInstance
  max_def _ _ := rfl
  min_def _ _ := rfl

/-- A difference of numbers that are not negative does not overflow. -/
theorem toInt_sub_of_nonneg {a b : Int64} (ha : 0 ≤ a) (hb : 0 ≤ b) :
    (a - b).toInt = a.toInt - b.toInt := by
  have ha' : 0 ≤ a.toInt := Int64.le_iff_toInt_le.mp ha
  have hb' : 0 ≤ b.toInt := Int64.le_iff_toInt_le.mp hb
  have hau := a.toInt_lt
  have hbu := b.toInt_lt
  rw [Int64.toInt_sub]
  exact Int.bmod_eq_of_le (by omega) (by omega)

end HostServices.Lib
