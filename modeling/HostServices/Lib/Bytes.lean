import Mathlib.Algebra.Group.Nat.Defs
import Mathlib.Data.List.Basic
import Mathlib.Tactic.Common

/-!
# Byte strings read by position

Slices with bounds, big-endian numbers, and the frame rule for both: what is read
below a position depends on the bytes below it only.
-/

namespace HostServices.Lib

/-- `bytes.get(lo..hi)`. -/
def slice {α : Type} (l : List α) (lo hi : Nat) : Option (List α) :=
  if lo ≤ hi ∧ hi ≤ l.length then some ((l.drop lo).take (hi - lo)) else none

/-- The number a byte string is in big-endian order. -/
def beNat (bytes : List UInt8) : Nat := bytes.foldl (fun n b => 256 * n + b.toNat) 0

/-- `u16::from_be_bytes` of the two bytes at `i`. -/
def u16At (bytes : List UInt8) (i : Nat) : UInt16 :=
  UInt16.ofNat (beNat ((bytes.drop i).take 2))

variable {α : Type}

/-- Slicing succeeds just inside the bounds. -/
theorem slice_eq_some {l b : List α} {lo hi : Nat} :
    slice l lo hi = some b ↔ lo ≤ hi ∧ hi ≤ l.length ∧ b = (l.drop lo).take (hi - lo) := by
  unfold slice
  split_ifs with h
  · constructor
    · intro hb
      cases hb
      exact ⟨h.1, h.2, rfl⟩
    · rintro ⟨-, -, rfl⟩
      rfl
  · constructor
    · intro hb
      cases hb
    · rintro ⟨h₁, h₂, -⟩
      exact absurd ⟨h₁, h₂⟩ h

theorem slice_of_le {l : List α} {lo hi : Nat} (hlo : lo ≤ hi) (hhi : hi ≤ l.length) :
    slice l lo hi = some ((l.drop lo).take (hi - lo)) :=
  slice_eq_some.mpr ⟨hlo, hhi, rfl⟩

theorem length_of_slice {l b : List α} {lo hi : Nat} (h : slice l lo hi = some b) :
    b.length = hi - lo := by
  obtain ⟨hlo, hhi, rfl⟩ := slice_eq_some.mp h
  rw [List.length_take, List.length_drop]
  omega

/-- A slice that ends at or below `n` is one of the first `n` bytes. -/
theorem slice_take {l : List α} {lo hi n : Nat} (hn : hi ≤ n) :
    slice (l.take n) lo hi = slice l lo hi := by
  unfold slice
  rw [List.length_take, List.drop_take, List.take_take]
  have hmin : min (hi - lo) (n - lo) = hi - lo := by omega
  rw [hmin]
  by_cases h : lo ≤ hi ∧ hi ≤ l.length
  · rw [if_pos h, if_pos ⟨h.1, by omega⟩]
  · rw [if_neg h, if_neg fun h' => h ⟨h'.1, by omega⟩]

/-- What stands behind the two bytes does not matter. -/
theorem u16At_take {bytes : List UInt8} {i n : Nat} (hn : i + 2 ≤ n) :
    u16At (bytes.take n) i = u16At bytes i := by
  unfold u16At
  rw [List.drop_take, List.take_take]
  have hmin : min 2 (n - i) = 2 := by omega
  rw [hmin]

theorem foldl_beNat_lt (bytes : List UInt8) (n : Nat) :
    bytes.foldl (fun n b => 256 * n + b.toNat) n < (n + 1) * 256 ^ bytes.length := by
  induction bytes generalizing n with
  | nil => simp
  | cons b bytes ih =>
    have hb := b.toNat_lt
    calc (b :: bytes).foldl (fun n b => 256 * n + b.toNat) n
        < (256 * n + b.toNat + 1) * 256 ^ bytes.length := ih (256 * n + b.toNat)
      _ ≤ ((n + 1) * 256) * 256 ^ bytes.length := Nat.mul_le_mul_right _ (by omega)
      _ = (n + 1) * 256 ^ (b :: bytes).length := by
        rw [List.length_cons, Nat.pow_succ, Nat.mul_assoc, Nat.mul_comm 256]

/-- `n` bytes write a number below `256 ^ n`. -/
theorem beNat_lt (bytes : List UInt8) : beNat bytes < 256 ^ bytes.length := by
  have := foldl_beNat_lt bytes 0
  rwa [Nat.zero_add, Nat.one_mul] at this

theorem getD_take {l : List α} {i n : Nat} (hn : i < n) (d : α) :
    (l.take n).getD i d = l.getD i d := by
  rw [List.getD_eq_getElem?_getD, List.getD_eq_getElem?_getD,
    List.getElem?_take_of_lt hn]

/-- `to_be_bytes` of a 16-bit number. -/
def u16Bytes (n : UInt16) : List UInt8 := [UInt8.ofNat (n.toNat / 256), UInt8.ofNat n.toNat]

@[simp] theorem length_u16Bytes (n : UInt16) : (u16Bytes n).length = 2 := rfl

/-- Reading past a part of known length. -/
theorem u16At_append (before bytes : List UInt8) (i : Nat) :
    u16At (before ++ bytes) (before.length + i) = u16At bytes i := by
  rw [u16At, u16At, List.drop_append, List.drop_eq_nil_of_le (by omega), List.nil_append,
    Nat.add_sub_cancel_left]

/-- Two bytes are read back. -/
theorem u16At_u16Bytes (n : UInt16) (rest : List UInt8) : u16At (u16Bytes n ++ rest) 0 = n := by
  have hn := n.toNat_lt
  have hbe : beNat ((u16Bytes n ++ rest).take 2) = n.toNat := by
    show 256 * (256 * 0 + (UInt8.ofNat (n.toNat / 256)).toNat) + (UInt8.ofNat n.toNat).toNat = _
    rw [UInt8.toNat_ofNat', UInt8.toNat_ofNat']
    omega
  rw [u16At, List.drop_zero, hbe, UInt16.ofNat_toNat]

/-- The number that stands behind `before`. -/
theorem u16At_behind {message : List UInt8} (before rest : List UInt8) {n : UInt16} {i : Nat}
    (h : message = before ++ (u16Bytes n ++ rest)) (hi : before.length = i) :
    u16At message i = n := by
  subst h hi
  exact (u16At_append before _ 0).trans (u16At_u16Bytes n rest)

/-- The part between two others, by its position. -/
theorem slice_append_middle (before body after : List α) :
    slice (before ++ (body ++ after)) before.length (before.length + body.length)
      = some body := by
  rw [slice_eq_some]
  refine ⟨by omega, ?_, ?_⟩
  · rw [List.length_append, List.length_append]
    omega
  · rw [List.drop_left, Nat.add_sub_cancel_left, List.take_left]

/-- `to_be_bytes` of a number of `width` bytes. -/
def beBytes : (width : Nat) → Nat → List UInt8
  | 0, _ => []
  | width + 1, n => beBytes width (n / 256) ++ [UInt8.ofNat n]

@[simp] theorem length_beBytes (width n : Nat) : (beBytes width n).length = width := by
  induction width generalizing n with
  | zero => rfl
  | succ width ih => rw [beBytes, List.length_append, ih, List.length_singleton]

/-- A number that fits is read back. -/
theorem beNat_beBytes {width n : Nat} (h : n < 256 ^ width) : beNat (beBytes width n) = n := by
  induction width generalizing n with
  | zero => exact (Nat.lt_one_iff.mp h).symm
  | succ width ih =>
    have hdiv : n / 256 < 256 ^ width := by
      rw [Nat.div_lt_iff_lt_mul (by omega), ← Nat.pow_succ]
      exact h
    have hfront : beNat (beBytes width (n / 256)) = n / 256 := ih hdiv
    rw [beNat] at hfront
    rw [beBytes, beNat, List.foldl_append, hfront, List.foldl_cons, List.foldl_nil,
      UInt8.toNat_ofNat']
    omega

end HostServices.Lib
