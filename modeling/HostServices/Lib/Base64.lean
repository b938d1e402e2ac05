import Mathlib.Logic.Function.Basic
import Mathlib.Tactic.IntervalCases

/-!
# Base 64, URL-safe and without padding

Three bytes are four characters of six bits each. Of what is left at the end, one byte is two
characters and two bytes are three; the bits that the last of these has too many are zero.

- `sextetOfChar`, `charOfSextet`: from a character to its bits, and back;
- `decodeBase64url`: the bytes of a text, if it is the code of any;
- `encodeBase64url`, `decode_encode`: the code of a list of bytes, which decodes to them.
-/

namespace HostServices.Lib

/-! ## Characters -/

/-- The bits that a character stands for. -/
def sextetOfChar (c : Char) : Option Nat :=
  if 'A' ≤ c ∧ c ≤ 'Z' then some (c.toNat - 65)
  else if 'a' ≤ c ∧ c ≤ 'z' then some (c.toNat - 97 + 26)
  else if '0' ≤ c ∧ c ≤ '9' then some (c.toNat - 48 + 52)
  else if c = '-' then some 62
  else if c = '_' then some 63
  else none

/-- The character of six bits. -/
def charOfSextet (i : Nat) : Char :=
  if i < 26 then Char.ofNat (65 + i)
  else if i < 52 then Char.ofNat (97 + (i - 26))
  else if i < 62 then Char.ofNat (48 + (i - 52))
  else if i = 62 then '-'
  else '_'

/-- A character is read back as its sextet. -/
theorem sextetOfChar_charOfSextet {i : Nat} (h : i < 64) :
    sextetOfChar (charOfSextet i) = some i := by
  have hall : ∀ j : Fin 64, sextetOfChar (charOfSextet j) = some j.val := by decide
  exact hall ⟨i, h⟩

/-! ## Texts -/

/-- The bytes of a text. A single character at the end, or bits that are too many and not zero,
are not the end of any code. -/
def decodeBase64url : List Char → Option (List UInt8)
  | [] => some []
  | [_] => none
  | [a, b] =>
    match sextetOfChar a, sextetOfChar b with
    | some x, some y => if y % 16 = 0 then some [UInt8.ofNat (x * 4 + y / 16)] else none
    | _, _ => none
  | [a, b, c] =>
    match sextetOfChar a, sextetOfChar b, sextetOfChar c with
    | some x, some y, some z =>
      if z % 4 = 0 then
        some [UInt8.ofNat (x * 4 + y / 16), UInt8.ofNat (y % 16 * 16 + z / 4)]
      else none
    | _, _, _ => none
  | a :: b :: c :: d :: rest =>
    match sextetOfChar a, sextetOfChar b, sextetOfChar c, sextetOfChar d with
    | some x, some y, some z, some w =>
      (decodeBase64url rest).map fun bytes =>
        UInt8.ofNat (x * 4 + y / 16) :: UInt8.ofNat (y % 16 * 16 + z / 4)
          :: UInt8.ofNat (z % 4 * 64 + w) :: bytes
    | _, _, _, _ => none

/-- The code of a list of bytes. -/
def encodeBase64url : List UInt8 → List Char
  | [] => []
  | [a] => [charOfSextet (a.toNat / 4), charOfSextet (a.toNat % 4 * 16)]
  | [a, b] =>
    [charOfSextet (a.toNat / 4), charOfSextet (a.toNat % 4 * 16 + b.toNat / 16),
      charOfSextet (b.toNat % 16 * 4)]
  | a :: b :: c :: rest =>
    charOfSextet (a.toNat / 4) :: charOfSextet (a.toNat % 4 * 16 + b.toNat / 16)
      :: charOfSextet (b.toNat % 16 * 4 + c.toNat / 64) :: charOfSextet (c.toNat % 64)
      :: encodeBase64url rest

/-! ## Reading a code -/

/-- The first byte of a group ends in the upper bits of the second character. -/
theorem ofNat_first (a : UInt8) {low : Nat} (h : low < 16) :
    UInt8.ofNat (a.toNat / 4 * 4 + (a.toNat % 4 * 16 + low) / 16) = a := by
  have hbits : a.toNat / 4 * 4 + (a.toNat % 4 * 16 + low) / 16 = a.toNat := by omega
  rw [hbits, UInt8.ofNat_toNat]

/-- The second byte is cut in its middle. -/
theorem ofNat_second (b : UInt8) (high : Nat) {low : Nat} (h : low < 4) :
    UInt8.ofNat ((high * 16 + b.toNat / 16) % 16 * 16 + (b.toNat % 16 * 4 + low) / 4) = b := by
  have hb := b.toNat_lt
  have hbits : (high * 16 + b.toNat / 16) % 16 * 16 + (b.toNat % 16 * 4 + low) / 4
      = b.toNat := by omega
  rw [hbits, UInt8.ofNat_toNat]

/-- The third byte begins in the lower bits of the third character. -/
theorem ofNat_third (c : UInt8) (high : Nat) :
    UInt8.ofNat ((high * 4 + c.toNat / 64) % 4 * 64 + c.toNat % 64) = c := by
  have hc := c.toNat_lt
  have hbits : (high * 4 + c.toNat / 64) % 4 * 64 + c.toNat % 64 = c.toNat := by omega
  rw [hbits, UInt8.ofNat_toNat]

/-- **A code decodes to its bytes.** -/
theorem decode_encode (bytes : List UInt8) :
    decodeBase64url (encodeBase64url bytes) = some bytes := by
  induction bytes using encodeBase64url.induct with
  | case1 => rfl
  | case2 a =>
    have ha := a.toNat_lt
    have hfirst := ofNat_first a (show 0 < 16 by decide)
    rw [Nat.add_zero] at hfirst
    rw [encodeBase64url, decodeBase64url, sextetOfChar_charOfSextet (by omega),
      sextetOfChar_charOfSextet (by omega)]
    simp only [Nat.mul_mod_left, if_true, hfirst]
  | case3 a b =>
    have ha := a.toNat_lt
    have hb := b.toNat_lt
    have hfirst := ofNat_first a (show b.toNat / 16 < 16 by omega)
    have hsecond := ofNat_second b (a.toNat % 4) (show 0 < 4 by decide)
    rw [Nat.add_zero] at hsecond
    rw [encodeBase64url, decodeBase64url, sextetOfChar_charOfSextet (by omega),
      sextetOfChar_charOfSextet (by omega), sextetOfChar_charOfSextet (by omega)]
    simp only [Nat.mul_mod_left, if_true, hfirst, hsecond]
  | case4 a b c rest ih =>
    have ha := a.toNat_lt
    have hb := b.toNat_lt
    have hc := c.toNat_lt
    have hfirst := ofNat_first a (show b.toNat / 16 < 16 by omega)
    have hsecond := ofNat_second b (a.toNat % 4) (show c.toNat / 64 < 4 by omega)
    have hthird := ofNat_third c (b.toNat % 16)
    rw [encodeBase64url, decodeBase64url, sextetOfChar_charOfSextet (by omega),
      sextetOfChar_charOfSextet (by omega), sextetOfChar_charOfSextet (by omega),
      sextetOfChar_charOfSextet (by omega), ih]
    simp only [Option.map_some, hfirst, hsecond, hthird]

end HostServices.Lib
