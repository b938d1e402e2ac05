import HostServices.Lib.Utf8

/-!
# Codes over the bytes of a name

Names that other programs have to find are escaped byte by byte. An escaped name can be
read back when no code word is the beginning of another.

- `PrefixCode`: such a code, and `PrefixCode.flatMap_injective`;
- `isAsciiLetter`, `isAsciiDigit`: the bytes that such codes keep;
- `byteChar`, `hexByte`: a byte as its character, and as two hexadecimal digits.
-/

namespace HostServices.Lib

/-! ## Prefix codes -/

/-- Where a code word ends does not depend on what follows it. -/
structure PrefixCode {α β : Type} (f : α → List β) : Prop where
  ne_nil : ∀ a, f a ≠ []
  append_inj : ∀ {a b : α} {s t : List β}, f a ++ s = f b ++ t → a = b ∧ s = t

/-- A prefix code can be decoded. -/
theorem PrefixCode.flatMap_injective {α β : Type} {f : α → List β} (h : PrefixCode f) :
    Function.Injective fun l : List α => l.flatMap f := by
  intro l l' heq
  dsimp only at heq
  induction l generalizing l' with
  | nil =>
    cases l' with
    | nil => rfl
    | cons b l' =>
      rw [List.flatMap_nil, List.flatMap_cons] at heq
      exact absurd (List.append_eq_nil_iff.mp heq.symm).1 (h.ne_nil b)
  | cons a l ih =>
    cases l' with
    | nil =>
      rw [List.flatMap_nil, List.flatMap_cons] at heq
      exact absurd (List.append_eq_nil_iff.mp heq).1 (h.ne_nil a)
    | cons b l' =>
      rw [List.flatMap_cons, List.flatMap_cons] at heq
      obtain ⟨rfl, hrest⟩ := h.append_inj heq
      rw [ih hrest]

/-! ## Bytes -/

/-- An ASCII digit. -/
def isAsciiDigit (b : UInt8) : Bool := 0x30 ≤ b && b ≤ 0x39

/-- An ASCII letter, of either case. -/
def isAsciiLetter (b : UInt8) : Bool := (0x41 ≤ b && b ≤ 0x5A) || (0x61 ≤ b && b ≤ 0x7A)

theorem not_isAsciiLetter_of_digit {b : UInt8} (h : isAsciiDigit b = true) :
    isAsciiLetter b = false := by
  rw [isAsciiDigit, Bool.and_eq_true, decide_eq_true_iff, decide_eq_true_iff,
    UInt8.le_iff_toNat_le, UInt8.le_iff_toNat_le] at h
  have hhigh : b.toNat ≤ 0x39 := h.2
  have hupper : ¬ (0x41 : UInt8) ≤ b := by
    rw [UInt8.le_iff_toNat_le]
    show ¬ 0x41 ≤ b.toNat
    omega
  have hlower : ¬ (0x61 : UInt8) ≤ b := by
    rw [UInt8.le_iff_toNat_le]
    show ¬ 0x61 ≤ b.toNat
    omega
  rw [isAsciiLetter, decide_eq_false hupper, decide_eq_false hlower, Bool.false_and,
    Bool.false_and, Bool.or_false]

/-- `byte as char`. -/
def byteChar (b : UInt8) : Char := Char.ofNat b.toNat

theorem byteChar_injective : Function.Injective byteChar := by
  intro b c h
  have htoNat := congrArg Char.toNat h
  rw [byteChar, byteChar, toNat_ofNat_byte, toNat_ofNat_byte] at htoNat
  exact UInt8.toNat_inj.mp htoNat

/-- `{byte:02x}`. -/
def hexByte (b : UInt8) : List Char :=
  [Nat.digitChar (b.toNat / 16), Nat.digitChar (b.toNat % 16)]

theorem digitChar_inj {m n : Nat} (hm : m < 16) (hn : n < 16)
    (h : Nat.digitChar m = Nat.digitChar n) : m = n := by
  have hall : ∀ i j : Fin 16, Nat.digitChar i.val = Nat.digitChar j.val → i = j := by decide
  exact congrArg Fin.val (hall ⟨m, hm⟩ ⟨n, hn⟩ h)

theorem hexByte_injective : Function.Injective hexByte := by
  intro b c h
  have hb := b.toNat_lt
  have hc := c.toNat_lt
  obtain ⟨hhigh, hrest⟩ := List.cons.inj h
  have hquot := digitChar_inj (by omega) (by omega) hhigh
  have hrem := digitChar_inj (by omega) (by omega) (List.cons.inj hrest).1
  refine UInt8.toNat_inj.mp ?_
  omega

/-- Two digits for each byte are a prefix code. -/
theorem prefixCode_hexByte : PrefixCode hexByte where
  ne_nil := fun _ => List.cons_ne_nil _ _
  append_inj := by
    intro b c s t h
    obtain ⟨hbyte, hrest⟩ := List.append_inj h rfl
    exact ⟨hexByte_injective hbyte, hrest⟩

/-- The bytes of a string determine it. -/
theorem utf8Bytes_injective : Function.Injective utf8Bytes := by
  intro s t h
  have hread := fromUtf8_utf8Bytes s
  rw [h, fromUtf8_utf8Bytes] at hread
  exact (Option.some_inj.mp hread).symm

end HostServices.Lib
