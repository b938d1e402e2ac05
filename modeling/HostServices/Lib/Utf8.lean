import Mathlib.Data.List.Basic
import Mathlib.Tactic.Common

/-!
# Strings as bytes

The bytes of a string, and what a byte string is read as when it need not be one.

- `utf8Bytes`, `fromUtf8`: a string as bytes, and back where they are one;
- `fromUtf8Lossy`: every byte string as a string, with replacement characters.
-/

namespace HostServices.Lib

/-! ## The bytes of a string -/

/-- `str::as_bytes`. -/
def utf8Bytes (s : String) : List UInt8 := s.toList.flatMap String.utf8EncodeChar

/-- `str::from_utf8`. -/
def fromUtf8 (bytes : List UInt8) : Option String := String.fromUTF8? bytes.toByteArray

theorem utf8Bytes_eq_nil {s : String} : utf8Bytes s = [] ↔ s = "" := by
  rw [utf8Bytes, List.flatMap_eq_nil_iff]
  constructor
  · intro h
    cases hs : s.toList with
    | nil => exact String.toList_eq_nil_iff.mp hs
    | cons c cs =>
      exact absurd (h c (hs ▸ List.mem_cons_self)) String.utf8EncodeChar_ne_nil
  · rintro rfl
    exact List.forall_mem_nil _

theorem utf8Bytes_append (s t : String) : utf8Bytes (s ++ t) = utf8Bytes s ++ utf8Bytes t := by
  rw [utf8Bytes, String.toList_append, List.flatMap_append, utf8Bytes, utf8Bytes]

theorem toByteArray_utf8Bytes (s : String) : (utf8Bytes s).toByteArray = s.toByteArray :=
  String.utf8Encode_toList

/-- A text is read back from its bytes. -/
theorem fromUtf8_utf8Bytes (s : String) : fromUtf8 (utf8Bytes s) = some s := by
  have hvalid : (utf8Bytes s).toByteArray.IsValidUTF8 := by
    rw [toByteArray_utf8Bytes]
    exact s.isValidUTF8
  rw [fromUtf8, String.fromUTF8?, dif_pos hvalid, Option.some_inj, ← String.toByteArray_inj]
  exact toByteArray_utf8Bytes s

/-- Bytes are a text just if they are its encoding. -/
theorem fromUtf8_eq_some {bytes : List UInt8} {s : String} :
    fromUtf8 bytes = some s ↔ utf8Bytes s = bytes := by
  constructor
  · intro h
    rw [fromUtf8, String.fromUTF8?] at h
    split_ifs at h with hvalid
    rw [← List.toByteArray_inj, toByteArray_utf8Bytes, ← Option.some.inj h]
    rfl
  · rintro rfl
    exact fromUtf8_utf8Bytes s

/-! ## Any bytes -/

/-- The character that a byte string begins with. -/
def firstChar (bytes : List UInt8) : Option Char := bytes.toByteArray.utf8DecodeChar? 0

/-- The byte continues a character that began before it. -/
def isContinuation (b : UInt8) : Bool := 0x80 ≤ b && b ≤ 0xBF

/-- The second byte may stand in a character of three bytes. -/
def secondOfThree (first second : UInt8) : Bool :=
  if first = 0xE0 then 0xA0 ≤ second && second ≤ 0xBF
  else if first = 0xED then 0x80 ≤ second && second ≤ 0x9F
  else 0xE1 ≤ first && first ≤ 0xEF && isContinuation second

/-- The second byte may stand in a character of four bytes. -/
def secondOfFour (first second : UInt8) : Bool :=
  if first = 0xF0 then 0x90 ≤ second && second ≤ 0xBF
  else if first = 0xF4 then 0x80 ≤ second && second ≤ 0x8F
  else 0xF1 ≤ first && first ≤ 0xF3 && isContinuation second

/-- The bytes that one replacement character stands for: the longest beginning of a
character, or a single byte. -/
def replacedLength : List UInt8 → Nat
  | first :: second :: third :: _ =>
    if secondOfThree first second then 2
    else if secondOfFour first second then if isContinuation third then 3 else 2
    else 1
  | [first, second] => if secondOfThree first second || secondOfFour first second then 2 else 1
  | _ => 1

/-- The characters of `from_utf8_lossy`. -/
def lossyChars : List UInt8 → List Char
  | [] => []
  | first :: rest =>
    match firstChar (first :: rest) with
    | some c => c :: lossyChars (rest.drop (c.utf8Size - 1))
    | none => Char.ofNat 0xFFFD :: lossyChars (rest.drop (replacedLength (first :: rest) - 1))
termination_by bytes => bytes.length

/-- `String::from_utf8_lossy`. -/
def fromUtf8Lossy (bytes : List UInt8) : String := String.ofList (lossyChars bytes)

/-- The first character is read back from its bytes. -/
theorem firstChar_utf8EncodeChar (c : Char) (rest : List UInt8) :
    firstChar (String.utf8EncodeChar c ++ rest) = some c := by
  rw [firstChar, List.toByteArray_append]
  exact ByteArray.utf8DecodeChar?_utf8EncodeChar_append

theorem lossyChars_utf8EncodeChar (c : Char) (rest : List UInt8) :
    lossyChars (String.utf8EncodeChar c ++ rest) = c :: lossyChars rest := by
  have hfirst := firstChar_utf8EncodeChar c rest
  have hlength := String.length_utf8EncodeChar c
  cases hbytes : String.utf8EncodeChar c with
  | nil => exact absurd hbytes String.utf8EncodeChar_ne_nil
  | cons first others =>
    rw [hbytes, List.cons_append] at hfirst
    rw [hbytes, List.length_cons] at hlength
    rw [List.cons_append, lossyChars, hfirst]
    show c :: lossyChars ((others ++ rest).drop (c.utf8Size - 1)) = _
    rw [← hlength, Nat.add_sub_cancel, List.drop_left]

/-- Text survives a lossy reading. -/
theorem lossyChars_flatMap (chars : List Char) :
    lossyChars (chars.flatMap String.utf8EncodeChar) = chars := by
  induction chars with
  | nil => rw [List.flatMap_nil, lossyChars]
  | cons c chars ih => rw [List.flatMap_cons, lossyChars_utf8EncodeChar, ih]

/-- The bytes of a string are read back. -/
theorem fromUtf8Lossy_utf8Bytes (s : String) : fromUtf8Lossy (utf8Bytes s) = s := by
  rw [fromUtf8Lossy, utf8Bytes, lossyChars_flatMap, String.ofList_toList]

/-! ## ASCII -/

theorem utf8EncodeChar_of_ascii {c : Char} (h : c.toNat < 128) :
    String.utf8EncodeChar c = [UInt8.ofNat c.toNat] := by
  have hsize : c.utf8Size = 1 := Char.utf8Size_eq_one_iff.mpr (by
    rw [UInt32.le_iff_toNat_le]
    exact Nat.le_of_lt_succ h)
  exact String.utf8EncodeChar_eq_singleton hsize

/-- The code of `b as char`. -/
theorem toNat_ofNat_byte (b : UInt8) : (Char.ofNat b.toNat).toNat = b.toNat := by
  have hb := b.toNat_lt
  have hvalid : b.toNat.isValidChar := .inl (by omega)
  rw [Char.ofNat, dif_pos hvalid]
  rfl

/-- Another character begins with a byte from `0xC0` on, and goes on with others from `0x80`
on. -/
theorem utf8EncodeChar_of_not_ascii {c : Char} (h : 128 ≤ c.toNat) :
    ∃ lead second rest, String.utf8EncodeChar c = lead :: second :: rest ∧ 0xC0 ≤ lead.toNat ∧
      ∀ b ∈ second :: rest, 0x80 ≤ b.toNat := by
  have hor : ∀ (x y : UInt8), y.toNat ≤ (x ||| y).toNat := by
    intro x y
    rw [UInt8.toNat_or]
    exact Nat.right_le_or
  have hlead : ∀ (x y : UInt8), 0xC0 ≤ y.toNat → 0xC0 ≤ (x ||| y).toNat :=
    fun x y hy => Nat.le_trans hy (hor x y)
  have hmore : ∀ x : UInt8, 0x80 ≤ (x ||| 0x80).toNat := fun x => hor x 0x80
  match hsize : c.utf8Size, c.utf8Size_pos, c.utf8Size_le_four with
  | 1, _, _ =>
    have hle := Char.utf8Size_eq_one_iff.mp hsize
    rw [UInt32.le_iff_toNat_le] at hle
    exact absurd (Nat.le_trans h hle) (by decide)
  | 2, _, _ =>
    refine ⟨_, _, _, String.utf8EncodeChar_eq_cons_cons hsize, hlead _ _ (by decide), ?_⟩
    simp only [List.mem_singleton, forall_eq]
    exact hmore _
  | 3, _, _ =>
    refine ⟨_, _, _, String.utf8EncodeChar_eq_cons_cons_cons hsize, hlead _ _ (by decide), ?_⟩
    simp only [List.mem_cons, List.not_mem_nil, or_false, forall_eq_or_imp, forall_eq]
    exact ⟨hmore _, hmore _⟩
  | 4, _, _ =>
    refine ⟨_, _, _, String.utf8EncodeChar_eq_cons_cons_cons_cons hsize, hlead _ _ (by decide),
      ?_⟩
    simp only [List.mem_cons, List.not_mem_nil, or_false, forall_eq_or_imp, forall_eq]
    exact ⟨hmore _, hmore _, hmore _⟩

/-- A byte below 128 is the last byte of a string exactly if its character is the last. -/
theorem getLast?_utf8Bytes_iff {s : String} {a : Char} (ha : a.toNat < 128) :
    (utf8Bytes s).getLast? = some (UInt8.ofNat a.toNat) ↔ s.toList.getLast? = some a := by
  rcases List.eq_nil_or_concat s.toList with hnil | ⟨front, c, hlast⟩
  · rw [utf8Bytes, hnil]
    exact iff_of_false (by simp) (by simp)
  · have hbytes : (utf8Bytes s).getLast? = (String.utf8EncodeChar c).getLast? := by
      rw [utf8Bytes, hlast, List.concat_eq_append, List.flatMap_append, List.flatMap_singleton,
        List.getLast?_append_of_ne_nil _ String.utf8EncodeChar_ne_nil]
    rw [hbytes, hlast, List.concat_eq_append, List.getLast?_concat, Option.some_inj]
    by_cases hascii : c.toNat < 128
    · rw [utf8EncodeChar_of_ascii hascii, List.getLast?_singleton, Option.some_inj]
      constructor
      · intro hbyte
        have hnat := congrArg UInt8.toNat hbyte
        rw [UInt8.toNat_ofNat_of_lt' (Nat.lt_trans hascii (by decide)),
          UInt8.toNat_ofNat_of_lt' (Nat.lt_trans ha (by decide))] at hnat
        exact Char.toNat_inj.mp hnat
      · rintro rfl
        rfl
    · obtain ⟨lead, second, rest, hencode, _, hrest⟩ :=
        utf8EncodeChar_of_not_ascii (Nat.le_of_not_lt hascii)
      refine iff_of_false (fun hsome => ?_) (fun hc => hascii (hc ▸ ha))
      rw [hencode, List.getLast?_cons_cons] at hsome
      have hhigh := hrest _ (List.mem_of_getLast? hsome)
      rw [UInt8.toNat_ofNat_of_lt' (Nat.lt_trans ha (by decide))] at hhigh
      omega

/-- Bytes below 128 are characters. -/
def asciiText (bytes : List UInt8) : String :=
  String.ofList (bytes.map fun b => Char.ofNat b.toNat)

/-- ASCII is its own encoding. -/
theorem utf8Bytes_asciiText {bytes : List UInt8} (h : ∀ b ∈ bytes, b.toNat < 128) :
    utf8Bytes (asciiText bytes) = bytes := by
  rw [utf8Bytes, asciiText, String.toList_ofList, List.flatMap_map]
  induction bytes with
  | nil => rfl
  | cons b bytes ih =>
    obtain ⟨hb, hrest⟩ := List.forall_mem_cons.mp h
    have hchar := toNat_ofNat_byte b
    rw [List.flatMap_cons, ih hrest, utf8EncodeChar_of_ascii (by omega), hchar,
      UInt8.ofNat_toNat, List.singleton_append]

/-- ASCII is text. -/
theorem fromUtf8_of_ascii {bytes : List UInt8} (h : ∀ b ∈ bytes, b.toNat < 128) :
    fromUtf8 bytes = some (asciiText bytes) :=
  fromUtf8_eq_some.mpr (utf8Bytes_asciiText h)

theorem utf8Bytes_of_ascii {s : String} (h : ∀ c ∈ s.toList, c.toNat < 128) :
    utf8Bytes s = s.toList.map fun c => UInt8.ofNat c.toNat := by
  rw [utf8Bytes]
  generalize s.toList = cs at h
  induction cs with
  | nil => rfl
  | cons c cs ih =>
    obtain ⟨hc, hrest⟩ := List.forall_mem_cons.mp h
    rw [List.flatMap_cons, utf8EncodeChar_of_ascii hc, ih hrest, List.singleton_append,
      List.map_cons]

theorem length_utf8Bytes (s : String) : (utf8Bytes s).length = s.utf8ByteSize := by
  rw [← List.size_toByteArray, toByteArray_utf8Bytes, String.size_toByteArray]

theorem length_le_utf8ByteSize (s : String) : s.toList.length ≤ s.utf8ByteSize := by
  rw [← length_utf8Bytes, utf8Bytes]
  generalize s.toList = cs
  induction cs with
  | nil => exact Nat.le_refl _
  | cons c cs ih =>
    have hpos := c.utf8Size_pos
    rw [List.flatMap_cons, List.length_append, String.length_utf8EncodeChar, List.length_cons]
    omega

end HostServices.Lib
