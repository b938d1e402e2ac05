import Mathlib.Tactic.IntervalCases
import HostServices.Lib.Fallible
import HostServices.Lib.Utf8
import HostServices.Inverter.Parse

/-!
# What the status parsers accept (`inverter-monitoring/src/parse.rs`)

The protocol gives every field an offset and a format, and says that all other bytes are
blanks. The parsers check the length, the blanks and each field, but a decimal field is
accepted with its point anywhere, and the last bit of the second device status is not
looked at. As in the parsers, a decimal is a `Rat` where the source has an `f64`, so that two
decimals are equal here when their digits write the same number.

- `Format`, `FieldSpec`, `Grammar`: the tables of the protocol, and what fits them;
- `documentedQpigs`, `documentedQpigs2`: the values the digits stand for;
- `integer_of_fits`, `decimal_of_fits`, `fitsLoosely_of_decimal`: what the readers of a field
  accept;
- `Loose`: what the parsers accept;
- `accepts_grammar_iff`: when that is the grammar.
-/

namespace HostServices.Inverter

open HostServices.Lib

/-! ## The tables of the protocol -/

/-- `N…N`, `N…N.N…N`, or so many bits. -/
inductive Format
  | integer (width : Nat)
  | decimal (whole fraction : Nat)
  | bits (width : Nat)
  deriving DecidableEq, Repr

/-- How many bytes a field of the format takes. -/
def Format.width : Format → Nat
  | .integer width => width
  | .decimal whole fraction => whole + 1 + fraction
  | .bits width => width

/-- The byte is a digit. -/
def Digit (b : UInt8) : Prop := 0x30 ≤ b.toNat ∧ b.toNat ≤ 0x39

instance decidableDigit (b : UInt8) : Decidable (Digit b) := inferInstanceAs (Decidable (_ ∧ _))

/-- The byte is a bit. -/
def Bit (b : UInt8) : Prop := b = 0x30 ∨ b = 0x31

instance decidableBit (b : UInt8) : Decidable (Bit b) := inferInstanceAs (Decidable (_ ∨ _))

/-- The bytes have the format. -/
def Format.Fits : Format → List UInt8 → Prop
  | .integer width, bytes => bytes.length = width ∧ ∀ b ∈ bytes, Digit b
  | .decimal whole fraction, bytes => ∃ front back, bytes = front ++ 0x2E :: back ∧
      front.length = whole ∧ back.length = fraction ∧ ∀ b ∈ front ++ back, Digit b
  | .bits width, bytes => bytes.length = width ∧ ∀ b ∈ bytes, Bit b

/-- The bytes have the format, but for the place of the point. -/
def Format.FitsLoosely : Format → List UInt8 → Prop
  | .decimal whole fraction, bytes => ∃ front back, bytes = front ++ 0x2E :: back ∧
      front.length + back.length = whole + fraction ∧ ∀ b ∈ front ++ back, Digit b
  | format, bytes => format.Fits bytes

/-- There are digits in the format, and an integer of it fits an `i64`. -/
def Format.Readable : Format → Prop
  | .integer width => 0 < width ∧ width ≤ 18
  | .decimal whole fraction => 0 < whole + fraction
  | .bits _ => True

instance decidableReadable (format : Format) : Decidable format.Readable :=
  match format with
  | .integer _ => inferInstanceAs (Decidable (_ ∧ _))
  | .decimal _ _ => inferInstanceAs (Decidable (_ < _))
  | .bits _ => inferInstanceAs (Decidable True)

/-- Where a field stands, and its format. -/
structure FieldSpec where
  offset : Nat
  format : Format
  deriving DecidableEq, Repr

/-- The bytes of a field. -/
def FieldSpec.bytes (f : FieldSpec) (payload : List UInt8) : List UInt8 :=
  (payload.drop f.offset).take f.format.width

/-- The field has the byte at `i`. -/
def FieldSpec.Covers (f : FieldSpec) (i : Nat) : Prop :=
  f.offset ≤ i ∧ i < f.offset + f.format.width

instance decidableCovers (f : FieldSpec) (i : Nat) : Decidable (f.Covers i) :=
  inferInstanceAs (Decidable (_ ∧ _))

/-- Every field stands at its offset with its format, and every other byte is a blank. -/
structure Grammar (length : Nat) (table : List FieldSpec) (payload : List UInt8) : Prop where
  length_eq : payload.length = length
  fields : ∀ f ∈ table, f.format.Fits (f.bytes payload)
  blanks : ∀ i < length, (∀ f ∈ table, ¬ f.Covers i) → payload[i]? = some 0x20

/-- The fields of `QPIGS`. -/
def qpigsTable : List FieldSpec :=
  [⟨0, .decimal 3 1⟩, ⟨6, .decimal 2 1⟩, ⟨11, .decimal 3 1⟩, ⟨17, .decimal 2 1⟩,
    ⟨22, .integer 4⟩, ⟨27, .integer 4⟩, ⟨32, .integer 3⟩, ⟨36, .integer 3⟩,
    ⟨40, .decimal 2 2⟩, ⟨46, .integer 3⟩, ⟨50, .integer 3⟩, ⟨54, .integer 4⟩,
    ⟨59, .decimal 2 1⟩, ⟨64, .decimal 3 1⟩, ⟨70, .decimal 2 2⟩, ⟨76, .integer 5⟩,
    ⟨82, .bits 8⟩, ⟨91, .integer 2⟩, ⟨94, .integer 2⟩, ⟨97, .integer 5⟩, ⟨103, .bits 3⟩]

/-- The fields of `QPIGS2`. -/
def qpigs2Table : List FieldSpec := [⟨0, .decimal 2 1⟩, ⟨5, .decimal 3 1⟩, ⟨11, .integer 5⟩]

/-! ## The values the digits stand for -/

/-- The number that digits write. -/
def number (bytes : List UInt8) : Nat := bytes.foldl (fun n b => 10 * n + (b.toNat - 0x30)) 0

/-- The number that the digits of a field write. -/
def integerAt (payload : List UInt8) (offset width : Nat) : Int64 :=
  Int64.ofNat (number ((payload.drop offset).take width))

/-- The digits around the point, as tenths, hundredths and so on. -/
def decimalAt (payload : List UInt8) (offset whole fraction : Nat) : Rat :=
  mkRat (number ((payload.drop offset).take whole ++
    (payload.drop (offset + whole + 1)).take fraction)) (10 ^ fraction)

/-- The byte is the digit one. -/
def bitAt (payload : List UInt8) (offset : Nat) : Bool := payload[offset]? = some 0x31

/-- The values of the fields of `QPIGS`; the eighteenth is in steps of 10 mV. -/
def documentedQpigs (payload : List UInt8) : Qpigs :=
  { gridVoltage := decimalAt payload 0 3 1
    gridFrequency := decimalAt payload 6 2 1
    outputVoltage := decimalAt payload 11 3 1
    outputFrequency := decimalAt payload 17 2 1
    outputApparentPower := integerAt payload 22 4
    outputActivePower := integerAt payload 27 4
    outputLoadPercent := integerAt payload 32 3
    busVoltage := integerAt payload 36 3
    batteryVoltage := decimalAt payload 40 2 2
    batteryChargingCurrent := integerAt payload 46 3
    batteryCapacity := integerAt payload 50 3
    heatSinkTemperature := integerAt payload 54 4
    pv1Current := decimalAt payload 59 2 1
    pv1Voltage := decimalAt payload 64 3 1
    batteryVoltageFromScc1 := decimalAt payload 70 2 2
    batteryDischargeCurrent := integerAt payload 76 5
    batteryVoltageOffsetFansOn := mkRat (number ((payload.drop 91).take 2)) 100
    eepromVersion := integerAt payload 94 2
    pv1ChargingPower := integerAt payload 97 5
    addSbuPriorityVersion := bitAt payload 82
    configurationChanged := bitAt payload 83
    sccFirmwareUpdated := bitAt payload 84
    loadOn := bitAt payload 85
    batteryVoltageToSteadyWhileCharging := bitAt payload 86
    charging := bitAt payload 87
    chargingScc := bitAt payload 88
    chargingAc := bitAt payload 89
    floatCharge := bitAt payload 103
    switchOn := bitAt payload 104 }

/-- The values of the fields of `QPIGS2`. -/
def documentedQpigs2 (payload : List UInt8) : Qpigs2 :=
  { pv2Current := decimalAt payload 0 2 1
    pv2Voltage := decimalAt payload 5 3 1
    pv2ChargingPower := integerAt payload 11 5 }

/-! ## Fields -/

theorem Digit.lt {b : UInt8} (h : Digit b) : b.toNat < 128 := by
  unfold Digit at h
  omega

/-- A field is read as the text of its bytes. -/
theorem field_eq_ok {payload : List UInt8} {offset width : Nat} {text : String} :
    field payload offset width = .ok text ↔
      slice payload offset (offset + width) = some (utf8Bytes text) := by
  rw [field]
  cases slice payload offset (offset + width) with
  | none =>
    constructor <;>
    · intro h
      cases h
  | some bytes =>
    have hbytes : ByteArray.mk bytes.toArray = bytes.toByteArray :=
      ByteArray.ext List.data_toByteArray.symm
    have hread : String.fromUTF8? (ByteArray.mk bytes.toArray) = fromUtf8 bytes := by
      rw [hbytes, fromUtf8]
    have hiff : bytes = utf8Bytes text ↔ fromUtf8 bytes = some text := by
      rw [fromUtf8_eq_some]
      exact eq_comm
    dsimp only
    rw [hread, Option.some_inj, hiff]
    cases fromUtf8 bytes with
    | none =>
      constructor <;>
      · intro h
        cases h
    | some found => simp

/-- The bytes behind the text of a field. -/
theorem bytes_of_field {payload : List UInt8} {offset width : Nat} {text : String}
    (h : field payload offset width = .ok text) :
    (payload.drop offset).take width = utf8Bytes text ∧ text.utf8ByteSize = width := by
  have hslice := field_eq_ok.mp h
  have hlength := length_of_slice hslice
  obtain ⟨-, -, hbytes⟩ := slice_eq_some.mp hslice
  rw [Nat.add_sub_cancel_left] at hbytes hlength
  rw [length_utf8Bytes] at hlength
  exact ⟨hbytes.symm, hlength⟩

/-- A character that `is_ascii_digit`, and its byte. -/
theorem digit_of_isDigit {c : Char} (h : c.isDigit = true) :
    c.toNat < 128 ∧ Digit (UInt8.ofNat c.toNat) := by
  have hrange : 48 ≤ c.toNat ∧ c.toNat ≤ 57 := by
    simpa [Char.isDigit, UInt32.le_iff_toNat_le] using h
  refine ⟨by omega, ?_⟩
  unfold Digit
  rw [UInt8.toNat_ofNat']
  omega

/-- The character of a digit. -/
theorem Digit.char {b : UInt8} (h : Digit b) :
    (Char.ofNat b.toNat).isDigit = true ∧ toDigit 10 (Char.ofNat b.toNat) = some (b.toNat - 0x30) ∧
      Char.ofNat b.toNat ≠ '+' ∧ Char.ofNat b.toNat ≠ '-' ∧ Char.ofNat b.toNat ≠ '.' := by
  have hall : ∀ n : Fin 58, 48 ≤ n.val → (Char.ofNat n.val).isDigit = true ∧
      toDigit 10 (Char.ofNat n.val) = some (n.val - 0x30) ∧
      Char.ofNat n.val ≠ '+' ∧ Char.ofNat n.val ≠ '-' ∧ Char.ofNat n.val ≠ '.' := by
    decide +kernel
  exact hall ⟨b.toNat, Nat.lt_succ_of_le h.2⟩ h.1

theorem digits_of_digit {bytes : List UInt8} (hne : bytes ≠ []) (h : ∀ b ∈ bytes, Digit b) :
    digits (bytes.map fun b => Char.ofNat b.toNat) = some (number bytes) := by
  have hfold : ∀ n, (bytes.map fun b => Char.ofNat b.toNat).foldlM
      (fun n c => (toDigit 10 c).map (10 * n + ·)) n
        = some (bytes.foldl (fun n b => 10 * n + (b.toNat - 0x30)) n) := by
    clear hne
    induction bytes with
    | nil => intro n; rfl
    | cons b bytes ih =>
      obtain ⟨hb, hrest⟩ := List.forall_mem_cons.mp h
      intro n
      rw [List.map_cons, List.foldlM_cons, hb.char.2.1]
      exact ih hrest _
  obtain ⟨b, bytes, rfl⟩ := List.exists_cons_of_ne_nil hne
  exact hfold 0

theorem number_lt {bytes : List UInt8} (h : ∀ b ∈ bytes, Digit b) :
    number bytes < 10 ^ bytes.length := by
  have hfold : ∀ n, bytes.foldl (fun n b => 10 * n + (b.toNat - 0x30)) n
      < (n + 1) * 10 ^ bytes.length := by
    induction bytes with
    | nil => intro n; simp
    | cons b bytes ih =>
      obtain ⟨hb, hrest⟩ := List.forall_mem_cons.mp h
      have hle := hb.2
      intro n
      calc (b :: bytes).foldl (fun n b => 10 * n + (b.toNat - 0x30)) n
          < (10 * n + (b.toNat - 0x30) + 1) * 10 ^ bytes.length := ih hrest _
        _ ≤ ((n + 1) * 10) * 10 ^ bytes.length := Nat.mul_le_mul_right _ (by omega)
        _ = (n + 1) * 10 ^ (b :: bytes).length := by
          rw [List.length_cons, Nat.pow_succ, Nat.mul_assoc, Nat.mul_comm 10]
  have hlt := hfold 0
  rwa [Nat.zero_add, Nat.one_mul] at hlt

/-- A number of up to eighteen digits fits an `i64`. -/
theorem number_lt_pow {bytes : List UInt8} {width : Nat}
    (hreadable : (Format.integer width).Readable) (h : (Format.integer width).Fits bytes) :
    number bytes < 2 ^ 63 := by
  obtain ⟨rfl, hdigits⟩ := h
  obtain ⟨-, hwidth⟩ := hreadable
  calc number bytes < 10 ^ bytes.length := number_lt hdigits
    _ ≤ 10 ^ 18 := Nat.pow_le_pow_right (by decide) hwidth
    _ ≤ 2 ^ 63 := by decide

/-- The text of bytes that are digits. -/
theorem field_asciiText {payload bytes : List UInt8} {offset : Nat}
    (hbytes : (payload.drop offset).take bytes.length = bytes) (hne : 0 < bytes.length)
    (h : ∀ b ∈ bytes, b.toNat < 128) :
    field payload offset bytes.length = .ok (asciiText bytes) ∧
      (asciiText bytes).utf8ByteSize = bytes.length := by
  have htext := utf8Bytes_asciiText h
  have hsize : (asciiText bytes).utf8ByteSize = bytes.length := by
    rw [← length_utf8Bytes, htext]
  have hfits := congrArg List.length hbytes
  rw [List.length_take, List.length_drop] at hfits
  refine ⟨field_eq_ok.mpr (slice_eq_some.mpr ⟨by omega, by omega, ?_⟩), hsize⟩
  rw [Nat.add_sub_cancel_left, hbytes, htext]

/-! ## Integers and bits -/

/-- Digits are read as the number they write. -/
theorem integer_of_fits {payload : List UInt8} {offset width : Nat}
    (hreadable : (Format.integer width).Readable)
    (h : (Format.integer width).Fits ((payload.drop offset).take width)) :
    integer payload offset width = .ok (integerAt payload offset width) := by
  obtain ⟨hpos, hwidth⟩ := hreadable
  obtain ⟨hlength, hdigits⟩ := h
  rw [integerAt]
  generalize hbytes : (payload.drop offset).take width = bytes at hlength hdigits
  subst hlength
  obtain ⟨hfield, hsize⟩ := field_asciiText hbytes hpos fun b hb => (hdigits b hb).lt
  have hall : (asciiText bytes).toList.all Char.isDigit = true := by
    rw [asciiText, String.toList_ofList, List.all_map, List.all_eq_true]
    intro b hb
    exact (hdigits b hb).char.1
  have hlt : number bytes < 2 ^ 63 := number_lt_pow ⟨hpos, hwidth⟩ ⟨rfl, hdigits⟩
  have hread : parseI64 (asciiText bytes) = some (Int64.ofNat (number bytes)) := by
    have hvalue := digits_of_digit (List.ne_nil_of_length_pos hpos) hdigits
    obtain ⟨b, rest, rfl⟩ := List.exists_cons_of_length_pos hpos
    obtain ⟨-, -, hplus, hminus, -⟩ := (hdigits b List.mem_cons_self).char
    exact parseI64_of_unsigned hplus hminus hvalue hlt
  rw [integer, hfield]
  show (if _ then _ else _) = _
  rw [if_neg (by simp [hsize, hall]), hread]

/-- Nothing but digits is read as an integer. -/
theorem fits_of_integer {payload : List UInt8} {offset width : Nat} {n : Int64}
    (h : integer payload offset width = .ok n) :
    (Format.integer width).Fits ((payload.drop offset).take width) := by
  obtain ⟨text, hfield, h⟩ := bind_eq_ok.mp h
  obtain ⟨hbytes, hsize⟩ := bytes_of_field hfield
  split_ifs at h with hbad
  rw [not_or, Bool.not_eq_true, Bool.not_eq_false', List.all_eq_true] at hbad
  have hascii := utf8Bytes_of_ascii fun c hc => (digit_of_isDigit (hbad.2 c hc)).1
  rw [hbytes]
  refine ⟨by rw [length_utf8Bytes, hsize], ?_⟩
  rw [hascii, List.forall_mem_map]
  intro c hc
  exact (digit_of_isDigit (hbad.2 c hc)).2

/-- A status character is read. -/
theorem statusBit_eq_ok {payload : List UInt8} {offset : Nat} {b : Bool} :
    statusBit payload offset = .ok b ↔
      (∃ byte, payload[offset]? = some byte ∧ Bit byte) ∧ b = bitAt payload offset := by
  rw [statusBit, bitAt]
  cases payload[offset]? with
  | none => simp
  | some byte =>
    by_cases hzero : byte = 0x30
    · subst hzero
      simp [Bit, eq_comm]
    · by_cases hone : byte = 0x31
      · subst hone
        simp [Bit, eq_comm]
      · simp [Bit, hzero, hone]

/-! ## Decimals -/

theorem forall_of_countP {α : Type} {p q : α → Bool} {l : List α}
    (hdisjoint : ∀ a, p a = true → q a = false) (h : l.length ≤ l.countP p + l.countP q) :
    ∀ a ∈ l, (p a || q a) = true := by
  have hle : l.countP p + l.countP q ≤ l.countP fun a => p a || q a := by
    clear h
    induction l with
    | nil => exact Nat.le_refl _
    | cons a l ih =>
      have ha := hdisjoint a
      simp only [List.countP_cons]
      cases hp : p a <;> cases hq : q a <;> simp_all <;> omega
  exact List.countP_eq_length.mp (Nat.le_antisymm List.countP_le_length (Nat.le_trans h hle))

/-- The characters of a text that has one point, and digits for the rest. -/
theorem exists_point {text : String} {width : Nat} (hpos : 0 < width)
    (hsize : text.utf8ByteSize = width) (hpoint : text.toList.count '.' = 1)
    (hdigits : text.toList.countP Char.isDigit = width - 1) :
    ∃ front back, text.toList = front ++ '.' :: back ∧
      ∀ c ∈ front ++ back, c.isDigit = true := by
  have hlength := length_le_utf8ByteSize text
  have hall := forall_of_countP (p := Char.isDigit) (q := (· == '.')) (l := text.toList)
    (by
      intro c hc
      rw [beq_eq_false_iff_ne]
      rintro rfl
      exact absurd hc (by decide))
    (by
      rw [← List.count]
      omega)
  obtain ⟨front, back, heq⟩ := List.append_of_mem
    (List.count_pos_iff.mp (Nat.lt_of_lt_of_eq Nat.one_pos hpoint.symm))
  refine ⟨front, back, heq, ?_⟩
  rw [heq, List.count_append, List.count_cons_self] at hpoint
  have hnone : '.' ∉ front ++ back := by
    rw [← List.count_eq_zero, List.count_append]
    omega
  intro c hc
  have hmem : c ∈ text.toList := by
    rw [heq]
    exact List.mem_append.mpr ((List.mem_append.mp hc).imp id (List.mem_cons_of_mem _))
  rcases Bool.or_eq_true_iff.mp (hall c hmem) with hdigit | hdot
  · exact hdigit
  · exact absurd (eq_of_beq hdot ▸ hc) hnone

/-- A decimal that is read has one point and otherwise digits. -/
theorem fitsLoosely_of_decimal {payload : List UInt8} {offset whole fraction : Nat} {v : Rat}
    (h : decimal payload offset (whole + 1 + fraction) = .ok v) :
    (Format.decimal whole fraction).FitsLoosely
      ((payload.drop offset).take (whole + 1 + fraction)) := by
  have hpos : 0 < whole + 1 + fraction := by omega
  obtain ⟨text, hfield, h⟩ := bind_eq_ok.mp h
  obtain ⟨hbytes, hsize⟩ := bytes_of_field hfield
  dsimp only at h
  split_ifs at h with hbad
  rw [not_or, not_or, not_not, not_not, not_not] at hbad
  obtain ⟨front, back, heq, hdigits⟩ := exists_point hpos hsize hbad.2.1 hbad.2.2
  have hbyte : ∀ c ∈ text.toList, c.toNat < 128 := by
    intro c hc
    rw [heq] at hc
    rcases List.mem_append.mp hc with hc | hc
    · exact (digit_of_isDigit (hdigits c (List.mem_append_left _ hc))).1
    · rcases List.mem_cons.mp hc with rfl | hc
      · decide
      · exact (digit_of_isDigit (hdigits c (List.mem_append_right _ hc))).1
  have hmap := utf8Bytes_of_ascii hbyte
  rw [heq, List.map_append, List.map_cons] at hmap
  refine ⟨_, _, hbytes.trans hmap, ?_, ?_⟩
  · have hlength := length_utf8Bytes text
    rw [hmap, hsize, List.length_append, List.length_cons] at hlength
    omega
  · rw [← List.map_append, List.forall_mem_map]
    exact fun c hc => (digit_of_isDigit (hdigits c hc)).2

/-- The counts of characters that are digits around a point. -/
theorem counts_of_point {front back : List Char}
    (hfront : ∀ c ∈ front, c.isDigit = true ∧ c ≠ '.')
    (hback : ∀ c ∈ back, c.isDigit = true ∧ c ≠ '.') :
    (front ++ '.' :: back).countP Char.isDigit = front.length + back.length ∧
      (front ++ '.' :: back).count '.' = 1 := by
  have hdigits := List.countP_eq_length.mpr fun c hc => (hfront c hc).1
  have hdigits' := List.countP_eq_length.mpr fun c hc => (hback c hc).1
  have hnone := List.count_eq_zero.mpr fun h => (hfront '.' h).2 rfl
  have hnone' := List.count_eq_zero.mpr fun h => (hback '.' h).2 rfl
  constructor
  · rw [List.countP_append, List.countP_cons_of_neg (by decide), hdigits, hdigits']
  · rw [List.count_append, List.count_cons_self, hnone, hnone']

/-- The number is that of the digits, by the place of the point. -/
theorem parseDecimal_of_point {front back : List Char} (h : '.' ∉ front) :
    parseDecimal (String.ofList (front ++ '.' :: back))
      = (digits (front ++ back)).map fun n : Nat => mkRat n (10 ^ back.length) := by
  rw [parseDecimal, splitOnce_of_not_mem h]
  show (digits ((String.ofList front).toList ++ (String.ofList back).toList)).bind _ = _
  rw [String.toList_ofList, String.toList_ofList, String.length_ofList, Option.map_eq_bind]
  rfl

/-- A field with one point is read, and stands for its digits over the power of the point's
place. -/
theorem decimal_of_point {payload front back : List UInt8} {offset : Nat}
    (hbytes : (payload.drop offset).take (front.length + 1 + back.length) = front ++ 0x2E :: back)
    (hne : front ++ back ≠ []) (hdigits : ∀ b ∈ front ++ back, Digit b) :
    decimal payload offset (front.length + 1 + back.length)
      = .ok (mkRat (number (front ++ back)) (10 ^ back.length)) := by
  have hlength : (front ++ 0x2E :: back).length = front.length + 1 + back.length := by
    rw [List.length_append, List.length_cons]
    omega
  have hascii : ∀ b ∈ front ++ 0x2E :: back, b.toNat < 128 := by
    rw [List.forall_mem_append] at hdigits ⊢
    refine ⟨fun b hb => (hdigits.1 b hb).lt, List.forall_mem_cons.mpr ⟨by decide, ?_⟩⟩
    exact fun b hb => (hdigits.2 b hb).lt
  obtain ⟨hfield, hsize⟩ := field_asciiText (hlength.symm ▸ hbytes) (by omega) hascii
  rw [hlength] at hfield hsize
  let char : UInt8 → Char := fun b => Char.ofNat b.toNat
  have hchars : (asciiText (front ++ 0x2E :: back)).toList
      = front.map char ++ '.' :: back.map char := by
    rw [asciiText, String.toList_ofList, List.map_append, List.map_cons]
    rfl
  have hdigit : ∀ c ∈ front.map char ++ back.map char, c.isDigit = true ∧ c ≠ '.' := by
    rw [← List.map_append, List.forall_mem_map]
    exact fun b hb => ⟨(hdigits b hb).char.1, (hdigits b hb).char.2.2.2.2⟩
  rw [List.forall_mem_append] at hdigit
  obtain ⟨hcount, hpoint⟩ := counts_of_point hdigit.1 hdigit.2
  have hread : parseDecimal (asciiText (front ++ 0x2E :: back))
      = some (mkRat (number (front ++ back)) (10 ^ back.length)) := by
    have hvalue := digits_of_digit hne hdigits
    rw [List.map_append] at hvalue
    rw [← String.ofList_toList (s := asciiText _), hchars,
      parseDecimal_of_point fun h => (hdigit.1 '.' h).2 rfl, hvalue, Option.map_some,
      List.length_map]
  rw [List.length_map, List.length_map] at hcount
  rw [decimal, hfield]
  show (if _ then _ else _) = _
  rw [hchars, hcount, hpoint, hsize, if_neg (by omega), hread]

/-- Whatever has one point and otherwise digits is read as a number. -/
theorem exists_decimal_of_fitsLoosely {payload : List UInt8} {offset whole fraction : Nat}
    (hreadable : (Format.decimal whole fraction).Readable)
    (h : (Format.decimal whole fraction).FitsLoosely
      ((payload.drop offset).take (whole + 1 + fraction))) :
    ∃ v, decimal payload offset (whole + 1 + fraction) = .ok v := by
  obtain ⟨front, back, hbytes, hlength, hdigits⟩ := h
  have hpos : 0 < whole + fraction := hreadable
  have hwidth : whole + 1 + fraction = front.length + 1 + back.length := by omega
  have hne : front ++ back ≠ [] := by
    apply List.ne_nil_of_length_pos
    rw [List.length_append]
    omega
  rw [hwidth] at hbytes ⊢
  exact ⟨_, decimal_of_point hbytes hne hdigits⟩

/-- With the point in its place it is the number that the format says. -/
theorem decimal_of_fits {payload : List UInt8} {offset whole fraction : Nat}
    (hreadable : (Format.decimal whole fraction).Readable)
    (h : (Format.decimal whole fraction).Fits
      ((payload.drop offset).take (whole + 1 + fraction))) :
    decimal payload offset (whole + 1 + fraction)
      = .ok (decimalAt payload offset whole fraction) := by
  obtain ⟨front, back, hbytes, rfl, rfl, hdigits⟩ := h
  have hfront : (payload.drop offset).take front.length = front := by
    have htake := congrArg (List.take front.length) hbytes
    rwa [List.take_take, Nat.min_eq_left (by omega), List.take_left] at htake
  have hback : (payload.drop (offset + front.length + 1)).take back.length = back := by
    have hdrop := congrArg (List.drop (front.length + 1)) hbytes
    rwa [List.drop_take, List.drop_drop, Nat.add_sub_cancel_left, ← Nat.add_assoc,
      List.drop_length_add_append, List.drop_one, List.tail_cons] at hdrop
  have hne : front ++ back ≠ [] := by
    apply List.ne_nil_of_length_pos
    rw [List.length_append]
    exact hreadable
  rw [decimalAt, hfront, hback]
  exact decimal_of_point hbytes hne hdigits

theorem toInt_integerAt {payload : List UInt8} {offset width : Nat}
    (hreadable : (Format.integer width).Readable)
    (h : (Format.integer width).Fits ((payload.drop offset).take width)) :
    (integerAt payload offset width).toInt = number ((payload.drop offset).take width) := by
  rw [integerAt]
  exact Int64.toInt_ofNat_of_lt (number_lt_pow hreadable h)

/-! ## What the parsers accept -/

/-- What is left of the grammar when a point may stand anywhere in its field, and only the
fields of `read` are looked at. -/
structure Loose (length : Nat) (table read : List FieldSpec) (payload : List UInt8) : Prop where
  length_eq : payload.length = length
  fields : ∀ f ∈ read, f.format.FitsLoosely (f.bytes payload)
  blanks : ∀ i < length, (∀ f ∈ table, ¬ f.Covers i) → payload[i]? = some 0x20

/-- The point of a decimal field stands where the format has it. -/
def FieldSpec.PointInPlace (f : FieldSpec) (payload : List UInt8) : Prop :=
  match f.format with
  | .decimal whole _ => payload[f.offset + whole]? = some 0x2E
  | _ => True

/-- The fields of `QPIGS` that are read: the last bit of the second device status is not. -/
def qpigsReadTable : List FieldSpec := qpigsTable.dropLast ++ [⟨103, .bits 2⟩]

theorem FieldSpec.getElem?_bytes {f : FieldSpec} {payload : List UInt8} {i : Nat}
    (h : i < f.format.width) : (f.bytes payload)[i]? = payload[f.offset + i]? := by
  rw [FieldSpec.bytes, List.getElem?_take_of_lt h, List.getElem?_drop]

theorem point_unique {front back : List UInt8} {i : Nat} (hdigits : ∀ b ∈ front ++ back, Digit b)
    (h : (front ++ 0x2E :: back)[i]? = some 0x2E) : i = front.length := by
  have hno : (0x2E : UInt8) ∉ front ++ back := fun hmem => absurd (hdigits _ hmem) (by decide)
  rw [List.mem_append, not_or] at hno
  rcases Nat.lt_trichotomy i front.length with hlt | heq | hgt
  · rw [List.getElem?_append_left hlt] at h
    exact absurd (List.mem_of_getElem? h) hno.1
  · exact heq
  · rw [List.getElem?_append_right (Nat.le_of_lt hgt), List.getElem?_cons,
      if_neg (by omega)] at h
    exact absurd (List.mem_of_getElem? h) hno.2

/-- A field fits if it does so loosely, with its point in place. -/
theorem FieldSpec.fits_iff {f : FieldSpec} {payload : List UInt8} :
    f.format.Fits (f.bytes payload) ↔
      f.format.FitsLoosely (f.bytes payload) ∧ f.PointInPlace payload := by
  obtain ⟨offset, format⟩ := f
  cases format with
  | integer width => exact (and_iff_left trivial).symm
  | bits width => exact (and_iff_left trivial).symm
  | decimal whole fraction =>
    have hpoint : (FieldSpec.bytes ⟨offset, .decimal whole fraction⟩ payload)[whole]?
        = payload[offset + whole]? := by
      apply FieldSpec.getElem?_bytes
      show whole < whole + 1 + fraction
      omega
    generalize FieldSpec.bytes _ payload = bytes at hpoint ⊢
    show (Format.decimal whole fraction).Fits bytes ↔
      (Format.decimal whole fraction).FitsLoosely bytes ∧ payload[offset + whole]? = some 0x2E
    rw [← hpoint]
    constructor
    · rintro ⟨front, back, rfl, hfront, hback, hdigits⟩
      refine ⟨⟨front, back, rfl, by omega, hdigits⟩, ?_⟩
      rw [← hfront, List.getElem?_append_right (Nat.le_refl _), Nat.sub_self]
      rfl
    · rintro ⟨⟨front, back, rfl, hlength, hdigits⟩, hat⟩
      have hplace := point_unique hdigits hat
      exact ⟨front, back, rfl, by omega, by omega, hdigits⟩

theorem Format.fits_bits_iff {payload : List UInt8} {offset width : Nat} :
    (Format.bits width).Fits ((payload.drop offset).take width) ↔
      ∀ i < width, ∃ byte, payload[offset + i]? = some byte ∧ Bit byte := by
  constructor
  · rintro ⟨hlength, hbits⟩ i hi
    have hlt : i < ((payload.drop offset).take width).length := by omega
    refine ⟨_, ?_, hbits _ (List.getElem_mem hlt)⟩
    rw [← List.getElem?_eq_getElem hlt, List.getElem?_take_of_lt hi, List.getElem?_drop]
  · intro h
    have hlength : ((payload.drop offset).take width).length = width := by
      rw [List.length_take, List.length_drop]
      by_cases hwidth : width = 0
      · omega
      · obtain ⟨byte, hbyte, -⟩ := h (width - 1) (by omega)
        have hlt := (List.getElem?_eq_some_iff.mp hbyte).1
        omega
    refine ⟨hlength, ?_⟩
    intro b hb
    obtain ⟨i, hi, rfl⟩ := List.mem_iff_getElem.mp hb
    rw [hlength] at hi
    obtain ⟨byte, hbyte, hbit⟩ := h i hi
    rw [← List.getElem?_drop, ← List.getElem?_take_of_lt hi] at hbyte
    rwa [(List.getElem?_eq_some_iff.mp hbyte).2]

theorem expectLen_eq_ok {command : String} {payload : List UInt8} {want : Nat} {u : Unit} :
    expectLen command payload want = .ok u ↔ payload.length = want := by
  rw [expectLen]
  split_ifs with h
  · simp [h]
  · simp [not_not.mp h]

theorem checkSeparators_eq_ok {command note : String} {payload : List UInt8}
    {offsets : List Nat} {u : Unit} :
    checkSeparators command note payload offsets = .ok u ↔
      ∀ offset ∈ offsets, payload[offset]? = some 0x20 := by
  have hat : ∀ offset, payload.getD offset 0 = 0x20 ↔ payload[offset]? = some 0x20 := by
    intro offset
    rw [List.getD_eq_getElem?_getD]
    cases payload[offset]? with
    | none => simp
    | some byte => simp
  rw [checkSeparators]
  cases hfind : offsets.find? fun offset => payload.getD offset 0 ≠ 0x20 with
  | none =>
    rw [List.find?_eq_none] at hfind
    refine iff_of_true rfl fun offset hoffset => ?_
    rw [← hat]
    simpa using hfind offset hoffset
  | some offset =>
    have hmem := List.mem_of_find?_eq_some hfind
    have hbad := List.find?_some hfind
    refine iff_of_false (by simp) fun h => ?_
    rw [decide_eq_true_eq, ne_eq, hat] at hbad
    exact hbad (h offset hmem)

/-! ## The parsers, field by field -/

/-- Every check of `parse_qpigs` succeeds, and its readings are those of `q`. -/
structure QpigsRead (payload : List UInt8) (q : Qpigs) : Prop where
  length_eq : payload.length = qpigsLen
  separators : ∀ offset ∈ qpigsSeparators, payload[offset]? = some 0x20
  gridVoltage : decimal payload 0 5 = .ok q.gridVoltage
  gridFrequency : decimal payload 6 4 = .ok q.gridFrequency
  outputVoltage : decimal payload 11 5 = .ok q.outputVoltage
  outputFrequency : decimal payload 17 4 = .ok q.outputFrequency
  outputApparentPower : integer payload 22 4 = .ok q.outputApparentPower
  outputActivePower : integer payload 27 4 = .ok q.outputActivePower
  outputLoadPercent : integer payload 32 3 = .ok q.outputLoadPercent
  busVoltage : integer payload 36 3 = .ok q.busVoltage
  batteryVoltage : decimal payload 40 5 = .ok q.batteryVoltage
  batteryChargingCurrent : integer payload 46 3 = .ok q.batteryChargingCurrent
  batteryCapacity : integer payload 50 3 = .ok q.batteryCapacity
  heatSinkTemperature : integer payload 54 4 = .ok q.heatSinkTemperature
  pv1Current : decimal payload 59 4 = .ok q.pv1Current
  pv1Voltage : decimal payload 64 5 = .ok q.pv1Voltage
  batteryVoltageFromScc1 : decimal payload 70 5 = .ok q.batteryVoltageFromScc1
  batteryDischargeCurrent : integer payload 76 5 = .ok q.batteryDischargeCurrent
  addSbuPriorityVersion : statusBit payload 82 = .ok q.addSbuPriorityVersion
  configurationChanged : statusBit payload 83 = .ok q.configurationChanged
  sccFirmwareUpdated : statusBit payload 84 = .ok q.sccFirmwareUpdated
  loadOn : statusBit payload 85 = .ok q.loadOn
  batteryVoltageToSteadyWhileCharging :
    statusBit payload 86 = .ok q.batteryVoltageToSteadyWhileCharging
  charging : statusBit payload 87 = .ok q.charging
  chargingScc : statusBit payload 88 = .ok q.chargingScc
  chargingAc : statusBit payload 89 = .ok q.chargingAc
  fansOn : ∃ n, integer payload 91 2 = .ok n ∧ q.batteryVoltageOffsetFansOn = mkRat n.toInt 100
  eepromVersion : integer payload 94 2 = .ok q.eepromVersion
  pv1ChargingPower : integer payload 97 5 = .ok q.pv1ChargingPower
  floatCharge : statusBit payload 103 = .ok q.floatCharge
  switchOn : statusBit payload 104 = .ok q.switchOn

/-- What is read of a QPIGS payload, field by field. -/
theorem parseQpigs_eq_ok {payload : List UInt8} {q : Qpigs} :
    parseQpigs payload = .ok q ↔ QpigsRead payload q := by
  constructor
  · intro h
    rw [parseQpigs] at h
    obtain ⟨_, hlength, h⟩ := bind_eq_ok.mp h
    obtain ⟨_, hseparators, h⟩ := bind_eq_ok.mp h
    obtain ⟨_, hgridVoltage, h⟩ := bind_eq_ok.mp h
    obtain ⟨_, hgridFrequency, h⟩ := bind_eq_ok.mp h
    obtain ⟨_, houtputVoltage, h⟩ := bind_eq_ok.mp h
    obtain ⟨_, houtputFrequency, h⟩ := bind_eq_ok.mp h
    obtain ⟨_, houtputApparentPower, h⟩ := bind_eq_ok.mp h
    obtain ⟨_, houtputActivePower, h⟩ := bind_eq_ok.mp h
    obtain ⟨_, houtputLoadPercent, h⟩ := bind_eq_ok.mp h
    obtain ⟨_, hbusVoltage, h⟩ := bind_eq_ok.mp h
    obtain ⟨_, hbatteryVoltage, h⟩ := bind_eq_ok.mp h
    obtain ⟨_, hbatteryChargingCurrent, h⟩ := bind_eq_ok.mp h
    obtain ⟨_, hbatteryCapacity, h⟩ := bind_eq_ok.mp h
    obtain ⟨_, hheatSinkTemperature, h⟩ := bind_eq_ok.mp h
    obtain ⟨_, hpv1Current, h⟩ := bind_eq_ok.mp h
    obtain ⟨_, hpv1Voltage, h⟩ := bind_eq_ok.mp h
    obtain ⟨_, hbatteryVoltageFromScc1, h⟩ := bind_eq_ok.mp h
    obtain ⟨_, hbatteryDischargeCurrent, h⟩ := bind_eq_ok.mp h
    obtain ⟨_, haddSbuPriorityVersion, h⟩ := bind_eq_ok.mp h
    obtain ⟨_, hconfigurationChanged, h⟩ := bind_eq_ok.mp h
    obtain ⟨_, hsccFirmwareUpdated, h⟩ := bind_eq_ok.mp h
    obtain ⟨_, hloadOn, h⟩ := bind_eq_ok.mp h
    obtain ⟨_, hbatteryVoltageToSteadyWhileCharging, h⟩ := bind_eq_ok.mp h
    obtain ⟨_, hcharging, h⟩ := bind_eq_ok.mp h
    obtain ⟨_, hchargingScc, h⟩ := bind_eq_ok.mp h
    obtain ⟨_, hchargingAc, h⟩ := bind_eq_ok.mp h
    obtain ⟨_, hfansOn, h⟩ := bind_eq_ok.mp h
    obtain ⟨_, heepromVersion, h⟩ := bind_eq_ok.mp h
    obtain ⟨_, hpv1ChargingPower, h⟩ := bind_eq_ok.mp h
    obtain ⟨_, hfloatCharge, h⟩ := bind_eq_ok.mp h
    obtain ⟨_, hswitchOn, h⟩ := bind_eq_ok.mp h
    cases h
    exact ⟨expectLen_eq_ok.mp hlength, checkSeparators_eq_ok.mp hseparators, hgridVoltage,
      hgridFrequency, houtputVoltage, houtputFrequency, houtputApparentPower,
      houtputActivePower, houtputLoadPercent, hbusVoltage, hbatteryVoltage,
      hbatteryChargingCurrent, hbatteryCapacity, hheatSinkTemperature, hpv1Current, hpv1Voltage,
      hbatteryVoltageFromScc1, hbatteryDischargeCurrent, haddSbuPriorityVersion,
      hconfigurationChanged, hsccFirmwareUpdated, hloadOn, hbatteryVoltageToSteadyWhileCharging,
      hcharging, hchargingScc, hchargingAc, ⟨_, hfansOn, rfl⟩, heepromVersion,
      hpv1ChargingPower, hfloatCharge, hswitchOn⟩
  · rintro ⟨hlength, hseparators, hgridVoltage, hgridFrequency, houtputVoltage,
      houtputFrequency, houtputApparentPower, houtputActivePower, houtputLoadPercent,
      hbusVoltage, hbatteryVoltage, hbatteryChargingCurrent, hbatteryCapacity,
      hheatSinkTemperature, hpv1Current, hpv1Voltage, hbatteryVoltageFromScc1,
      hbatteryDischargeCurrent, haddSbuPriorityVersion, hconfigurationChanged,
      hsccFirmwareUpdated, hloadOn, hbatteryVoltageToSteadyWhileCharging, hcharging,
      hchargingScc, hchargingAc, ⟨n, hfansOn, hscaled⟩, heepromVersion, hpv1ChargingPower,
      hfloatCharge, hswitchOn⟩
    simp only [parseQpigs, bind_eq_ok, expectLen_eq_ok, checkSeparators_eq_ok]
    obtain ⟨⟩ := q
    subst hscaled
    exact ⟨(), hlength, (), hseparators, _, hgridVoltage, _, hgridFrequency, _, houtputVoltage,
      _, houtputFrequency, _, houtputApparentPower, _, houtputActivePower, _,
      houtputLoadPercent, _, hbusVoltage, _, hbatteryVoltage, _, hbatteryChargingCurrent, _,
      hbatteryCapacity, _, hheatSinkTemperature, _, hpv1Current, _, hpv1Voltage, _,
      hbatteryVoltageFromScc1, _, hbatteryDischargeCurrent, _, haddSbuPriorityVersion, _,
      hconfigurationChanged, _, hsccFirmwareUpdated, _, hloadOn, _,
      hbatteryVoltageToSteadyWhileCharging, _, hcharging, _, hchargingScc, _, hchargingAc, _,
      hfansOn, _, heepromVersion, _, hpv1ChargingPower, _, hfloatCharge, _, hswitchOn, rfl⟩

/-- Every check of `parse_qpigs2` succeeds, and its readings are those of `q`. -/
structure Qpigs2Read (payload : List UInt8) (q : Qpigs2) : Prop where
  length_eq : payload.length = qpigs2Len
  separators : ∀ offset ∈ [4, 10, 16], payload[offset]? = some 0x20
  pv2Current : decimal payload 0 4 = .ok q.pv2Current
  pv2Voltage : decimal payload 5 5 = .ok q.pv2Voltage
  pv2ChargingPower : integer payload 11 5 = .ok q.pv2ChargingPower

/-- What is read of a QPIGS2 payload, field by field. -/
theorem parseQpigs2_eq_ok {payload : List UInt8} {q : Qpigs2} :
    parseQpigs2 payload = .ok q ↔ Qpigs2Read payload q := by
  simp only [parseQpigs2, bind_eq_ok, expectLen_eq_ok, checkSeparators_eq_ok]
  constructor
  · intro h
    obtain ⟨-, hlength, -, hseparators, _, hcurrent, _, hvoltage, _, hpower, h⟩ := h
    cases h
    exact ⟨hlength, hseparators, hcurrent, hvoltage, hpower⟩
  · rintro ⟨hlength, hseparators, hcurrent, hvoltage, hpower⟩
    exact ⟨(), hlength, (), hseparators, _, hcurrent, _, hvoltage, _, hpower, rfl⟩

/-- The blanks of a table are checked where its separators are listed. -/
theorem blanks_iff {length : Nat} {table : List FieldSpec} {separators : List Nat}
    {payload : List UInt8}
    (hcover : ∀ i : Fin length, (∀ f ∈ table, ¬ f.Covers i) ↔ i.val ∈ separators)
    (hlt : separators.all (· < length) = true) :
    (∀ i < length, (∀ f ∈ table, ¬ f.Covers i) → payload[i]? = some 0x20) ↔
      ∀ offset ∈ separators, payload[offset]? = some 0x20 := by
  rw [List.all_eq_true] at hlt
  constructor
  · intro h offset hoffset
    have hfits : offset < length := of_decide_eq_true (hlt offset hoffset)
    exact h offset hfits ((hcover ⟨offset, hfits⟩).mpr hoffset)
  · intro h i hi huncovered
    exact h i ((hcover ⟨i, hi⟩).mp huncovered)

/-- The bytes between the fields are the offsets that the parser checks. -/
theorem qpigs_blanks_iff {payload : List UInt8} :
    (∀ i < qpigsLen, (∀ f ∈ qpigsTable, ¬ f.Covers i) → payload[i]? = some 0x20) ↔
      ∀ offset ∈ qpigsSeparators, payload[offset]? = some 0x20 :=
  blanks_iff (by decide +kernel) (by decide)

theorem qpigs2_blanks_iff {payload : List UInt8} :
    (∀ i < qpigs2Len, (∀ f ∈ qpigs2Table, ¬ f.Covers i) → payload[i]? = some 0x20) ↔
      ∀ offset ∈ [4, 10, 16], payload[offset]? = some 0x20 :=
  blanks_iff (by decide +kernel) (by decide)

section Tables

variable {length : Nat} {table read : List FieldSpec} {payload : List UInt8}

theorem Loose.integer_eq (h : Loose length table read payload)
    (hreadable : ∀ f ∈ read, f.format.Readable) (offset width : Nat)
    (hmem : ⟨offset, .integer width⟩ ∈ read) :
    integer payload offset width = .ok (integerAt payload offset width) :=
  integer_of_fits (hreadable _ hmem) (h.fields _ hmem)

theorem Loose.exists_decimal (h : Loose length table read payload)
    (hreadable : ∀ f ∈ read, f.format.Readable) (offset whole fraction : Nat)
    (hmem : ⟨offset, .decimal whole fraction⟩ ∈ read) :
    ∃ v, decimal payload offset (whole + 1 + fraction) = .ok v :=
  exists_decimal_of_fitsLoosely (hreadable _ hmem) (h.fields _ hmem)

theorem Loose.statusBit_eq (h : Loose length table read payload) (offset width : Nat)
    (hmem : ⟨offset, .bits width⟩ ∈ read) :
    ∀ i < width, statusBit payload (offset + i) = .ok (bitAt payload (offset + i)) := by
  intro i hi
  exact statusBit_eq_ok.mpr ⟨Format.fits_bits_iff.mp (h.fields _ hmem) i hi, rfl⟩

theorem Grammar.decimal_eq (h : Grammar length table payload)
    (hreadable : ∀ f ∈ table, f.format.Readable) (offset whole fraction : Nat)
    (hmem : ⟨offset, .decimal whole fraction⟩ ∈ table) :
    decimal payload offset (whole + 1 + fraction)
      = .ok (decimalAt payload offset whole fraction) :=
  decimal_of_fits (hreadable _ hmem) (h.fields _ hmem)

end Tables

theorem readable_qpigsTable : ∀ f ∈ qpigsTable, f.format.Readable := by decide

theorem readable_qpigsReadTable : ∀ f ∈ qpigsReadTable, f.format.Readable := by decide

theorem readable_qpigs2Table : ∀ f ∈ qpigs2Table, f.format.Readable := by decide

theorem loose_of_qpigsRead {payload : List UInt8} {q : Qpigs} (h : QpigsRead payload q) :
    Loose qpigsLen qpigsTable qpigsReadTable payload where
  length_eq := h.length_eq
  blanks := qpigs_blanks_iff.mpr h.separators
  fields := by
    have hfirst : (Format.bits 8).Fits ((payload.drop 82).take 8) := by
      refine Format.fits_bits_iff.mpr fun i hi => ?_
      interval_cases i
      exacts [(statusBit_eq_ok.mp h.addSbuPriorityVersion).1,
        (statusBit_eq_ok.mp h.configurationChanged).1,
        (statusBit_eq_ok.mp h.sccFirmwareUpdated).1, (statusBit_eq_ok.mp h.loadOn).1,
        (statusBit_eq_ok.mp h.batteryVoltageToSteadyWhileCharging).1,
        (statusBit_eq_ok.mp h.charging).1, (statusBit_eq_ok.mp h.chargingScc).1,
        (statusBit_eq_ok.mp h.chargingAc).1]
    have hsecond : (Format.bits 2).Fits ((payload.drop 103).take 2) := by
      refine Format.fits_bits_iff.mpr fun i hi => ?_
      interval_cases i
      exacts [(statusBit_eq_ok.mp h.floatCharge).1, (statusBit_eq_ok.mp h.switchOn).1]
    obtain ⟨n, hfansOn, -⟩ := h.fansOn
    show ∀ f ∈ [_, _, _, _, _, _, _, _, _, _, _, _, _, _, _, _, _, _, _, _, _], _
    simp only [List.forall_mem_cons, List.not_mem_nil, false_imp_iff, implies_true, and_true]
    exact ⟨fitsLoosely_of_decimal h.gridVoltage, fitsLoosely_of_decimal h.gridFrequency,
      fitsLoosely_of_decimal h.outputVoltage, fitsLoosely_of_decimal h.outputFrequency,
      fits_of_integer h.outputApparentPower,
      fits_of_integer h.outputActivePower,
      fits_of_integer h.outputLoadPercent, fits_of_integer h.busVoltage,
      fitsLoosely_of_decimal h.batteryVoltage,
      fits_of_integer h.batteryChargingCurrent,
      fits_of_integer h.batteryCapacity,
      fits_of_integer h.heatSinkTemperature, fitsLoosely_of_decimal h.pv1Current,
      fitsLoosely_of_decimal h.pv1Voltage, fitsLoosely_of_decimal h.batteryVoltageFromScc1,
      fits_of_integer h.batteryDischargeCurrent, hfirst,
      fits_of_integer hfansOn, fits_of_integer h.eepromVersion,
      fits_of_integer h.pv1ChargingPower, hsecond⟩

/-- All but the decimals has its documented value. -/
theorem qpigsRead_of_loose {payload : List UInt8} {q : Qpigs}
    (h : Loose qpigsLen qpigsTable qpigsReadTable payload)
    (hgridVoltage : decimal payload 0 5 = .ok q.gridVoltage)
    (hgridFrequency : decimal payload 6 4 = .ok q.gridFrequency)
    (houtputVoltage : decimal payload 11 5 = .ok q.outputVoltage)
    (houtputFrequency : decimal payload 17 4 = .ok q.outputFrequency)
    (hbatteryVoltage : decimal payload 40 5 = .ok q.batteryVoltage)
    (hpv1Current : decimal payload 59 4 = .ok q.pv1Current)
    (hpv1Voltage : decimal payload 64 5 = .ok q.pv1Voltage)
    (hscc1 : decimal payload 70 5 = .ok q.batteryVoltageFromScc1) :
    QpigsRead payload { documentedQpigs payload with
      gridVoltage := q.gridVoltage, gridFrequency := q.gridFrequency
      outputVoltage := q.outputVoltage, outputFrequency := q.outputFrequency
      batteryVoltage := q.batteryVoltage, pv1Current := q.pv1Current
      pv1Voltage := q.pv1Voltage, batteryVoltageFromScc1 := q.batteryVoltageFromScc1 } := by
  have hinteger := h.integer_eq readable_qpigsReadTable
  have hfirst := h.statusBit_eq 82 8 (by decide)
  have hsecond := h.statusBit_eq 103 2 (by decide)
  have hfans : ⟨91, .integer 2⟩ ∈ qpigsReadTable := by decide
  have hscaled := toInt_integerAt (readable_qpigsReadTable _ hfans) (h.fields _ hfans)
  exact
    { length_eq := h.length_eq
      separators := qpigs_blanks_iff.mp h.blanks
      gridVoltage := hgridVoltage
      gridFrequency := hgridFrequency
      outputVoltage := houtputVoltage
      outputFrequency := houtputFrequency
      outputApparentPower := hinteger 22 4 (by decide)
      outputActivePower := hinteger 27 4 (by decide)
      outputLoadPercent := hinteger 32 3 (by decide)
      busVoltage := hinteger 36 3 (by decide)
      batteryVoltage := hbatteryVoltage
      batteryChargingCurrent := hinteger 46 3 (by decide)
      batteryCapacity := hinteger 50 3 (by decide)
      heatSinkTemperature := hinteger 54 4 (by decide)
      pv1Current := hpv1Current
      pv1Voltage := hpv1Voltage
      batteryVoltageFromScc1 := hscc1
      batteryDischargeCurrent := hinteger 76 5 (by decide)
      addSbuPriorityVersion := hfirst 0 (by decide)
      configurationChanged := hfirst 1 (by decide)
      sccFirmwareUpdated := hfirst 2 (by decide)
      loadOn := hfirst 3 (by decide)
      batteryVoltageToSteadyWhileCharging := hfirst 4 (by decide)
      charging := hfirst 5 (by decide)
      chargingScc := hfirst 6 (by decide)
      chargingAc := hfirst 7 (by decide)
      fansOn := ⟨_, hinteger 91 2 hfans, congrArg (mkRat · 100) hscaled.symm⟩
      eepromVersion := hinteger 94 2 (by decide)
      pv1ChargingPower := hinteger 97 5 (by decide)
      floatCharge := hsecond 0 (by decide)
      switchOn := hsecond 1 (by decide) }

/-- **Exactly what the parser of QPIGS accepts.** -/
theorem parseQpigs_accepts_iff {payload : List UInt8} :
    (∃ q, parseQpigs payload = .ok q) ↔ Loose qpigsLen qpigsTable qpigsReadTable payload := by
  constructor
  · rintro ⟨q, h⟩
    exact loose_of_qpigsRead (parseQpigs_eq_ok.mp h)
  · intro h
    have hdecimal := h.exists_decimal readable_qpigsReadTable
    obtain ⟨gridVoltage, hgridVoltage⟩ := hdecimal 0 3 1 (by decide)
    obtain ⟨gridFrequency, hgridFrequency⟩ := hdecimal 6 2 1 (by decide)
    obtain ⟨outputVoltage, houtputVoltage⟩ := hdecimal 11 3 1 (by decide)
    obtain ⟨outputFrequency, houtputFrequency⟩ := hdecimal 17 2 1 (by decide)
    obtain ⟨batteryVoltage, hbatteryVoltage⟩ := hdecimal 40 2 2 (by decide)
    obtain ⟨pv1Current, hpv1Current⟩ := hdecimal 59 2 1 (by decide)
    obtain ⟨pv1Voltage, hpv1Voltage⟩ := hdecimal 64 3 1 (by decide)
    obtain ⟨scc1, hscc1⟩ := hdecimal 70 2 2 (by decide)
    let q : Qpigs := { documentedQpigs payload with
      gridVoltage, gridFrequency, outputVoltage, outputFrequency, batteryVoltage, pv1Current
      pv1Voltage, batteryVoltageFromScc1 := scc1 }
    exact ⟨_, parseQpigs_eq_ok.mpr (qpigsRead_of_loose (q := q) h hgridVoltage hgridFrequency
      houtputVoltage houtputFrequency hbatteryVoltage hpv1Current hpv1Voltage hscc1)⟩

/-- **Exactly what the parser of QPIGS2 accepts.** -/
theorem parseQpigs2_accepts_iff {payload : List UInt8} :
    (∃ q, parseQpigs2 payload = .ok q) ↔ Loose qpigs2Len qpigs2Table qpigs2Table payload := by
  constructor
  · rintro ⟨q, h⟩
    have hread := parseQpigs2_eq_ok.mp h
    refine ⟨hread.length_eq, ?_, qpigs2_blanks_iff.mpr hread.separators⟩
    simp only [qpigs2Table, List.forall_mem_cons, List.not_mem_nil, false_imp_iff, implies_true,
      and_true]
    exact ⟨fitsLoosely_of_decimal hread.pv2Current, fitsLoosely_of_decimal hread.pv2Voltage,
      fits_of_integer hread.pv2ChargingPower⟩
  · intro h
    obtain ⟨current, hcurrent⟩ := h.exists_decimal readable_qpigs2Table 0 2 1 (by decide)
    obtain ⟨voltage, hvoltage⟩ := h.exists_decimal readable_qpigs2Table 5 3 1 (by decide)
    have hpower := h.integer_eq readable_qpigs2Table 11 5 (by decide)
    exact ⟨⟨current, voltage, integerAt payload 11 5⟩, parseQpigs2_eq_ok.mpr
      ⟨h.length_eq, qpigs2_blanks_iff.mp h.blanks, hcurrent, hvoltage, hpower⟩⟩

/-! ## Exactly the grammar -/

/-- The last bit of the second device status is one. -/
def LastBit (payload : List UInt8) : Prop := ∃ byte, payload[105]? = some byte ∧ Bit byte

theorem qpigsTable_eq : qpigsTable = qpigsTable.dropLast ++ [⟨103, .bits 3⟩] := by decide

/-- What the grammar asks beyond what the parser does. -/
theorem qpigs_grammar_iff {payload : List UInt8} :
    Grammar qpigsLen qpigsTable payload ↔
      Loose qpigsLen qpigsTable qpigsReadTable payload ∧
        (∀ f ∈ qpigsTable, f.PointInPlace payload) ∧ LastBit payload := by
  constructor
  · rintro ⟨hlength, hfields, hblanks⟩
    have hlast := Format.fits_bits_iff.mp (hfields ⟨103, .bits 3⟩ (by decide))
    refine ⟨⟨hlength, ?_, hblanks⟩, fun f hf => (FieldSpec.fits_iff.mp (hfields f hf)).2,
      hlast 2 (by decide)⟩
    intro f hf
    rcases List.mem_append.mp hf with hf | hf
    · exact (FieldSpec.fits_iff.mp (hfields f (List.dropLast_subset _ hf))).1
    · cases List.mem_singleton.mp hf
      exact Format.fits_bits_iff.mpr fun i hi =>
        hlast i (Nat.lt_succ_of_lt hi)
  · rintro ⟨⟨hlength, hfields, hblanks⟩, hpoints, hlast⟩
    refine ⟨hlength, ?_, hblanks⟩
    intro f hf
    refine FieldSpec.fits_iff.mpr ⟨?_, hpoints f hf⟩
    rw [qpigsTable_eq] at hf
    rcases List.mem_append.mp hf with hf | hf
    · exact hfields f (List.mem_append_left _ hf)
    · cases List.mem_singleton.mp hf
      have hread := Format.fits_bits_iff.mp (hfields ⟨103, .bits 2⟩ (by decide))
      refine Format.fits_bits_iff.mpr fun i hi => ?_
      rcases Nat.lt_succ_iff_lt_or_eq.mp hi with hi | rfl
      · exact hread i hi
      · exact hlast

/-- What the grammar of the second PV input asks beyond what its parser does. -/
theorem qpigs2_grammar_iff {payload : List UInt8} :
    Grammar qpigs2Len qpigs2Table payload ↔
      Loose qpigs2Len qpigs2Table qpigs2Table payload ∧
        ∀ f ∈ qpigs2Table, f.PointInPlace payload := by
  constructor
  · rintro ⟨hlength, hfields, hblanks⟩
    exact ⟨⟨hlength, fun f hf => (FieldSpec.fits_iff.mp (hfields f hf)).1, hblanks⟩,
      fun f hf => (FieldSpec.fits_iff.mp (hfields f hf)).2⟩
  · rintro ⟨⟨hlength, hfields, hblanks⟩, hpoints⟩
    exact ⟨hlength, fun f hf => FieldSpec.fits_iff.mpr ⟨hfields f hf, hpoints f hf⟩, hblanks⟩

/-- A payload by the grammar is read as documented. -/
theorem parseQpigs_of_grammar {payload : List UInt8} (h : Grammar qpigsLen qpigsTable payload) :
    parseQpigs payload = .ok (documentedQpigs payload) := by
  have hdecimal := h.decimal_eq readable_qpigsTable
  exact parseQpigs_eq_ok.mpr (qpigsRead_of_loose (q := documentedQpigs payload)
    (qpigs_grammar_iff.mp h).1
    (hdecimal 0 3 1 (by decide)) (hdecimal 6 2 1 (by decide))
    (hdecimal 11 3 1 (by decide)) (hdecimal 17 2 1 (by decide))
    (hdecimal 40 2 2 (by decide)) (hdecimal 59 2 1 (by decide))
    (hdecimal 64 3 1 (by decide)) (hdecimal 70 2 2 (by decide)))

/-- A payload by the second grammar is read as documented. -/
theorem parseQpigs2_of_grammar {payload : List UInt8}
    (h : Grammar qpigs2Len qpigs2Table payload) :
    parseQpigs2 payload = .ok (documentedQpigs2 payload) :=
  parseQpigs2_eq_ok.mpr
    { length_eq := h.length_eq
      separators := qpigs2_blanks_iff.mp h.blanks
      pv2Current := h.decimal_eq readable_qpigs2Table 0 2 1 (by decide)
      pv2Voltage := h.decimal_eq readable_qpigs2Table 5 3 1 (by decide)
      pv2ChargingPower :=
        (qpigs2_grammar_iff.mp h).1.integer_eq readable_qpigs2Table 11 5 (by decide) }

/-- The parser accepts the payload exactly when it fits the grammar, and then reads the
documented values. -/
def Exact {α : Type} (parse : List UInt8 → Except String α) (grammar : List UInt8 → Prop)
    (documented : List UInt8 → α) (payload : List UInt8) : Prop :=
  ((∃ q, parse payload = .ok q) ↔ grammar payload) ∧
    ∀ q, parse payload = .ok q → q = documented payload

/-- A parser is exact on a payload just if it refuses it, or the payload is by the grammar. -/
theorem exact_iff {α : Type} {parse : List UInt8 → Except String α}
    {grammar : List UInt8 → Prop} {documented : List UInt8 → α} {payload : List UInt8}
    {loose strict : Prop} (haccepts : (∃ q, parse payload = .ok q) ↔ loose)
    (hgrammar : grammar payload ↔ loose ∧ strict)
    (hvalue : grammar payload → parse payload = .ok (documented payload)) :
    Exact parse grammar documented payload ↔ (loose → strict) := by
  constructor
  · rintro ⟨hiff, -⟩ hloose
    exact (hgrammar.mp (hiff.mp (haccepts.mpr hloose))).2
  · intro h
    have hiff : (∃ q, parse payload = .ok q) ↔ grammar payload := by
      rw [haccepts, hgrammar]
      exact ⟨fun hloose => ⟨hloose, h hloose⟩, And.left⟩
    refine ⟨hiff, fun q hq => ?_⟩
    have hread := hvalue (hiff.mp ⟨q, hq⟩)
    rw [hq] at hread
    exact Except.ok.inj hread

/-- The status parsers accept exactly the documented payloads, with the documented values,
but for payloads whose only fault is a point in another place of its field or a last status
character that is no bit. -/
theorem accepts_grammar_iff (payload : List UInt8) :
    (Exact parseQpigs (Grammar qpigsLen qpigsTable) documentedQpigs payload ↔
      (Loose qpigsLen qpigsTable qpigsReadTable payload →
        (∀ f ∈ qpigsTable, f.PointInPlace payload) ∧ LastBit payload)) ∧
    (Exact parseQpigs2 (Grammar qpigs2Len qpigs2Table) documentedQpigs2 payload ↔
      (Loose qpigs2Len qpigs2Table qpigs2Table payload →
        ∀ f ∈ qpigs2Table, f.PointInPlace payload)) :=
  ⟨exact_iff parseQpigs_accepts_iff qpigs_grammar_iff parseQpigs_of_grammar,
    exact_iff parseQpigs2_accepts_iff qpigs2_grammar_iff parseQpigs2_of_grammar⟩

/-- The sample of the protocol with a last status character that is no bit. -/
def lastBitUnread : List UInt8 :=
  utf8Bytes ("000.0 00.0 226.7 50.0 0997 0825 012 429 54.20 041 080 0062 09.2 196.4 00.00 00000 " ++
    "00010110 00 00 01819 01X")

/-- The sample of the protocol with its first point moved. -/
def pointMoved : List UInt8 := utf8Bytes "0.54 212.5 01156 "

/-- Neither parser is exact: a bit that nobody reads, and a point in another place. -/
theorem accepts_more :
    ¬ Exact parseQpigs (Grammar qpigsLen qpigsTable) documentedQpigs lastBitUnread ∧
      ¬ Exact parseQpigs2 (Grammar qpigs2Len qpigs2Table) documentedQpigs2 pointMoved := by
  have hok : ∀ {α : Type} {x : Except String α}, x.isOk = true → ∃ q, x = .ok q := by
    intro α x h
    cases x with
    | error e => cases h
    | ok q => exact ⟨q, rfl⟩
  constructor
  · rintro ⟨hiff, -⟩
    have hgrammar := hiff.mp (hok (by decide +kernel))
    obtain ⟨byte, hbyte, hbit⟩ := (qpigs_grammar_iff.mp hgrammar).2.2
    have hread : lastBitUnread[105]? = some 0x58 := by decide +kernel
    rw [hread, Option.some_inj] at hbyte
    subst hbyte
    exact absurd hbit (by decide)
  · rintro ⟨hiff, -⟩
    have hgrammar := hiff.mp (hok (by decide +kernel))
    have hpoint := (qpigs2_grammar_iff.mp hgrammar).2 ⟨0, .decimal 2 1⟩ (by decide)
    exact absurd hpoint (by decide +kernel : pointMoved[2]? ≠ some 0x2E)

end HostServices.Inverter
