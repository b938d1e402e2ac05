import HostServices.Lib.Hex

/-!
# The D-Bus path of a unit (`system-metrics/src/systemd.rs`)

systemd publishes a unit under a path whose last label is the escaped name of the unit. The
collector escapes the name itself, byte by byte, instead of asking systemd for the path.

- `busUnitPath`: the source's function;
- `systemdUnitPath`: what systemd does, which treats the first byte in its own way and has a
  label for the empty name;
- `busUnitPath_eq_iff`: the names for which the two agree;
- `busUnitPath_injective`: no two names share a path.
-/

namespace HostServices.SystemMetrics

open HostServices.Lib

/-! ## The code -/

/-- What the object paths of units begin with. -/
def unitPrefix : List Char := "/org/freedesktop/systemd1/unit/".toList

/-- What the loop of `bus_unit_path` pushes for a byte. -/
def escapeUnitByte (byte : UInt8) : List Char :=
  if isAsciiLetter byte || isAsciiDigit byte then [byteChar byte] else '_' :: hexByte byte

/-- The source's path of a unit: every byte is escaped on its own. -/
def busUnitPath (unit : String) : String :=
  String.ofList (unitPrefix ++ (utf8Bytes unit).flatMap escapeUnitByte)

/-! ## What systemd does -/

/-- A byte of a label: a letter is kept, and a digit that does not come first. -/
def labelByte (first : Bool) (byte : UInt8) : List Char :=
  if isAsciiLetter byte || (isAsciiDigit byte && !first) then [byteChar byte]
  else '_' :: hexByte byte

/-- The label of a name. -/
def busLabel : List UInt8 → List Char
  | [] => ['_']
  | byte :: bytes => labelByte true byte ++ bytes.flatMap (labelByte false)

/-- The path under which systemd has the unit. -/
def systemdUnitPath (unit : String) : String :=
  String.ofList (unitPrefix ++ busLabel (utf8Bytes unit))

/-! ## Where they agree -/

theorem labelByte_false (byte : UInt8) : labelByte false byte = escapeUnitByte byte := by
  rw [labelByte, Bool.not_false, Bool.and_true, escapeUnitByte]

theorem labelByte_true_eq_iff {byte : UInt8} :
    escapeUnitByte byte = labelByte true byte ↔ isAsciiDigit byte = false := by
  rw [labelByte, Bool.not_true, Bool.and_false, Bool.or_false, escapeUnitByte]
  by_cases hdigit : isAsciiDigit byte = true
  · rw [not_isAsciiLetter_of_digit hdigit, hdigit, Bool.false_or, if_pos rfl,
      if_neg Bool.false_ne_true]
    constructor
    · intro h
      cases (List.cons.inj h).2
    · intro h
      cases h
  · rw [Bool.not_eq_true] at hdigit
    rw [hdigit, Bool.or_false]
    exact ⟨fun _ => rfl, fun _ => rfl⟩

/-- The code's label is systemd's. -/
theorem flatMap_eq_busLabel_iff {bytes : List UInt8} :
    bytes.flatMap escapeUnitByte = busLabel bytes ↔
      ∃ byte rest, bytes = byte :: rest ∧ isAsciiDigit byte = false := by
  cases bytes with
  | nil =>
    constructor
    · intro h
      cases h
    · rintro ⟨byte, rest, h, _⟩
      cases h
  | cons byte rest =>
    rw [busLabel, List.flatMap_cons, funext labelByte_false, List.append_cancel_right_eq,
      labelByte_true_eq_iff]
    constructor
    · intro h
      exact ⟨byte, rest, rfl, h⟩
    · rintro ⟨_, _, heq, h⟩
      obtain ⟨rfl, rfl⟩ := List.cons.inj heq
      exact h

/-- **The path is systemd's just if the name does not begin with a digit.** -/
theorem busUnitPath_eq_iff {unit : String} :
    busUnitPath unit = systemdUnitPath unit ↔
      ∃ byte rest, utf8Bytes unit = byte :: rest ∧ isAsciiDigit byte = false := by
  rw [busUnitPath, systemdUnitPath, String.ofList_inj, List.append_cancel_left_eq]
  exact flatMap_eq_busLabel_iff

/-! ## Distinct names -/

/-- A byte that is kept is not taken for the mark of an escape. -/
theorem byteChar_ne_mark {byte : UInt8}
    (h : (isAsciiLetter byte || isAsciiDigit byte) = true) : byteChar byte ≠ '_' := by
  intro hmark
  have hbyte : byte = 0x5F := byteChar_injective hmark
  rw [hbyte] at h
  exact absurd h (by decide)

/-- The escapes can be told apart. -/
theorem prefixCode_escapeUnitByte : PrefixCode escapeUnitByte where
  ne_nil := by
    intro byte
    rw [escapeUnitByte]
    split_ifs <;> exact List.cons_ne_nil _ _
  append_inj := by
    intro b c s t h
    unfold escapeUnitByte at h
    split_ifs at h with hb hc hc
    · obtain ⟨hchar, hrest⟩ := List.cons.inj h
      exact ⟨byteChar_injective hchar, hrest⟩
    · exact absurd (List.cons.inj h).1 (byteChar_ne_mark hb)
    · exact absurd (List.cons.inj h).1.symm (byteChar_ne_mark hc)
    · exact prefixCode_hexByte.append_inj (List.cons.inj h).2

/-- Different units have different paths. -/
theorem busUnitPath_injective : Function.Injective busUnitPath := by
  intro unit unit' h
  rw [busUnitPath, busUnitPath, String.ofList_inj, List.append_cancel_left_eq] at h
  exact utf8Bytes_injective (prefixCode_escapeUnitByte.flatMap_injective h)

/-! ## Main result -/

/-- **The path is systemd's for every name that does not begin with a digit and is not
empty**, and for no other; no two names share a path. -/
theorem busUnitPath_systemd (unit : String) :
    (busUnitPath unit = systemdUnitPath unit ↔
      ∃ byte rest, utf8Bytes unit = byte :: rest ∧ isAsciiDigit byte = false) ∧
    ∀ unit', busUnitPath unit = busUnitPath unit' → unit = unit' :=
  ⟨busUnitPath_eq_iff, fun _ h => busUnitPath_injective h⟩

/-- systemd escapes the first digit of `3proxy.timer`. -/
theorem busUnitPath_digit :
    busUnitPath "3proxy.timer" = "/org/freedesktop/systemd1/unit/3proxy_2etimer" ∧
    systemdUnitPath "3proxy.timer" = "/org/freedesktop/systemd1/unit/_33proxy_2etimer" ∧
    busUnitPath "3proxy.timer" ≠ systemdUnitPath "3proxy.timer" := by
  refine ⟨by decide +kernel, by decide +kernel, ?_⟩
  rw [Ne, busUnitPath_eq_iff]
  rintro ⟨byte, rest, hbytes, hdigit⟩
  have hhead : (0x33 : UInt8) = byte := (List.cons.inj hbytes).1
  rw [← hhead] at hdigit
  cases hdigit

end HostServices.SystemMetrics
