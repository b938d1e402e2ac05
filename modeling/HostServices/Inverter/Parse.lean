import HostServices.Lib.Bytes
import HostServices.Lib.FromStr
import HostServices.Inverter.Protocol

/-!
# From payloads to readings (`inverter-monitoring/src/parse.rs`)

Every field is read at a fixed offset with a fixed width, and the length of the payload
is checked first. A decimal field is a `Rat` where the source has an `f64`: the exact number
that its digits write, of which the source holds the nearest double.
-/

namespace HostServices.Inverter

open HostServices.Lib

/-! ## Fields -/

/-- `u8::is_ascii_graphic`. -/
def isAsciiGraphic (byte : UInt8) : Bool := 0x21 ≤ byte && byte ≤ 0x7E

/-- `byte as char`. -/
def asChar (byte : UInt8) : Char := Char.ofNat byte.toNat

/-- `{:?}` of a character. -/
def debugCharLit (c : Char) : String :=
  let body := if c = '\'' then ['\\', '\''] else if c = '"' then ['"'] else debugChar c
  String.ofList (['\''] ++ body ++ ['\''])

/-- `{:#04x}` of a byte. -/
def hexByte (byte : UInt8) : String :=
  let digits := Nat.toDigits 16 byte.toNat
  "0x" ++ String.ofList (if digits.length < 2 then '0' :: digits else digits)

/-- `expect_len` -/
def expectLen (command : String) (payload : List UInt8) (want : Nat) : Except String Unit :=
  if payload.length ≠ want then
    .error s!"{command} payload is {payload.length} byte(s), expected exactly {want}"
  else .ok ()

/-- `field`: the text of the bytes at an offset. -/
def field (payload : List UInt8) (offset width : Nat) : Except String String :=
  match slice payload offset (offset + width) with
  | none => .error s!"field at offset {offset} runs past the payload"
  | some bytes =>
    match String.fromUTF8? (ByteArray.mk bytes.toArray) with
    | none => .error s!"field at offset {offset} is not ASCII"
    | some text => .ok text

/-- A fixed-width zero-padded integer. -/
def integer (payload : List UInt8) (offset width : Nat) : Except String Int64 := do
  let text ← field payload offset width
  if text.utf8ByteSize ≠ width ∨ !text.toList.all Char.isDigit then
    .error s!"expected {width} digits at offset {offset}, got {debugStr text}"
  else
    match parseI64 text with
    | some n => .ok n
    | none => .error s!"unparsable integer {debugStr text} at offset {offset}"

/-- The number a decimal text writes: digits with a point somewhere among them. -/
def parseDecimal (text : String) : Option Rat := do
  let (whole, fraction) ← splitOnce '.' text
  let n ← digits (whole.toList ++ fraction.toList)
  some (mkRat n (10 ^ fraction.length))

/-- A fixed-width `NNN.N`-style decimal. -/
def decimal (payload : List UInt8) (offset width : Nat) : Except String Rat := do
  let text ← field payload offset width
  let digits := text.toList.countP Char.isDigit
  if text.utf8ByteSize ≠ width ∨ text.toList.count '.' ≠ 1 ∨ digits ≠ width - 1 then
    .error s!"expected a {width}-character decimal at offset {offset}, got {debugStr text}"
  else
    match parseDecimal text with
    | some n => .ok n
    | none => .error s!"unparsable decimal {debugStr text} at offset {offset}"

/-- `bit`: a digit zero or one. -/
def statusBit (payload : List UInt8) (offset : Nat) : Except String Bool :=
  match payload[offset]? with
  | some byte =>
    if byte = 0x30 then .ok false
    else if byte = 0x31 then .ok true
    else .error s!"expected '0' or '1' at offset {offset}, got {debugCharLit (asChar byte)}"
  | none => .error s!"bit at offset {offset} runs past the payload"

/-- The separators a payload must have; `note` ends the refusal of one that it lacks. -/
def checkSeparators (command note : String) (payload : List UInt8) (offsets : List Nat) :
    Except String Unit :=
  match offsets.find? fun offset => payload.getD offset 0 ≠ 0x20 with
  | some offset =>
    let found := debugCharLit (asChar (payload.getD offset 0))
    .error s!"{command} separator at offset {offset} is {found}, not a space{note}"
  | none => .ok ()

/-! ## Readings -/

/-- Operating mode, `QMOD`. -/
inductive Mode
  | powerOn | standby | line | battery | fault | shutdown | charge | bypass | eco
  deriving DecidableEq, Repr

/-- `Mode::from_code`: the letters that have a name. -/
def Mode.fromCode (code : UInt8) : Option Mode :=
  match asChar code with
  | 'P' => some .powerOn
  | 'S' => some .standby
  | 'L' => some .line
  | 'B' => some .battery
  | 'F' => some .fault
  | 'D' => some .shutdown
  | 'C' => some .charge
  | 'Y' => some .bypass
  | 'E' => some .eco
  | _ => none

/-- `ModeReading`: the letter, and its name if it has one. -/
structure ModeReading where
  code : Char
  mode : Option Mode
  deriving DecidableEq, Repr

/-- `parse_qmod`: one printable letter, known or not. -/
def parseQmod (payload : List UInt8) : Except String ModeReading :=
  match payload with
  | [code] =>
    if !isAsciiGraphic code then
      .error s!"QMOD payload {hexByte code} is not a printable letter"
    else .ok { code := asChar code, mode := Mode.fromCode code }
  | _ => .error s!"QMOD payload is {payload.length} byte(s), expected 1"

/-- `QPIGS`, general status. -/
structure Qpigs where
  gridVoltage : Rat
  gridFrequency : Rat
  outputVoltage : Rat
  outputFrequency : Rat
  outputApparentPower : Int64
  outputActivePower : Int64
  outputLoadPercent : Int64
  busVoltage : Int64
  batteryVoltage : Rat
  batteryChargingCurrent : Int64
  batteryCapacity : Int64
  heatSinkTemperature : Int64
  pv1Current : Rat
  pv1Voltage : Rat
  batteryVoltageFromScc1 : Rat
  batteryDischargeCurrent : Int64
  batteryVoltageOffsetFansOn : Rat
  eepromVersion : Int64
  pv1ChargingPower : Int64
  addSbuPriorityVersion : Bool
  configurationChanged : Bool
  sccFirmwareUpdated : Bool
  loadOn : Bool
  batteryVoltageToSteadyWhileCharging : Bool
  charging : Bool
  chargingScc : Bool
  chargingAc : Bool
  floatCharge : Bool
  switchOn : Bool
  deriving DecidableEq, Repr

/-- `QPIGS_LEN` -/
def qpigsLen : Nat := 106

/-- `QPIGS_SEPARATORS`: the offsets of the blanks. -/
def qpigsSeparators : List Nat :=
  [5, 10, 16, 21, 26, 31, 35, 39, 45, 49, 53, 58, 63, 69, 75, 81, 90, 93, 96, 102]

/-- `parse_qpigs`: the length, the blanks, and then field by field. -/
def parseQpigs (payload : List UInt8) : Except String Qpigs := do
  expectLen "QPIGS" payload qpigsLen
  checkSeparators "QPIGS" " -- field widths have changed" payload qpigsSeparators
  let gridVoltage ← decimal payload 0 5
  let gridFrequency ← decimal payload 6 4
  let outputVoltage ← decimal payload 11 5
  let outputFrequency ← decimal payload 17 4
  let outputApparentPower ← integer payload 22 4
  let outputActivePower ← integer payload 27 4
  let outputLoadPercent ← integer payload 32 3
  let busVoltage ← integer payload 36 3
  let batteryVoltage ← decimal payload 40 5
  let batteryChargingCurrent ← integer payload 46 3
  let batteryCapacity ← integer payload 50 3
  let heatSinkTemperature ← integer payload 54 4
  let pv1Current ← decimal payload 59 4
  let pv1Voltage ← decimal payload 64 5
  let batteryVoltageFromScc1 ← decimal payload 70 5
  let batteryDischargeCurrent ← integer payload 76 5
  let addSbuPriorityVersion ← statusBit payload 82
  let configurationChanged ← statusBit payload 83
  let sccFirmwareUpdated ← statusBit payload 84
  let loadOn ← statusBit payload 85
  let batteryVoltageToSteadyWhileCharging ← statusBit payload 86
  let charging ← statusBit payload 87
  let chargingScc ← statusBit payload 88
  let chargingAc ← statusBit payload 89
  let fansOn ← integer payload 91 2
  let eepromVersion ← integer payload 94 2
  let pv1ChargingPower ← integer payload 97 5
  let floatCharge ← statusBit payload 103
  let switchOn ← statusBit payload 104
  .ok { gridVoltage, gridFrequency, outputVoltage, outputFrequency, outputApparentPower,
        outputActivePower, outputLoadPercent, busVoltage, batteryVoltage,
        batteryChargingCurrent, batteryCapacity, heatSinkTemperature, pv1Current, pv1Voltage,
        batteryVoltageFromScc1, batteryDischargeCurrent,
        batteryVoltageOffsetFansOn := mkRat fansOn.toInt 100, eepromVersion,
        pv1ChargingPower, addSbuPriorityVersion, configurationChanged, sccFirmwareUpdated,
        loadOn, batteryVoltageToSteadyWhileCharging, charging, chargingScc, chargingAc,
        floatCharge, switchOn }

/-- `QPIGS2`, PV2 status. -/
structure Qpigs2 where
  pv2Current : Rat
  pv2Voltage : Rat
  pv2ChargingPower : Int64
  deriving DecidableEq, Repr

/-- `QPIGS2_LEN` -/
def qpigs2Len : Nat := 17

/-- `parse_qpigs2`: the second PV input. -/
def parseQpigs2 (payload : List UInt8) : Except String Qpigs2 := do
  expectLen "QPIGS2" payload qpigs2Len
  checkSeparators "QPIGS2" "" payload [4, 10, 16]
  let pv2Current ← decimal payload 0 4
  let pv2Voltage ← decimal payload 5 5
  let pv2ChargingPower ← integer payload 11 5
  .ok { pv2Current, pv2Voltage, pv2ChargingPower }

/-- `WARNING_FLAGS.len()`. -/
def warningFlags : Nat := 36

/-- `QPIWS`, warning and fault bits. -/
structure Qpiws where
  raw : String
  bits : List Bool
  deriving DecidableEq, Repr

/-- `parse_qpiws`: one digit for each warning. -/
def parseQpiws (payload : List UInt8) : Except String Qpiws := do
  expectLen "QPIWS" payload warningFlags
  let bits ← (List.range warningFlags).mapM (statusBit payload)
  match String.fromUTF8? (ByteArray.mk payload.toArray) with
  | some raw => .ok { raw, bits }
  | none => .error "QPIWS payload is not ASCII" -- not reached: the bits are ASCII

/-- `str::trim` of printable ASCII, where the only white space is the blank. -/
def trimBlanks (text : List Char) : List Char :=
  ((text.dropWhile (· = ' ')).reverse.dropWhile (· = ' ')).reverse

/-- An identity payload: printable ASCII, kept verbatim. -/
def parseIdentity (command : String) (payload : List UInt8) : Except String String :=
  if payload = [] then .error s!"{command} payload is empty"
  else if !payload.all fun byte => isAsciiGraphic byte || byte == 0x20 then
    .error s!"{command} payload is not printable ASCII"
  else .ok (String.ofList (trimBlanks (payload.map asChar)))

end HostServices.Inverter
