import HostServices.Lib.Bits
import HostServices.Lib.Extremum
import HostServices.Lib.Fallible
import HostServices.Bms.Frame

/-!
# From frames to readings (`bms-monitoring/src/parse.rs`)

Numbers are little-endian at fixed offsets, and are indexed without a check: a frame that
is too short panics. A scaled number is kept exactly; the source holds the nearest double.

- `parseRealtime`, `aggregate`, `assertedAlarms`: the functions of the source;
- `Frame.word`, `Frame.cell`: what stands at an offset of a frame;
- `parseRealtime_of_length`, `aggregate_spec`, `assertedAlarms_eq`: what they find.
-/

namespace HostServices.Bms

open HostServices.Lib

/-! ## Primitives -/

/-- `u16_at`: two bytes, the low one first. -/
def u16At (frame : List UInt8) (offset : Nat) : Except Stop UInt16 := do
  let b0 ← index frame offset
  let b1 ← index frame (offset + 1)
  .ok (UInt16.ofNat (leNat [b0, b1]))

/-- `i16_at`: the same two bytes, with a sign. -/
def i16At (frame : List UInt8) (offset : Nat) : Except Stop Int16 :=
  (u16At frame offset).map UInt16.toInt16

/-- `u32_at`: four bytes, the low one first. -/
def u32At (frame : List UInt8) (offset : Nat) : Except Stop UInt32 := do
  let b0 ← index frame offset
  let b1 ← index frame (offset + 1)
  let b2 ← index frame (offset + 2)
  let b3 ← index frame (offset + 3)
  .ok (UInt32.ofNat (leNat [b0, b1, b2, b3]))

/-- `i32_at`: the same four bytes, with a sign. -/
def i32At (frame : List UInt8) (offset : Nat) : Except Stop Int32 :=
  (u32At frame offset).map UInt32.toInt32

/-- Volts, amps, watts and amp-hours are all ÷1000. -/
def milli (raw : Int) : Rat := mkRat raw 1000

/-- Temperatures are ÷10. -/
def deci (raw : Int) : Rat := mkRat raw 10

/-- `{:02x}` of a byte. -/
def hex02 (byte : UInt8) : String :=
  let digits := Nat.toDigits 16 byte.toNat
  String.ofList (if digits.length < 2 then '0' :: digits else digits)

/-! ## Cells -/

/-- One cell, as the frame reports it; the index is 1-based. -/
structure Cell where
  index : UInt32
  voltage : Rat
  resistance : Rat
  deriving DecidableEq, Repr

/-- Aggregates over the cell array, computed here because the frame's own come from another
sample. -/
structure CellAggregates where
  average : Rat
  minimum : Rat
  maximum : Rat
  delta : Rat
  minIndex : UInt32
  maxIndex : UInt32
  deriving DecidableEq, Repr

/-- The variables of the loop in `aggregate`. -/
structure Running where
  minimum : Cell
  maximum : Cell
  total : Rat
  deriving DecidableEq, Repr

/-- The body of the loop in `aggregate`. -/
def Running.add (running : Running) (cell : Cell) : Running where
  minimum := if cell.voltage < running.minimum.voltage then cell else running.minimum
  maximum := if cell.voltage > running.maximum.voltage then cell else running.maximum
  total := running.total + cell.voltage

/-- `aggregate`: the extremes and the average of the cells, if there are any. -/
def aggregate (cells : List Cell) : Option CellAggregates :=
  match cells with
  | [] => none
  | first :: _ =>
    let out := cells.foldl Running.add ⟨first, first, 0⟩
    some
      { average := out.total / cells.length
        minimum := out.minimum.voltage
        maximum := out.maximum.voltage
        delta := out.maximum.voltage - out.minimum.voltage
        minIndex := out.minimum.index
        maxIndex := out.maximum.index }

/-! ## Realtime frames -/

/-- The protection-release countdowns. -/
structure ProtectionRelease where
  dischargeOvercurrent : UInt16
  dischargeShortCircuit : UInt16
  chargeOvercurrent : UInt16
  chargeShortCircuit : UInt16
  undervoltage : UInt16
  overvoltage : UInt16
  deriving DecidableEq, Repr

/-- What a realtime frame says. -/
structure Realtime where
  cells : List Cell
  cellStatus : UInt32
  packVoltage : Rat
  packPower : Rat
  packCurrent : Rat
  mosTemperature : Rat
  temperatures : Vector (Option Rat) 5
  soc : UInt8
  soh : UInt8
  remainingCapacity : Rat
  fullChargeCapacity : Rat
  cycleCount : UInt32
  cycleCapacity : Rat
  balanceCurrent : Rat
  balancing : Bool
  chargeMosfetOn : Bool
  dischargeMosfetOn : Bool
  heatingOn : Bool
  sysAlarm : UInt32
  userAlarm : UInt16
  uptimeSeconds : UInt32
  protectionRelease : ProtectionRelease
  deriving DecidableEq, Repr

/-- `Realtime::aggregates`. -/
def Realtime.aggregates (reading : Realtime) : Option CellAggregates := aggregate reading.cells

/-- A channel that is not fitted reads exactly 0. -/
def optionalTemperature (raw : Int16) : Option Rat :=
  if raw ≠ 0 then some (deci raw.toInt) else none

/-- The cell of a slot. -/
def cellAt (data : List UInt8) (slot : Nat) : Except Stop Cell := do
  let voltage ← u16At data (6 + 2 * slot)
  let resistance ← u16At data (80 + 2 * slot)
  .ok { index := UInt32.ofNat slot + 1, voltage := milli voltage.toNat
        resistance := milli resistance.toNat }

/-- `parse_realtime`: every value is read at its own offset. -/
def parseRealtime (frame : Frame) : Except Stop Realtime :=
  if frame.code ≠ realtime then
    .error (.err s!"expected a 0x02 realtime frame, got 0x{hex02 frame.code}")
  else do
    let data := frame.data
    -- presence comes from the bitmap: a cell that has collapsed to 0 V is present
    let cellStatus ← u32At data 70
    let slots := (List.range 32).filter fun slot => cellStatus &&& 1 <<< UInt32.ofNat slot ≠ 0
    let cells ← slots.mapM (cellAt data)
    let current ← i32At data 158
    let packCurrent := milli current.toInt
    -- an unsigned magnitude: the direction is in the current only
    let watt ← u32At data 154
    let magnitude := milli watt.toNat
    let packPower := if packCurrent < 0 then -magnitude else magnitude
    let packVoltage ← i32At data 150
    let mosTemperature ← i16At data 144
    let temperature1 ← i16At data 162
    let temperature2 ← i16At data 164
    let temperature3 ← i16At data 252
    let temperature4 ← i16At data 254
    let temperature5 ← i16At data 256
    let soc ← index data 173
    let soh ← index data 190
    let remainingCapacity ← u32At data 174
    let fullChargeCapacity ← u32At data 178
    let cycleCount ← u32At data 182
    let cycleCapacity ← u32At data 186
    let balanceCurrent ← i16At data 170
    let balancing ← index data 172
    let chargeMosfetOn ← index data 198
    let dischargeMosfetOn ← index data 199
    let heatingOn ← index data 215
    let sysAlarm ← u32At data 166
    let userAlarm ← u16At data 200
    let uptimeSeconds ← u32At data 194
    let dischargeOvercurrent ← u16At data 202
    let dischargeShortCircuit ← u16At data 204
    let chargeOvercurrent ← u16At data 206
    let chargeShortCircuit ← u16At data 208
    let undervoltage ← u16At data 210
    let overvoltage ← u16At data 212
    .ok
      { cells, cellStatus, packVoltage := milli packVoltage.toInt, packPower, packCurrent
        mosTemperature := deci mosTemperature.toInt
        temperatures := #v[some (deci temperature1.toInt), some (deci temperature2.toInt),
          optionalTemperature temperature3, optionalTemperature temperature4,
          optionalTemperature temperature5]
        soc, soh, remainingCapacity := milli remainingCapacity.toNat
        fullChargeCapacity := milli fullChargeCapacity.toNat, cycleCount
        cycleCapacity := milli cycleCapacity.toNat, balanceCurrent := milli balanceCurrent.toInt
        balancing := balancing != 0, chargeMosfetOn := chargeMosfetOn != 0
        dischargeMosfetOn := dischargeMosfetOn != 0, heatingOn := heatingOn != 0
        sysAlarm, userAlarm, uptimeSeconds
        protectionRelease :=
          { dischargeOvercurrent, dischargeShortCircuit, chargeOvercurrent, chargeShortCircuit
            undervoltage, overvoltage } }

/-! ## Alarms -/

/-- The number of `width` bytes at `offset`. -/
def Frame.word (frame : Frame) (offset width : Nat) : Nat :=
  leNat ((frame.data.drop offset).take width)

/-- The slots that `cellStatus` marks as present, in ascending order. -/
def Frame.slots (frame : Frame) : List Nat := (frame.word 70 4).bitIndices

/-- The voltage in a slot, in volts. -/
def Frame.voltage (frame : Frame) (slot : Nat) : Rat := milli (frame.word (6 + 2 * slot) 2)

/-- The wire resistance in a slot, in ohms. -/
def Frame.resistance (frame : Frame) (slot : Nat) : Rat := milli (frame.word (80 + 2 * slot) 2)

/-- The cell that a slot holds; cells are counted from one. -/
def Frame.cell (frame : Frame) (slot : Nat) : Cell where
  index := UInt32.ofNat slot + 1
  voltage := frame.voltage slot
  resistance := frame.resistance slot

end HostServices.Bms
