import HostServices.Inverter.Session
import HostServices.Lib.Fallible

/-!
# Readings to records (`inverter-monitoring/src/record.rs`)

A poll cycle becomes one status record, and one record for every warning bit that is asserted.

- `Value`, `Record`: what the receiver stores;
- `statusRecord`, `flagRecords`, `identityAttributes`: the source's functions;
- `statusColumns`: the keys of a status record, with what each of them is read from;
- `statusRecord_columns`, `statusRecord_readFrom`: when a column is null, and what it is read from;
- `batch_accounts`: the record of a cycle, and which warnings have one of their own.
-/

namespace HostServices.Inverter

open HostServices.Lib

/-! ## The code -/

/-- `Value`: what a field or an attribute can be. -/
inductive Value
  | str (value : String)
  | int (value : Int64)
  | double (value : Rat)
  | bool (value : Bool)
  | null
  deriving DecidableEq, Repr

/-- `Record`: the name of the event, what tells the records of it apart, and the fields. -/
structure Record where
  eventName : String
  attributes : List (String × Value) := []
  body : List (String × Value) := []
  deriving DecidableEq, Repr

/-- `STATUS` -/
def statusEvent : String := "inverter.status"

/-- `FLAG` -/
def flagEvent : String := "inverter.status.flag"

/-- `WARNING_FLAGS`, in bit order. -/
def warningFlagNames : List String :=
  ["reserved1", "inverter_fault", "bus_over", "bus_under", "bus_soft_fail", "line_fail",
    "opvshort", "inverter_voltage_too_low", "inverter_voltage_too_high", "over_temperature",
    "fan_locked", "battery_voltage_high", "battery_low_alarm", "reserved_overcharge",
    "battery_under_shutdown", "reserved_battery_derating", "over_load", "eeprom_fault",
    "inverter_over_current", "inverter_soft_fail", "self_test_fail", "op_dv_voltage_over",
    "bat_open", "current_sensor_fail", "battery_short", "power_limit", "pv_voltage_high_1",
    "mppt_overload_fault_1", "mppt_overload_warning_1", "battery_too_low_to_charge_1",
    "pv_voltage_high_2", "mppt_overload_fault_2", "mppt_overload_warning_2",
    "battery_too_low_to_charge_2", "unknown1", "unknown2"]

/-- The one bit that is promoted into the status record. -/
def inverterFaultBit : Nat := 1

/-- `Qpiws::asserted_count` -/
def Qpiws.assertedCount (q : Qpiws) : Nat := q.bits.count true

/-- `(bit index, flag name)` for every asserted bit. -/
def Qpiws.asserted (q : Qpiws) : List (Nat × String) :=
  (q.bits.zipIdx.filter (·.1)).map fun bit => (bit.2, warningFlagNames.getD bit.2 "")

/-- `Mode::name`: what the mode is called in the record. -/
def Mode.name : Mode → String
  | .powerOn => "power_on"
  | .standby => "standby"
  | .line => "line"
  | .battery => "battery"
  | .fault => "fault"
  | .shutdown => "shutdown"
  | .charge => "charge"
  | .bypass => "bypass"
  | .eco => "eco"

/-- Whether nothing at all came back. -/
def Cycle.isEmpty (cycle : Cycle) : Bool :=
  cycle.mode.isNone && cycle.qpigs.isNone && cycle.qpigs2.isNone && cycle.qpiws.isNone

/-- `opt`: a value that is absent is null. -/
def opt (value : Option Value) : Value := value.getD .null

/-- `num`: a number that may be absent. -/
def num (value : Option Rat) : Value := opt (value.map .double)

/-- `int`: an integer that may be absent. -/
def int (value : Option Int64) : Value := opt (value.map .int)

/-- `flag`: a boolean that may be absent. -/
def flag (value : Option Bool) : Value := opt (value.map .bool)

/-- Every key is always there, in this order; a value that was not read is null. -/
def statusRecord (cycle : Cycle) : Record :=
  let qpigs := cycle.qpigs
  let qpigs2 := cycle.qpigs2
  let qpiws := cycle.qpiws
  { eventName := statusEvent
    body :=
      [("mode_code", opt (cycle.mode.map fun m => .str m.code.toString)),
        ("mode", opt ((cycle.mode.bind (·.mode)).map fun m => .str m.name)),
        ("grid_voltage_volts", num (qpigs.map (·.gridVoltage))),
        ("grid_frequency_hz", num (qpigs.map (·.gridFrequency))),
        ("output_voltage_volts", num (qpigs.map (·.outputVoltage))),
        ("output_frequency_hz", num (qpigs.map (·.outputFrequency))),
        ("output_apparent_power_va", int (qpigs.map (·.outputApparentPower))),
        ("output_active_power_watts", int (qpigs.map (·.outputActivePower))),
        ("output_load_percent", int (qpigs.map (·.outputLoadPercent))),
        ("battery_voltage_volts", num (qpigs.map (·.batteryVoltage))),
        ("battery_capacity_percent", int (qpigs.map (·.batteryCapacity))),
        ("battery_charging_current_amps", int (qpigs.map (·.batteryChargingCurrent))),
        ("battery_discharge_current_amps", int (qpigs.map (·.batteryDischargeCurrent))),
        ("battery_voltage_from_scc1_volts", num (qpigs.map (·.batteryVoltageFromScc1))),
        ("battery_voltage_offset_fans_on_volts", num (qpigs.map (·.batteryVoltageOffsetFansOn))),
        ("pv1_current_amps", num (qpigs.map (·.pv1Current))),
        ("pv1_voltage_volts", num (qpigs.map (·.pv1Voltage))),
        ("pv1_charging_power_watts", int (qpigs.map (·.pv1ChargingPower))),
        ("pv2_current_amps", num (qpigs2.map (·.pv2Current))),
        ("pv2_voltage_volts", num (qpigs2.map (·.pv2Voltage))),
        ("pv2_charging_power_watts", int (qpigs2.map (·.pv2ChargingPower))),
        ("bus_voltage_volts", int (qpigs.map (·.busVoltage))),
        ("heat_sink_temperature_celsius", int (qpigs.map (·.heatSinkTemperature))),
        ("eeprom_version", int (qpigs.map (·.eepromVersion))),
        ("load_on", flag (qpigs.map (·.loadOn))),
        ("charging", flag (qpigs.map (·.charging))),
        ("charging_scc", flag (qpigs.map (·.chargingScc))),
        ("charging_ac", flag (qpigs.map (·.chargingAc))),
        ("float_charge", flag (qpigs.map (·.floatCharge))),
        ("switch_on", flag (qpigs.map (·.switchOn))),
        ("configuration_changed", flag (qpigs.map (·.configurationChanged))),
        ("scc_firmware_updated", flag (qpigs.map (·.sccFirmwareUpdated))),
        ("add_sbu_priority_version", flag (qpigs.map (·.addSbuPriorityVersion))),
        ("battery_voltage_to_steady_while_charging",
          flag (qpigs.map (·.batteryVoltageToSteadyWhileCharging))),
        ("warnings_raw", opt (qpiws.map fun q => .str q.raw)),
        ("warnings_asserted_count", int (qpiws.map fun q => Int64.ofNat q.assertedCount)),
        ("inverter_fault", flag (qpiws.map fun q => q.bits.getD inverterFaultBit false)),
        ("link_connected_seconds", .int (Int64.ofNat cycle.link.connectedSeconds)),
        ("link_discarded_frames", .int (Int64.ofNat cycle.link.discardedFrames)),
        ("link_unsupported_commands", .int (Int64.ofNat cycle.link.unsupportedCommands))] }

/-- One record per asserted warning bit, and none at all in the normal case. -/
def flagRecords (cycle : Cycle) : List Record :=
  match cycle.qpiws with
  | none => []
  | some qpiws =>
    qpiws.asserted.map fun bit =>
      { eventName := flagEvent
        attributes := [("bit", .str s!"a{bit.1}"), ("flag", .str bit.2)]
        body := [("asserted", .bool true)] }

/-- What a cycle is published as. -/
def records (cycle : Cycle) : List Record := statusRecord cycle :: flagRecords cycle

/-- The attributes that describe the unit itself. -/
def identityAttributes (device : String) (deviceName : Option String)
    (identity : List (String × Option String)) : List (String × Value) :=
  let names := deviceName.toList.map fun name => ("inverter.device_name", .str name)
  ("inverter.device", .str device) :: names ++
    identity.filterMap fun (key, value) =>
      value.map fun value => (s!"inverter.{key}", .str value)

/-! ## What is null -/

/-- Where the value of a column comes from. -/
inductive Source
  /-- the answer to a command -/
  | answer (c : Command)
  /-- the name of the operating mode, whose letter is what is answered -/
  | modeName
  /-- what the program itself knows of the link -/
  | link
  deriving DecidableEq, Repr

/-- The keys of a status record, each with what it is read from. -/
def statusColumns : List (String × Source) :=
  [("mode_code", .answer .qmod), ("mode", .modeName)] ++
    ["grid_voltage_volts", "grid_frequency_hz", "output_voltage_volts", "output_frequency_hz",
      "output_apparent_power_va", "output_active_power_watts", "output_load_percent",
      "battery_voltage_volts", "battery_capacity_percent", "battery_charging_current_amps",
      "battery_discharge_current_amps", "battery_voltage_from_scc1_volts",
      "battery_voltage_offset_fans_on_volts", "pv1_current_amps", "pv1_voltage_volts",
      "pv1_charging_power_watts"].map (·, .answer .qpigs) ++
    ["pv2_current_amps", "pv2_voltage_volts", "pv2_charging_power_watts"].map
      (·, .answer .qpigs2) ++
    ["bus_voltage_volts", "heat_sink_temperature_celsius", "eeprom_version", "load_on",
      "charging", "charging_scc", "charging_ac", "float_charge", "switch_on",
      "configuration_changed", "scc_firmware_updated", "add_sbu_priority_version",
      "battery_voltage_to_steady_while_charging"].map (·, .answer .qpigs) ++
    ["warnings_raw", "warnings_asserted_count", "inverter_fault"].map (·, .answer .qpiws) ++
    ["link_connected_seconds", "link_discarded_frames", "link_unsupported_commands"].map
      (·, .link)

/-- A value is null only if it is absent. -/
theorem opt_map_eq_null {α : Type} {x : Option α} {f : α → Value} (hf : ∀ a, f a ≠ .null) :
    opt (x.map f) = .null ↔ x = none := by
  cases x with
  | none => exact iff_of_true rfl rfl
  | some a => exact iff_of_false (hf a) nofun

theorem opt_mapMap_eq_null {α β : Type} {x : Option α} {f : α → β} {g : β → Value}
    (hg : ∀ b, g b ≠ .null) : opt ((x.map f).map g) = .null ↔ x = none := by
  rw [Option.map_map]
  exact opt_map_eq_null fun a => hg (f a)

/-- The unit told an operating mode that has no name here. -/
def Unnamed (cycle : Cycle) : Prop := ∃ m, cycle.mode = some m ∧ m.mode = none

/-- When the value from this source is null: exactly if the answer is missing, or, for the name
of the operating mode, also if the mode has none; what the link has to say is always known. -/
def Source.Missing (cycle : Cycle) : Source → Prop
  | .answer c => cycle.reading c = none
  | .modeName => cycle.reading .qmod = none ∨ Unnamed cycle
  | .link => False

/-- A field of the status record is the column's, and null exactly if its value is missing. -/
def Column (cycle : Cycle) (column : String × Source) (field : String × Value) : Prop :=
  field.1 = column.1 ∧ (field.2 = .null ↔ column.2.Missing cycle)

/-- A letter that is not one of an operating mode is reported without a name. -/
theorem unnamed_iff {cycle : Cycle} {letter : UInt8} {m : ModeReading}
    (hparse : parseQmod [letter] = .ok m) (hmode : cycle.mode = some m) :
    Unnamed cycle ↔ Mode.fromCode letter = none := by
  rw [parseQmod] at hparse
  split_ifs at hparse
  cases hparse
  constructor
  · rintro ⟨m, hm, hnone⟩
    cases hmode.symm.trans hm
    exact hnone
  · exact fun hnone => ⟨_, hmode, hnone⟩

/-- **Every column is there**, whatever the cycle read, and is null exactly if the value that
stands in it is missing. -/
theorem statusRecord_columns (cycle : Cycle) :
    List.Forall₂ (Column cycle) statusColumns (statusRecord cycle).body := by
  have hqpigs : ∀ {β : Type} (key : String) (f : Qpigs → β) (g : β → Value),
      (∀ b, g b ≠ .null) →
        Column cycle (key, .answer .qpigs) (key, opt ((cycle.qpigs.map f).map g)) := by
    intro β key f g hg
    refine ⟨rfl, (opt_mapMap_eq_null hg).trans ?_⟩
    rw [Source.Missing, Cycle.reading, Option.map_eq_none_iff]
  have hqpigs2 : ∀ {β : Type} (key : String) (f : Qpigs2 → β) (g : β → Value),
      (∀ b, g b ≠ .null) →
        Column cycle (key, .answer .qpigs2) (key, opt ((cycle.qpigs2.map f).map g)) := by
    intro β key f g hg
    refine ⟨rfl, (opt_mapMap_eq_null hg).trans ?_⟩
    rw [Source.Missing, Cycle.reading, Option.map_eq_none_iff]
  have hqpiws : ∀ (key : String) (g : Qpiws → Value), (∀ q, g q ≠ .null) →
      Column cycle (key, .answer .qpiws) (key, opt (cycle.qpiws.map g)) := by
    intro key g hg
    refine ⟨rfl, (opt_map_eq_null hg).trans ?_⟩
    rw [Source.Missing, Cycle.reading, Option.map_eq_none_iff]
  have hqpiws' : ∀ {β : Type} (key : String) (f : Qpiws → β) (g : β → Value),
      (∀ b, g b ≠ .null) →
        Column cycle (key, .answer .qpiws) (key, opt ((cycle.qpiws.map f).map g)) := by
    intro β key f g hg
    rw [Option.map_map]
    exact hqpiws key _ fun q => hg (f q)
  have hmode : Column cycle ("mode_code", .answer .qmod)
      ("mode_code", opt (cycle.mode.map fun m => .str m.code.toString)) := by
    have hnull : opt (cycle.mode.map fun m => .str m.code.toString) = .null ↔ cycle.mode = none :=
      opt_map_eq_null fun _ => nofun
    refine ⟨rfl, hnull.trans ?_⟩
    rw [Source.Missing, Cycle.reading, Option.map_eq_none_iff]
  have hname : Column cycle ("mode", .modeName)
      ("mode", opt ((cycle.mode.bind (·.mode)).map fun m => .str m.name)) := by
    have hnull : opt ((cycle.mode.bind (·.mode)).map fun m => .str m.name) = .null ↔
        cycle.mode.bind (·.mode) = none :=
      opt_map_eq_null fun _ => nofun
    refine ⟨rfl, hnull.trans ?_⟩
    rw [Source.Missing, Cycle.reading, Option.map_eq_none_iff, Unnamed]
    cases cycle.mode with
    | none => exact iff_of_true rfl (.inl rfl)
    | some m =>
      refine ⟨fun hnone => .inr ⟨m, rfl, hnone⟩, ?_⟩
      rintro (hnone | ⟨m', hm', hnone⟩)
      · cases hnone
      · cases hm'
        exact hnone
  refine .cons hmode (.cons hname ?_)
  -- every other column is one of a number of shapes
  repeat' first
    | exact .nil
    | refine .cons (hqpigs _ _ _ fun _ => nofun) ?_
    | refine .cons (hqpigs2 _ _ _ fun _ => nofun) ?_
    | refine .cons (hqpiws _ _ fun _ => nofun) ?_
    | refine .cons (hqpiws' _ _ _ fun _ => nofun) ?_
    | refine .cons ⟨rfl, iff_of_false nofun not_false⟩ ?_

/-! ## Whose value is it? -/

/-- Two cycles have the same to say of what this source tells. -/
def Source.Same (cycle cycle' : Cycle) : Source → Prop
  | .answer c => cycle.reading c = cycle'.reading c
  | .modeName => cycle.reading .qmod = cycle'.reading .qmod
  | .link => cycle.link = cycle'.link

/-- The fields of two cycles in this column are the same where its source is. -/
def ReadFrom (cycle cycle' : Cycle) (column : String × Source)
    (fields : (String × Value) × (String × Value)) : Prop :=
  column.2.Same cycle cycle' → fields.1 = fields.2

/-- **Every column is read from its own answer alone**: what the other commands answered, or did
not, makes no difference to it. -/
theorem statusRecord_readFrom (cycle cycle' : Cycle) :
    List.Forall₂ (ReadFrom cycle cycle') statusColumns
      ((statusRecord cycle).body.zip (statusRecord cycle').body) := by
  have hmode : cycle.reading .qmod = cycle'.reading .qmod → cycle.mode = cycle'.mode :=
    fun h => Option.map_injective (fun _ _ => Reading.mode.inj) h
  have hqpigs : cycle.reading .qpigs = cycle'.reading .qpigs → cycle.qpigs = cycle'.qpigs :=
    fun h => Option.map_injective (fun _ _ => Reading.qpigs.inj) h
  have hqpigs2 : cycle.reading .qpigs2 = cycle'.reading .qpigs2 → cycle.qpigs2 = cycle'.qpigs2 :=
    fun h => Option.map_injective (fun _ _ => Reading.qpigs2.inj) h
  have hqpiws : cycle.reading .qpiws = cycle'.reading .qpiws → cycle.qpiws = cycle'.qpiws :=
    fun h => Option.map_injective (fun _ _ => Reading.qpiws.inj) h
  have hlink : Source.link.Same cycle cycle' → cycle.link = cycle'.link := id
  refine .cons (fun h => by rw [hmode h]) (.cons (fun h => by rw [hmode h]) ?_)
  -- the columns as they come, each with the answer it is read from
  repeat' first
    | exact .nil
    | refine .cons (fun h => by rw [hqpigs h]) ?_
    | refine .cons (fun h => by rw [hqpigs2 h]) ?_
    | refine .cons (fun h => by rw [hqpiws h]) ?_
    | refine .cons (fun h => by rw [hlink h]) ?_

/-! ## Warnings -/

/-- The warnings that are asserted, each with its name. -/
theorem Qpiws.mem_asserted {q : Qpiws} {i : Nat} {name : String} :
    (i, name) ∈ q.asserted ↔ q.bits[i]? = some true ∧ name = warningFlagNames.getD i "" := by
  rw [asserted, List.mem_map]
  constructor
  · rintro ⟨⟨set, j⟩, hmem, heq⟩
    obtain ⟨hmem, hset⟩ := List.mem_filter.mp hmem
    cases heq
    dsimp only at hset
    subst hset
    exact ⟨List.mem_zipIdx_iff_getElem?.mp hmem, rfl⟩
  · rintro ⟨hbit, rfl⟩
    exact ⟨(true, i), List.mem_filter.mpr ⟨List.mem_zipIdx_iff_getElem?.mpr hbit, rfl⟩, rfl⟩

/-- Their number is the one that is published. -/
theorem Qpiws.length_asserted (q : Qpiws) : q.asserted.length = q.assertedCount := by
  have hcount : ∀ (bits : List Bool) (n : Nat),
      ((bits.zipIdx n).filter (·.1)).length = bits.count true := by
    intro bits
    induction bits with
    | nil => exact fun _ => rfl
    | cons set bits ih =>
      intro n
      rw [List.zipIdx_cons, List.filter_cons, List.count_cons]
      cases set with
      | true => exact congrArg (· + 1) (ih (n + 1))
      | false => exact ih (n + 1)
  rw [asserted, List.length_map, assertedCount, hcount]

/-- A payload that was read has a bit for every warning. -/
theorem length_bits_of_parse {payload : List UInt8} {q : Qpiws} (h : parseQpiws payload = .ok q) :
    q.bits.length = warningFlags := by
  obtain ⟨-, -, h⟩ := bind_eq_ok.mp h
  obtain ⟨bits, hbits, h⟩ := bind_eq_ok.mp h
  split at h
  · cases h
    rw [← (mapM_eq_ok.mp hbits).length_eq, List.length_range]
  · cases h

theorem nodup_warningFlagNames : warningFlagNames.Nodup := by decide +kernel

/-- The warning of this name has a record. -/
def Flagged (cycle : Cycle) (name : String) : Prop :=
  ∃ r ∈ flagRecords cycle, ("flag", .str name) ∈ r.attributes

/-- There is a flag record for a warning just when its bit is set. -/
theorem flagged_iff {cycle : Cycle} {q : Qpiws} (hq : cycle.qpiws = some q)
    (hbits : q.bits.length = warningFlags) {i : Nat} (hi : i < warningFlags) :
    Flagged cycle (warningFlagNames.getD i "") ↔ q.bits[i]? = some true := by
  have hlength : warningFlagNames.length = warningFlags := by decide +kernel
  rw [Flagged, flagRecords, hq]
  constructor
  · rintro ⟨r, hr, hname⟩
    obtain ⟨⟨j, name⟩, hj, rfl⟩ := List.mem_map.mp hr
    obtain ⟨hbit, rfl⟩ := Qpiws.mem_asserted.mp hj
    have hsame : warningFlagNames.getD i "" = warningFlagNames.getD j "" := by
      simpa using hname
    have hj : j < warningFlags := hbits ▸ (List.getElem?_eq_some_iff.mp hbit).1
    rw [List.getD_eq_getElem?_getD, List.getD_eq_getElem?_getD,
      List.getElem?_eq_getElem (hlength ▸ hi), List.getElem?_eq_getElem (hlength ▸ hj),
      Option.getD_some, Option.getD_some] at hsame
    rw [nodup_warningFlagNames.getElem_inj_iff.mp hsame]
    exact hbit
  · intro hbit
    exact ⟨_, List.mem_map_of_mem (Qpiws.mem_asserted.mpr ⟨hbit, rfl⟩),
      List.mem_cons_of_mem _ List.mem_cons_self⟩

/-- **A batch accounts for its cycle**: whatever was read, the status record has every column,
read from its own answer alone, and null exactly where this is missing or, in the column for the
name of the operating mode, the letter that was answered has no name; and there is a flag record
for each warning that the answer to `QPIWS` asserts, and for no other; the number of them is what
the status record says, as is whether the inverter's fault is among them. -/
theorem batch_accounts {cycle : Cycle}
    (h : ∀ q, cycle.qpiws = some q → ∃ payload, parseQpiws payload = .ok q) :
    List.Forall₂ (Column cycle) statusColumns (statusRecord cycle).body ∧
    (∀ cycle', List.Forall₂ (ReadFrom cycle cycle') statusColumns
      ((statusRecord cycle).body.zip (statusRecord cycle').body)) ∧
    (∀ letter m, parseQmod [letter] = .ok m → cycle.mode = some m →
      (Unnamed cycle ↔ Mode.fromCode letter = none)) ∧
    (cycle.qpiws = none → records cycle = [statusRecord cycle]) ∧
    ∀ q, cycle.qpiws = some q →
      (∀ i < warningFlags, Flagged cycle (warningFlagNames.getD i "") ↔
        q.bits[i]? = some true) ∧
      ("warnings_asserted_count", .int (Int64.ofNat (flagRecords cycle).length))
        ∈ (statusRecord cycle).body ∧
      (("inverter_fault", .bool true) ∈ (statusRecord cycle).body ↔
        Flagged cycle "inverter_fault") := by
  refine ⟨statusRecord_columns cycle, statusRecord_readFrom cycle, fun letter m => unnamed_iff,
    fun hnone => ?_, fun q hq => ?_⟩
  · rw [records, flagRecords, hnone]
  · obtain ⟨payload, hparse⟩ := h q hq
    have hbits := length_bits_of_parse hparse
    refine ⟨fun i hi => flagged_iff hq hbits hi, ?_, ?_⟩
    · rw [flagRecords, hq]
      dsimp only
      rw [List.length_map, Qpiws.length_asserted, statusRecord, hq]
      simp [int, opt]
    · have hfault : warningFlagNames.getD inverterFaultBit "" = "inverter_fault" := by
        decide +kernel
      have hone : inverterFaultBit < q.bits.length := by rw [hbits]; decide
      rw [← hfault, flagged_iff hq hbits (by decide), statusRecord, hq, hfault,
        List.getElem?_eq_getElem hone, Option.some_inj]
      simp [flag, opt, num, int, List.getD_eq_getElem?_getD, List.getElem?_eq_getElem hone]

/-- `QPIWS` with the second and the sixth of its bits set. -/
def samplePayload : List UInt8 := [0x30, 0x31, 0x30, 0x30, 0x30, 0x31] ++ List.replicate 30 0x30

/-- A cycle whose operating mode is told as a letter without a name. -/
def sampleCycle : Cycle :=
  { mode := (parseQmod [0x5A]).toOption, qpiws := (parseQpiws samplePayload).toOption }

theorem batch_accounts_sample :
    ∃ q, sampleCycle.qpiws = some q ∧ Flagged sampleCycle "line_fail" ∧
      ¬ Flagged sampleCycle "bus_over" ∧
      ("inverter_fault", .bool true) ∈ (statusRecord sampleCycle).body ∧
      Unnamed sampleCycle := by
  have hparse : (parseQpiws samplePayload).isOk := by decide +kernel
  have hletter : parseQmod [0x5A] = .ok { code := 'Z', mode := none } := by decide +kernel
  rcases hread : parseQpiws samplePayload with e | q
  · rw [hread] at hparse
    cases hparse
  have hq : sampleCycle.qpiws = some q := by rw [sampleCycle, hread]; rfl
  have hmode : sampleCycle.mode = some { code := 'Z', mode := none } := by
    rw [sampleCycle, hletter]
    rfl
  have hbits : sampleCycle.qpiws.map (fun q => (q.bits[1]?, q.bits[2]?, q.bits[5]?))
      = some (some true, some false, some true) := by decide +kernel
  rw [hq, Option.map_some, Option.some_inj, Prod.mk.injEq, Prod.mk.injEq] at hbits
  obtain ⟨-, -, hunnamed, -, h⟩ := @batch_accounts sampleCycle fun q' hq' =>
    ⟨samplePayload, by rw [hread, ← Option.some_inj.mp (hq.symm.trans hq')]⟩
  obtain ⟨hflagged, -, hfault⟩ := h q hq
  have hone := (hflagged 1 (by decide)).mpr hbits.1
  have htwo := mt (hflagged 2 (by decide)).mp
  have hfive := (hflagged 5 (by decide)).mpr hbits.2.2
  exact ⟨q, hq, hfive, htwo (by rw [hbits.2.1]; decide), hfault.mpr hone,
    (hunnamed _ _ hletter hmode).mpr rfl⟩

end HostServices.Inverter
