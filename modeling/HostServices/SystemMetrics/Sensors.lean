import HostServices.Lib.Text

/-!
# Sensor files (`system-metrics/src/sensors.rs`)

The files of a hwmon chip are named after what they hold. Of all the names that may stand there
the producer reads those of inputs and of alarms, and what it reports is keyed by the sensor, the
kind and the threshold that the name gives.

- `parseSensorFilename`: the source's function;
- `SensorFile.WellFormed`, `SensorFile.filename`: what there is to name, and its name;
- `sensor_names`: just these names are read, and no two files are reported under one key.
-/

namespace HostServices.SystemMetrics.Sensors

open HostServices.Lib

/-! ## The code -/

/-- `Reading`: a value, or an alarm that may be about a threshold. -/
inductive Reading
  | input (bodyKey : String)
  | alarm (threshold : Option (List Char))
  deriving DecidableEq

/-- `SensorFile`: the sensor that a file belongs to, its kind, and what the file says. -/
structure SensorFile where
  sensor : List Char
  kind : List Char
  reading : Reading
  deriving DecidableEq

/-- The arms of `body_key`. -/
def bodyKeys : List (String × String) :=
  [("temp", "milli_celsius"), ("fan", "rpm"), ("in", "milli_volts"), ("curr", "milli_amps"),
    ("power", "micro_watts"), ("energy", "micro_joules"), ("humidity", "milli_percent")]

/-- `body_key`: the field that readings of a kind are published in. -/
def bodyKey (kind : List Char) : Option String := bodyKeys.lookup (String.ofList kind)

/-- `split_prefix`: the kind in front of the digits, if it is a known one. -/
def splitPrefix (base : List Char) : Option (List Char) :=
  let kind := base.takeWhile fun c => !c.isDigit
  let num := base.dropWhile fun c => !c.isDigit
  if num = [] ∨ num.all Char.isDigit = false then none
  else (bodyKey kind).map fun _ => kind

/-- The base and the threshold of an alarm, cut at the last underscore. -/
def splitThreshold (rest : List Char) : List Char × Option (List Char) :=
  match cutAtLast ['_'] rest with
  | some (base, threshold) => (base, some threshold)
  | none => (rest, none)

/-- `parse_sensor_filename` -/
def parseSensorFilename (name : List Char) : Option SensorFile :=
  match stripSuffix "_input".toList name with
  | some base =>
    (splitPrefix base).bind fun kind =>
      (bodyKey kind).map fun key => ⟨base, kind, .input key⟩
  | none =>
    (stripSuffix "_alarm".toList name).bind fun rest =>
      let (base, threshold) := splitThreshold rest
      (splitPrefix base).map fun _ => ⟨base, "alarm".toList, .alarm threshold⟩

/-! ## Names -/

/-- A known kind of sensor, and a number. -/
def IsSensor (sensor kind : List Char) (key : String) : Prop :=
  ∃ num, sensor = kind ++ num ∧ num ≠ [] ∧ (∀ c ∈ num, c.isDigit = true) ∧ bodyKey kind = some key

/-- The parts are those of some file of a chip. -/
def SensorFile.WellFormed (file : SensorFile) : Prop :=
  match file.reading with
  | .input key => IsSensor file.sensor file.kind key
  | .alarm threshold => file.kind = "alarm".toList ∧
      (∃ kind key, IsSensor file.sensor kind key) ∧ ∀ t, threshold = some t → '_' ∉ t

/-- The name of the file. -/
def SensorFile.filename (file : SensorFile) : List Char :=
  match file.reading with
  | .input _ => file.sensor ++ "_input".toList
  | .alarm none => file.sensor ++ "_alarm".toList
  | .alarm (some t) => (file.sensor ++ '_' :: t) ++ "_alarm".toList

/-- The attribute of the record. -/
def SensorFile.threshold (file : SensorFile) : Option (List Char) :=
  match file.reading with
  | .input _ => none
  | .alarm threshold => threshold

/-! ## Kinds -/

theorem mem_of_bodyKey {kind : List Char} {key : String} (h : bodyKey kind = some key) :
    (String.ofList kind, key) ∈ bodyKeys := by
  obtain ⟨front, back, hsplit, -⟩ := List.lookup_eq_some_iff.mp h
  rw [hsplit]
  exact List.mem_append_right _ List.mem_cons_self

theorem plain_of_bodyKey {kind : List Char} {key : String} (h : bodyKey kind = some key) :
    (∀ c ∈ kind, c.isDigit = false ∧ c ≠ '_') ∧ kind ≠ "alarm".toList := by
  have hall : bodyKeys.all (fun p => p.1.toList.all (fun c => !c.isDigit && c != '_')
      && p.1 != "alarm") = true := by
    decide
  have hkind := List.all_eq_true.mp hall _ (mem_of_bodyKey h)
  simp only [String.toList_ofList, Bool.and_eq_true, List.all_eq_true, Bool.not_eq_true',
    bne_iff_ne, ne_eq] at hkind
  refine ⟨hkind.1, fun halarm => hkind.2 ?_⟩
  rw [halarm, String.ofList_toList]

/-- What is split off is the kind of a sensor. -/
theorem splitPrefix_eq_some {base kind : List Char} :
    splitPrefix base = some kind ↔ ∃ key, IsSensor base kind key := by
  constructor
  · intro h
    rw [splitPrefix] at h
    split_ifs at h with hnum
    obtain ⟨key, hkey, rfl⟩ := Option.map_eq_some_iff.mp h
    rw [not_or] at hnum
    refine ⟨key, _, List.takeWhile_append_dropWhile.symm, hnum.1, ?_, hkey⟩
    exact List.all_eq_true.mp (eq_true_of_ne_false hnum.2)
  · rintro ⟨key, num, rfl, hne, hdigits, hkey⟩
    have hkind : ∀ c ∈ kind, (!c.isDigit) = true := fun c hc => by
      rw [((plain_of_bodyKey hkey).1 c hc).1]
      rfl
    have hfirst : num.takeWhile (fun c => !c.isDigit) = [] ∧
        num.dropWhile (fun c => !c.isDigit) = num := by
      cases num with
      | nil => exact absurd rfl hne
      | cons c num =>
        have hc : ¬ (!c.isDigit) = true := by rw [hdigits c List.mem_cons_self]; decide
        exact ⟨List.takeWhile_cons_of_neg hc, List.dropWhile_cons_of_neg hc⟩
    rw [splitPrefix, List.takeWhile_append_of_pos hkind, List.dropWhile_append_of_pos hkind,
      hfirst.1, hfirst.2, List.append_nil, hkey]
    have hall : num.all Char.isDigit = true := List.all_eq_true.mpr hdigits
    rw [if_neg (by simp [hne, hall])]
    rfl

/-- No underscore in it, where a threshold would be cut off. -/
theorem IsSensor.not_mem {sensor kind : List Char} {key : String} (h : IsSensor sensor kind key) :
    '_' ∉ sensor := by
  obtain ⟨num, rfl, -, hdigits, hkey⟩ := h
  intro hmem
  rcases List.mem_append.mp hmem with hkind | hnum
  · exact ((plain_of_bodyKey hkey).1 _ hkind).2 rfl
  · exact absurd (hdigits _ hnum) (by decide)

/-! ## Thresholds -/

theorem splitThreshold_base {base : List Char} (h : '_' ∉ base) :
    splitThreshold base = (base, none) := by
  rw [splitThreshold, cutAtLast_eq_none h]

theorem splitThreshold_append {base t : List Char} (h : '_' ∉ t) :
    splitThreshold (base ++ '_' :: t) = (base, some t) := by
  rw [splitThreshold, cutAtLast_singleton_iff.mpr ⟨h, rfl⟩]

theorem splitThreshold_eq {rest base : List Char} {threshold : Option (List Char)}
    (h : splitThreshold rest = (base, threshold)) :
    (threshold = none ∧ rest = base) ∨
      ∃ t, threshold = some t ∧ '_' ∉ t ∧ rest = base ++ '_' :: t := by
  rw [splitThreshold] at h
  split at h
  · rename_i front t hcut
    cases h
    exact .inr ⟨t, rfl, cutAtLast_singleton_iff.mp hcut⟩
  · cases h
    exact .inl ⟨rfl, rfl⟩

/-! ## What is read -/

theorem input_not_alarm {base rest : List Char} :
    base ++ "_input".toList ≠ rest ++ "_alarm".toList := by
  intro h
  have hlast := congrArg List.getLast? h
  rw [List.getLast?_append, List.getLast?_append] at hlast
  have hletter : some 't' = some 'm' := hlast
  revert hletter
  decide

theorem stripSuffix_input_alarm (rest : List Char) :
    stripSuffix "_input".toList (rest ++ "_alarm".toList) = none := by
  refine if_neg fun ⟨base, hbase⟩ => ?_
  exact input_not_alarm hbase

/-- A value file is read as such. -/
theorem parse_input {base kind : List Char} {key : String} (h : IsSensor base kind key) :
    parseSensorFilename (base ++ "_input".toList) = some ⟨base, kind, .input key⟩ := by
  have hkey : bodyKey kind = some key := h.choose_spec.2.2.2
  rw [parseSensorFilename, stripSuffix_append]
  show (splitPrefix base).bind _ = _
  rw [splitPrefix_eq_some.mpr ⟨key, h⟩, Option.bind_some, hkey]
  rfl

/-- The name of an alarm file is read as its sensor, its kind and its threshold. -/
theorem parse_alarm {rest base kind : List Char} {key : String} {threshold : Option (List Char)}
    (hsplit : splitThreshold rest = (base, threshold)) (h : IsSensor base kind key) :
    parseSensorFilename (rest ++ "_alarm".toList)
      = some ⟨base, "alarm".toList, .alarm threshold⟩ := by
  rw [parseSensorFilename, stripSuffix_input_alarm]
  show (stripSuffix "_alarm".toList _).bind _ = _
  rw [stripSuffix_append, Option.bind_some, hsplit]
  show (splitPrefix base).map _ = _
  rw [splitPrefix_eq_some.mpr ⟨key, h⟩]
  rfl

/-- A file's name is read back. -/
theorem SensorFile.WellFormed.parse {file : SensorFile} (h : file.WellFormed) :
    parseSensorFilename file.filename = some file := by
  obtain ⟨sensor, kind, reading⟩ := file
  cases reading with
  | input key => exact parse_input h
  | alarm threshold =>
    obtain ⟨rfl, ⟨sensorKind, key, hsensor⟩, hplain⟩ := h
    cases threshold with
    | none => exact parse_alarm (splitThreshold_base hsensor.not_mem) hsensor
    | some t => exact parse_alarm (splitThreshold_append (hplain t rfl)) hsensor

/-- What is read is a file with this name. -/
theorem wellFormed_of_parse {name : List Char} {file : SensorFile}
    (h : parseSensorFilename name = some file) : file.WellFormed ∧ name = file.filename := by
  rw [parseSensorFilename] at h
  split at h
  · rename_i base hbase
    obtain ⟨kind, hkind, hread⟩ := Option.bind_eq_some_iff.mp h
    obtain ⟨key, hkey, rfl⟩ := Option.map_eq_some_iff.mp hread
    obtain ⟨-, num, hparts, hne, hdigits, -⟩ := splitPrefix_eq_some.mp hkind
    exact ⟨⟨num, hparts, hne, hdigits, hkey⟩, stripSuffix_eq_some.mp hbase⟩
  · obtain ⟨rest, hrest, hread⟩ := Option.bind_eq_some_iff.mp h
    cases hsplit : splitThreshold rest with
    | mk base threshold =>
      rw [hsplit] at hread
      obtain ⟨kind, hkind, rfl⟩ := Option.map_eq_some_iff.mp hread
      obtain ⟨key, hsensor⟩ := splitPrefix_eq_some.mp hkind
      rw [stripSuffix_eq_some.mp hrest]
      rcases splitThreshold_eq hsplit with ⟨rfl, rfl⟩ | ⟨t, rfl, hplain, rfl⟩
      · refine ⟨⟨rfl, ⟨kind, key, hsensor⟩, fun t ht => ?_⟩, rfl⟩
        cases ht
      · refine ⟨⟨rfl, ⟨kind, key, hsensor⟩, fun other hother => ?_⟩, rfl⟩
        cases hother
        exact hplain

/-- A name is read just if it is the name of an input or an alarm of a known kind of sensor, and
it is read as that; and whatever else a chip's directory holds, no two of its files are reported
with the same sensor, kind and threshold. -/
theorem sensor_names :
    (∀ name file, parseSensorFilename name = some file ↔
      file.WellFormed ∧ name = file.filename) ∧
    ∀ name name' file file', parseSensorFilename name = some file →
      parseSensorFilename name' = some file' → file.sensor = file'.sensor →
      file.kind = file'.kind → file.threshold = file'.threshold → name = name' := by
  refine ⟨fun name file => ⟨wellFormed_of_parse, ?_⟩, ?_⟩
  · rintro ⟨hfile, rfl⟩
    exact hfile.parse
  · intro name name' file file' hname hname' hsensor hkind hthreshold
    obtain ⟨hfile, rfl⟩ := wellFormed_of_parse hname
    obtain ⟨hfile', rfl⟩ := wellFormed_of_parse hname'
    obtain ⟨sensor, kind, reading⟩ := file
    obtain ⟨sensor', kind', reading'⟩ := file'
    cases hsensor
    cases hkind
    cases reading with
    | input key =>
      cases reading' with
      | input key' => rfl
      | alarm threshold =>
        obtain ⟨num, -, -, -, hkey⟩ := hfile
        exact absurd hfile'.1 (plain_of_bodyKey hkey).2
    | alarm threshold =>
      cases reading' with
      | input key =>
        obtain ⟨num, -, -, -, hkey⟩ := hfile'
        exact absurd hfile.1 (plain_of_bodyKey hkey).2
      | alarm threshold' =>
        cases hthreshold
        rfl

end HostServices.SystemMetrics.Sensors
