import HostServices.DetectedDevices.Ble
import Mathlib.Order.Bounds.Basic

/-!
# The totals of a scan and its rows

The totals and the rows are filled by different lines of a capture. What holds between them
is kept by every line, whatever the text.

- `Advertiser.Sound`: what holds of a row by itself;
- `State.Sound`: the rows are sound, each under its own address, and are what was counted;
- `State.Sound.step`: no line breaks it;
- `parseBtmon_agree`: the totals are those of the rows.
-/

namespace HostServices.DetectedDevices

open HostServices.Lib

/-! ## Rows -/

/-- The three RSSI columns are all empty, or the last value is between the others. -/
inductive Advertiser.RssiOrdered (a : Advertiser) : Prop
  | absent : a.rssiMin = none → a.rssiLast = none → a.rssiMax = none → a.RssiOrdered
  | present (low last high : Int64) : a.rssiMin = some low → a.rssiLast = some last →
      a.rssiMax = some high → low ≤ last → last ≤ high → a.RssiOrdered

/-- The UUID column is the text of a list without repetitions. -/
def Advertiser.UuidsDistinct (a : Advertiser) : Prop :=
  ∃ uuids, a.serviceUuids = joined uuids ∧ uuids.Nodup ∧ ∀ u ∈ uuids, Plain u

/-- What holds of every record: it was reported, and its lists and extremes are in order. -/
structure Advertiser.Sound (a : Advertiser) : Prop where
  counted : 1 ≤ a.reportCount
  rssi : a.RssiOrdered
  uuids : a.UuidsDistinct

/-- The list that is read out of the UUID column has no repetitions. -/
theorem Advertiser.UuidsDistinct.nodup {a : Advertiser} (h : a.UuidsDistinct) {text : String}
    (htext : a.serviceUuids = some text) : (splitBy ',' text).Nodup := by
  obtain ⟨uuids, huuids, hnodup, hplain⟩ := h
  rw [htext, eq_comm, joined_eq_some] at huuids
  obtain ⟨hne, rfl⟩ := huuids
  rwa [splitBy_joined hne hplain]

theorem isHexDigit_comma : isHexDigit ',' = false := rfl

/-- What is read as a UUID has no comma in it. -/
theorem uuidOf_plain {trimmed hex : List Char} (h : uuidOf trimmed = some hex) :
    Plain (String.ofList hex) := by
  unfold uuidOf at h
  obtain ⟨⟨_, uuid⟩, _, h⟩ := Option.bind_eq_some_iff.mp h
  obtain ⟨digits, _, h⟩ := Option.bind_eq_some_iff.mp h
  rw [Option.ite_none_right_eq_some] at h
  obtain ⟨⟨_, hdigits⟩, heq⟩ := h
  obtain rfl := Option.some_inj.mp heq
  rw [Plain, String.toList_ofList]
  intro hcomma
  have hdigit := List.all_eq_true.mp hdigits _ hcomma
  rw [isHexDigit_comma] at hdigit
  cases hdigit

/-- A line that was read off a text. -/
def Line.Wf (l : Line) : Prop := ∀ hex, l = .field (.uuid hex) → Plain hex

theorem readField_wf {trimmed : List Char} {hex : String} (h : readField trimmed = .uuid hex) :
    Plain hex := by
  unfold readField at h
  -- the labels in front of the UUIDs in the source
  iterate 6
    split at h
    · cases h
  split at h
  · rename_i digits hdigits
    obtain rfl := Field.uuid.inj h
    exact uuidOf_plain hdigits
  · cases h

/-- What is read of a line is well formed. -/
theorem readLine_wf (line : List Char) : (readLine line).Wf := by
  intro hex h
  unfold readLine readTrimmed at h
  split_ifs at h
  unfold readInReport at h
  iterate 3
    split at h
    · cases h
  exact readField_wf (Line.field.inj h)

/-! ## Lines -/

theorem Field.reportCount_apply (f : Field) (a : Advertiser) :
    (f.apply a).reportCount = a.reportCount := by
  rcases f with (_ | dbm) | _ | _ | _ | _ | _ | _ | _
  case nameShort => rw [Field.apply]; split_ifs <;> rfl
  all_goals rfl

theorem Field.address_apply (f : Field) (a : Advertiser) :
    (f.apply a).address = a.address := by
  rcases f with (_ | dbm) | _ | _ | _ | _ | _ | _ | _
  case nameShort => rw [Field.apply]; split_ifs <;> rfl
  all_goals rfl

/-- Another measurement keeps the columns ordered. -/
theorem Advertiser.RssiOrdered.rssi {a : Advertiser} (h : a.RssiOrdered) (dbm : Int64) :
    ((Field.rssi (some dbm)).apply a).RssiOrdered := by
  cases h with
  | absent hmin hlast hmax =>
    refine .present dbm dbm dbm ?_ rfl ?_ (le_refl _) (le_refl _)
    · show some (a.rssiMin.elim dbm fun m => min m dbm) = some dbm
      rw [hmin, Option.elim_none]
    · show some (a.rssiMax.elim dbm fun m => max m dbm) = some dbm
      rw [hmax, Option.elim_none]
  | present low last high hmin hlast hmax _ _ =>
    refine .present (min low dbm) dbm (max high dbm) ?_ rfl ?_ (min_le_right _ _)
      (le_max_right _ _)
    · show some (a.rssiMin.elim dbm fun m => min m dbm) = _
      rw [hmin, Option.elim_some]
    · show some (a.rssiMax.elim dbm fun m => max m dbm) = _
      rw [hmax, Option.elim_some]

/-- A UUID is entered once. -/
theorem Advertiser.UuidsDistinct.uuid {a : Advertiser} (h : a.UuidsDistinct) {hex : String}
    (hhex : Plain hex) : ((Field.uuid hex).apply a).UuidsDistinct := by
  obtain ⟨uuids, huuids, hnodup, hplain⟩ := h
  refine ⟨appendNew uuids hex, ?_, nodup_appendNew hnodup hex, ?_⟩
  · show pushDistinct a.serviceUuids hex = _
    rw [huuids, pushDistinct_joined hplain]
  · intro u hu
    rcases mem_appendNew.mp hu with hu | rfl
    · exact hplain u hu
    · exact hhex

/-- A line about a device keeps its row sound. -/
theorem Advertiser.Sound.apply {a : Advertiser} (h : a.Sound) {f : Field}
    (hf : (Line.field f).Wf) : (f.apply a).Sound := by
  refine ⟨?_, ?_, ?_⟩
  · rw [f.reportCount_apply]
    exact h.counted
  · rcases f with (_ | dbm) | _ | _ | _ | _ | _ | _ | _
    case rssi.some => exact h.rssi.rssi dbm
    case nameShort =>
      rw [Field.apply]
      split_ifs
      · obtain ⟨hmin, hlast, hmax⟩ | ⟨low, last, high, hmin, hlast, hmax, hlow, hhigh⟩ := h.rssi
        · exact .absent hmin hlast hmax
        · exact .present low last high hmin hlast hmax hlow hhigh
      · exact h.rssi
    all_goals
      obtain ⟨hmin, hlast, hmax⟩ | ⟨low, last, high, hmin, hlast, hmax, hlow, hhigh⟩ := h.rssi
      · exact .absent hmin hlast hmax
      · exact .present low last high hmin hlast hmax hlow hhigh
  · rcases f with (_ | dbm) | _ | _ | _ | _ | _ | hex | _
    case uuid => exact h.uuids.uuid (hf hex rfl)
    case nameShort =>
      rw [Field.apply]
      split_ifs
      · exact h.uuids
      · exact h.uuids
    all_goals exact h.uuids

/-! ## Runs -/

namespace State

/-- The rows are sound, each under its own address, and are what was counted. -/
structure Sound (s : State) : Prop where
  rows : ∀ e ∈ s.found.entries, e.2.address = e.1 ∧ e.2.Sound
  total : s.reportsTotal = (s.found.values.map Advertiser.reportCount).sum

theorem Sound.init : State.init.Sound where
  rows := by
    intro e he
    cases he
  total := rfl

/-- One more report: of an address that has a row, or of a new one. -/
theorem sound_heard (s : State) {address : String} {old : Option Advertiser}
    (h : ∀ a ∈ old, a.address = address ∧ a.Sound) :
    (s.heard (old.getD (fresh address))).address = address ∧
      (s.heard (old.getD (fresh address))).Sound := by
  cases old with
  | none =>
    exact ⟨rfl, Nat.le_add_left 1 0, .absent rfl rfl rfl, [], rfl, List.nodup_nil, by simp⟩
  | some a =>
    obtain ⟨haddress, hcounted, hrssi, huuids⟩ := h a rfl
    refine ⟨haddress, Nat.le_add_left _ _, ?_, huuids⟩
    obtain ⟨hmin, hlast, hmax⟩ | ⟨low, last, high, hmin, hlast, hmax, hlow, hhigh⟩ := hrssi
    · exact .absent hmin hlast hmax
    · exact .present low last high hmin hlast hmax hlow hhigh

/-- A report keeps the records sound. -/
theorem Sound.seen {s : State} (h : s.Sound) (address : String) : (s.seen address).Sound where
  rows := by
    refine SortedMap.forall_alter
      (P := fun key (a : Advertiser) => a.address = key ∧ a.Sound) h.rows ?_
    refine s.sound_heard ?_
    intro a ha
    exact h.rows _ (SortedMap.get?_eq_some.mp ha)
  total := by
    have hsum := s.found.sum_alter address (fun old => s.heard (old.getD (fresh address)))
      Advertiser.reportCount
    have hcount : (s.heard ((s.found.get? address).getD (fresh address))).reportCount
        = ((s.found.get? address).map Advertiser.reportCount).getD 0 + 1 := by
      cases s.found.get? address <;> rfl
    show s.reportsTotal + 1 = ((s.found.alter address _).values.map Advertiser.reportCount).sum
    have htotal := h.total
    omega

/-- A field keeps the records sound. -/
theorem Sound.field {s : State} (h : s.Sound) {f : Field} (hf : (Line.field f).Wf)
    (key : String) : State.Sound { s with found := s.found.modify key f.apply } where
  rows := by
    refine SortedMap.forall_modify
      (P := fun key (a : Advertiser) => a.address = key ∧ a.Sound) h.rows ?_
    rintro a ⟨haddress, hsound⟩
    exact ⟨by rw [f.address_apply, haddress], hsound.apply hf⟩
  total := by
    show s.reportsTotal = ((s.found.modify key f.apply).values.map Advertiser.reportCount).sum
    rw [SortedMap.sum_modify f.reportCount_apply, h.total]

/-- **No line breaks the agreement.** -/
theorem Sound.step {s : State} (h : s.Sound) {l : Line} (hl : l.Wf) : (s.step l).Sound := by
  cases l with
  | mgmt => exact ⟨h.rows, h.total⟩
  | hci => exact ⟨h.rows, h.total⟩
  | report =>
    rw [State.step]
    split_ifs
    · exact h
    · exact ⟨h.rows, h.total⟩
  | addressType kind =>
    rw [State.step]
    split_ifs
    · exact h
    · exact ⟨h.rows, h.total⟩
  | eventType pdu =>
    rw [State.step]
    split_ifs
    · exact h
    · exact ⟨h.rows, h.total⟩
  | address address =>
    rw [State.step]
    split_ifs
    · exact h
    · cases address with
      | none => exact h
      | some address => exact h.seen address
  | field f =>
    rw [State.step]
    split_ifs
    · exact h
    · cases s.current with
      | none => exact h
      | some key => exact ⟨(h.field hl key).rows, (h.field hl key).total⟩

/-- The records are sound wherever the parser stands. -/
theorem Sound.run {s : State} (h : s.Sound) {ls : List Line} (hls : ∀ l ∈ ls, l.Wf) :
    (run s ls).Sound := by
  induction ls generalizing s with
  | nil => exact h
  | cons l ls ih =>
    obtain ⟨hl, hrest⟩ := List.forall_mem_cons.mp hls
    exact ih (h.step hl) hrest

end State

theorem sound_text (text : String) :
    (run .init ((lines text.toList).map readLine)).Sound := by
  refine State.Sound.init.run ?_
  intro l hl
  obtain ⟨line, _, rfl⟩ := List.mem_map.mp hl
  exact readLine_wf line

/-! ## Main result -/

/-- Every device with an RSSI is in one bucket. -/
theorem Scan.sum_distanceBuckets (s : Scan) :
    s.distanceBuckets.1 + s.distanceBuckets.2.1 + s.distanceBuckets.2.2
      = s.advertisers.countP fun a => a.rssiMax.isSome := by
  have hfold : ∀ (rows : List Advertiser) (b : Nat × Nat × Nat),
      (rows.foldl addToBucket b).1 + (rows.foldl addToBucket b).2.1
          + (rows.foldl addToBucket b).2.2
        = b.1 + b.2.1 + b.2.2 + rows.countP fun a => a.rssiMax.isSome := by
    intro rows
    induction rows with
    | nil => exact fun b => rfl
    | cons a rows ih =>
      rintro ⟨near, mid, far⟩
      have hadd : (addToBucket (near, mid, far) a).1 + (addToBucket (near, mid, far) a).2.1
            + (addToBucket (near, mid, far) a).2.2
          = near + mid + far + if a.rssiMax.isSome then 1 else 0 := by
        rw [addToBucket]
        cases a.rssiMax with
        | none => rfl
        | some r =>
          rw [Option.isSome_some, if_pos rfl]
          dsimp only
          split_ifs <;> dsimp only <;> omega
      rw [List.foldl_cons, ih, hadd, List.countP_cons]
      dsimp only
      omega
  rw [distanceBuckets, hfold]
  exact Nat.zero_add _

/-- The strongest value is the greatest of the devices' greatest values. -/
theorem Scan.strongestDbm_eq_some {s : Scan} {r : Int64} :
    s.strongestDbm = some r ↔ IsGreatest {r | ∃ a ∈ s.advertisers, a.rssiMax = some r} r := by
  rw [strongestDbm, List.max?_eq_some_iff, IsGreatest, mem_upperBounds]
  simp only [List.mem_filterMap, Set.mem_ofPred_eq]

theorem Scan.strongestDbm_eq_none {s : Scan} :
    s.strongestDbm = none ↔ ∀ a ∈ s.advertisers, a.rssiMax = none := by
  rw [strongestDbm, List.max?_eq_none_iff, List.filterMap_eq_nil_iff]

/-- **The totals and the rows agree, for every text**: the addresses ascend, the reports are
counted once each, the RSSI columns are ordered, the buckets hold the devices with an RSSI,
the strongest value is the greatest of the rows, and no row repeats a UUID. -/
theorem parseBtmon_agree (text : String) :
    ((parseBtmon text).advertisers.map Advertiser.address).Pairwise (· < ·) ∧
    (parseBtmon text).reportsTotal
      = ((parseBtmon text).advertisers.map Advertiser.reportCount).sum ∧
    (∀ a ∈ (parseBtmon text).advertisers, 1 ≤ a.reportCount ∧ a.RssiOrdered ∧
      ∀ uuids, a.serviceUuids = some uuids → (splitBy ',' uuids).Nodup) ∧
    (parseBtmon text).distanceBuckets.1 + (parseBtmon text).distanceBuckets.2.1
        + (parseBtmon text).distanceBuckets.2.2
      = ((parseBtmon text).advertisers.countP fun a => a.rssiMax.isSome) ∧
    (∀ r, (parseBtmon text).strongestDbm = some r ↔
      IsGreatest {r | ∃ a ∈ (parseBtmon text).advertisers, a.rssiMax = some r} r) ∧
    ((parseBtmon text).strongestDbm = none ↔
      ∀ a ∈ (parseBtmon text).advertisers, a.rssiMax = none) := by
  have hsound := sound_text text
  refine ⟨?_, ?_, ?_, Scan.sum_distanceBuckets _, fun r => Scan.strongestDbm_eq_some,
    Scan.strongestDbm_eq_none⟩
  · rw [parseBtmon_eq]
    generalize run .init ((lines text.toList).map readLine) = s at hsound
    show (s.found.values.map Advertiser.address).Pairwise (· < ·)
    rw [SortedMap.values, List.map_map, List.pairwise_map]
    refine s.found.sorted.imp_of_mem ?_
    intro e e' he he' hlt
    show e.2.address < e'.2.address
    rwa [(hsound.rows e he).1, (hsound.rows e' he').1]
  · rw [parseBtmon_eq]
    exact hsound.total
  · intro a ha
    rw [parseBtmon_eq] at ha
    obtain ⟨key, hkey⟩ := SortedMap.mem_values.mp ha
    obtain ⟨_, hcounted, hrssi, huuids⟩ := hsound.rows _ (SortedMap.get?_eq_some.mp hkey)
    exact ⟨hcounted, hrssi, fun _ => huuids.nodup⟩

end HostServices.DetectedDevices
