import HostServices.Lib.Position
import HostServices.Lib.Text
import Mathlib.Logic.Equiv.Defs

/-!
# Which SMART report describes a disk (`system-metrics/src/block.rs`)

The block layer and smartctl name the drives of a host each in their own way. A report is
given to the disk with its serial; a disk whose serial no report has gets a report by name,
among those that no serial claimed.

- `smartNameMatches`, `matchSmart`: the source's functions;
- `Addresses`: what it means that smartctl's name addresses a disk;
- `HasSerial`, `Claimed`: the reports with a disk's serial, and the first of them;
- `matchSmart_getElem?`: the report of a disk, from the disk and the claimed reports;
- `matchSmart_sound`: who gets which report, whatever the order of the disks.
-/

namespace HostServices.SystemMetrics.Smart

open HostServices.Lib

/-! ## The code -/

/-- A disk or a report: its name, and its serial if there is one. -/
abbrev Named : Type := String × Option String

/-- The node is the controller of which the disk is a namespace. -/
def namespaceOf (disk controller : List Char) : Bool :=
  "nvme".toList.isPrefixOf controller &&
    ((stripPrefix controller disk).bind (stripPrefix ['n'])).any fun ns =>
      !ns.isEmpty && ns.all Char.isDigit

/-- `smart_name_matches`: the disk's own node, or one of its namespaces. -/
def smartNameMatches (scanName disk : String) : Bool :=
  match stripPrefix "/dev/".toList scanName.toList with
  | none => false
  | some node => node == disk.toList || namespaceOf disk.toList node

/-- The index of the first report with the serial of the disk. -/
def serialPosition (smart : List Named) (disk : Named) : Option Nat :=
  disk.2.bind fun s => position smart fun report => report.2 == some s

/-- `match_smart`: by serial number first, and by name among what is left over. -/
def matchSmart (disks smart : List Named) : List (Option Nat) :=
  let bySerial := disks.map (serialPosition smart)
  (disks.zip bySerial).map fun ((disk, _), matched) =>
    matched.or (findIndex smart fun i (scanName, _) =>
      !bySerial.contains (some i) && smartNameMatches scanName disk)

/-! ## What a match is -/

/-- The name of a report addresses a disk: it is the node of the disk, or that of the NVMe
controller of which the disk is a namespace. -/
inductive Addresses : String → String → Prop
  | node (disk : List Char) :
      Addresses (String.ofList ("/dev/".toList ++ disk)) (String.ofList disk)
  | controller (unit ns : List Char) : ns ≠ [] → ns.all Char.isDigit = true →
      Addresses (String.ofList ("/dev/nvme".toList ++ unit))
        (String.ofList ("nvme".toList ++ unit ++ 'n' :: ns))

/-- The reports that have the serial of the disk. -/
def HasSerial (smart : List Named) (disk : Named) : Set Nat :=
  indices smart fun _ report => ∃ s, disk.2 = some s ∧ report.2 = some s

/-- The report is the first one with the serial of some disk. -/
def Claimed (disks smart : List Named) (i : Nat) : Prop :=
  ∃ disk ∈ disks, IsLeast (HasSerial smart disk) i

/-- The reports that a disk may get by name. -/
def Nameable (disks smart : List Named) (disk : Named) : Set Nat :=
  indices smart fun i report => ¬ Claimed disks smart i ∧ Addresses report.1 disk.1

/-- The report that a disk is to get: the first with its serial; without one, the first that
it may get by name, if there is any. -/
structure IsReportOf (disks smart : List Named) (disk : Named) (report : Option Nat) : Prop where
  by_serial : (HasSerial smart disk).Nonempty →
    ∃ i, report = some i ∧ IsLeast (HasSerial smart disk) i
  by_name : HasSerial smart disk = ∅ →
    ∀ i, report = some i ↔ IsLeast (Nameable disks smart disk) i
  nothing : HasSerial smart disk = ∅ → (report = none ↔ Nameable disks smart disk = ∅)

/-! ## Names -/

/-- A namespace is named after its controller. -/
theorem namespaceOf_iff {disk controller : List Char} :
    namespaceOf disk controller = true ↔
      ∃ unit ns, controller = "nvme".toList ++ unit ∧ disk = controller ++ 'n' :: ns ∧
        ns ≠ [] ∧ ns.all Char.isDigit = true := by
  rw [namespaceOf, Bool.and_eq_true, List.isPrefixOf_iff_prefix, Option.any_eq_true]
  constructor
  · rintro ⟨⟨unit, hunit⟩, ns, hns, hdigits⟩
    obtain ⟨rest, hrest, hn⟩ := Option.bind_eq_some_iff.mp hns
    rw [stripPrefix_eq_some] at hrest hn
    rw [Bool.and_eq_true, Bool.not_eq_true', List.isEmpty_eq_false_iff] at hdigits
    exact ⟨unit, ns, hunit.symm, by rw [hrest, hn]; rfl, hdigits⟩
  · rintro ⟨unit, ns, rfl, rfl, hne, hdigits⟩
    refine ⟨List.prefix_append _ _, ns, ?_, ?_⟩
    · exact Option.bind_eq_some_iff.mpr
        ⟨'n' :: ns, stripPrefix_eq_some.mpr rfl, stripPrefix_eq_some.mpr rfl⟩
    · rw [hdigits, Bool.and_true, Bool.not_eq_true', List.isEmpty_eq_false_iff]
      exact hne

theorem smartNameMatches_ofList {scan node : List Char} (disk : List Char)
    (h : stripPrefix "/dev/".toList scan = some node) :
    smartNameMatches (String.ofList scan) (String.ofList disk)
      = (node == disk || namespaceOf disk node) := by
  have hscan : (String.ofList scan).toList = scan := String.toList_ofList
  have hdisk : (String.ofList disk).toList = disk := String.toList_ofList
  rw [smartNameMatches, hscan, hdisk, h]

/-- The report addresses the disk. -/
theorem smartNameMatches_iff {scanName disk : String} :
    smartNameMatches scanName disk = true ↔ Addresses scanName disk := by
  constructor
  · intro h
    cases hstrip : stripPrefix "/dev/".toList scanName.toList with
    | none =>
      rw [smartNameMatches, hstrip] at h
      cases h
    | some node =>
      have hscan : scanName = String.ofList ("/dev/".toList ++ node) := by
        rw [← stripPrefix_eq_some.mp hstrip, String.ofList_toList]
      rw [smartNameMatches, hstrip] at h
      dsimp only at h
      rw [Bool.or_eq_true, beq_iff_eq] at h
      rcases h with rfl | h
      · have haddresses := Addresses.node disk.toList
        rwa [← hscan, String.ofList_toList] at haddresses
      · obtain ⟨unit, ns, rfl, hdisk, hne, hdigits⟩ := namespaceOf_iff.mp h
        have haddresses := Addresses.controller unit ns hne hdigits
        rw [← hdisk, String.ofList_toList] at haddresses
        rw [hscan]
        exact haddresses
  · rintro (⟨disk⟩ | ⟨unit, ns, hne, hdigits⟩)
    · rw [smartNameMatches_ofList disk (stripPrefix_eq_some.mpr rfl), beq_self_eq_true,
        Bool.true_or]
    · have hstrip : stripPrefix "/dev/".toList ("/dev/nvme".toList ++ unit)
          = some ("nvme".toList ++ unit) := stripPrefix_eq_some.mpr rfl
      rw [smartNameMatches_ofList _ hstrip,
        namespaceOf_iff.mpr ⟨unit, ns, rfl, rfl, hne, hdigits⟩, Bool.or_true]

/-! ## Serials -/

theorem hasSerial_none {smart : List Named} {disk : Named} (h : disk.2 = none) :
    HasSerial smart disk = ∅ := by
  rw [Set.eq_empty_iff_forall_notMem]
  rintro i ⟨report, _, s, hs, _⟩
  rw [h] at hs
  cases hs

theorem hasSerial_some {smart : List Named} {disk : Named} {s : String} (h : disk.2 = some s) :
    HasSerial smart disk = indices smart fun _ report => (report.2 == some s) = true := by
  unfold HasSerial
  congr 1
  funext i report
  rw [h, beq_iff_eq]
  refine propext ⟨?_, fun hreport => ⟨s, rfl, hreport⟩⟩
  rintro ⟨t, ht, hreport⟩
  rw [hreport, ← ht]

/-- The first report with the serial number. -/
theorem serialPosition_eq_some {smart : List Named} {disk : Named} {i : Nat} :
    serialPosition smart disk = some i ↔ IsLeast (HasSerial smart disk) i := by
  rw [serialPosition]
  cases hserial : disk.2 with
  | none =>
    rw [hasSerial_none hserial, Option.bind_none]
    constructor
    · intro h
      cases h
    · intro h
      exact h.1.elim
  | some s =>
    rw [hasSerial_some hserial, Option.bind_some]
    exact position_eq_some

theorem serialPosition_eq_none {smart : List Named} {disk : Named} :
    serialPosition smart disk = none ↔ HasSerial smart disk = ∅ := by
  rw [serialPosition]
  cases hserial : disk.2 with
  | none => exact ⟨fun _ => hasSerial_none hserial, fun _ => rfl⟩
  | some s =>
    rw [hasSerial_some hserial, Option.bind_some]
    exact position_eq_none

/-- The reports that are taken by their serial numbers. -/
theorem contains_serialPosition {disks smart : List Named} {i : Nat} :
    (disks.map (serialPosition smart)).contains (some i) = true ↔ Claimed disks smart i := by
  rw [List.contains_iff_mem, List.mem_map]
  constructor
  · rintro ⟨disk, hdisk, heq⟩
    exact ⟨disk, hdisk, serialPosition_eq_some.mp heq⟩
  · rintro ⟨disk, hdisk, hleast⟩
    exact ⟨disk, hdisk, serialPosition_eq_some.mpr hleast⟩

/-! ## The report of a disk -/

/-- What a disk gets by name, once it is known which reports are claimed. -/
def namePosition (disks smart : List Named) (disk : Named) : Option Nat :=
  findIndex smart fun i (scanName, _) =>
    !(disks.map (serialPosition smart)).contains (some i) && smartNameMatches scanName disk.1

theorem nameable_eq (disks smart : List Named) (disk : Named) :
    Nameable disks smart disk = indices smart fun i report =>
      (!(disks.map (serialPosition smart)).contains (some i) &&
        smartNameMatches report.1 disk.1) = true := by
  unfold Nameable
  congr 1
  funext i report
  rw [Bool.and_eq_true, Bool.not_eq_true', ← smartNameMatches_iff, ← contains_serialPosition,
    Bool.not_eq_true]

/-- The first report left over that addresses the disk. -/
theorem namePosition_eq_some {disks smart : List Named} {disk : Named} {i : Nat} :
    namePosition disks smart disk = some i ↔ IsLeast (Nameable disks smart disk) i := by
  rw [nameable_eq]
  exact findIndex_eq_some

theorem namePosition_eq_none {disks smart : List Named} {disk : Named} :
    namePosition disks smart disk = none ↔ Nameable disks smart disk = ∅ := by
  rw [nameable_eq]
  exact findIndex_eq_none

/-- The report of a disk depends on the other disks only through what they claim. -/
theorem matchSmart_eq (disks smart : List Named) :
    matchSmart disks smart = disks.map fun disk =>
      (serialPosition smart disk).or (namePosition disks smart disk) := by
  rw [matchSmart, ← List.map_prod_left_eq_zip, List.map_map]
  rfl

/-- What a disk is given. -/
theorem matchSmart_getElem? {disks smart : List Named} {d : Nat} {disk : Named}
    (h : disks[d]? = some disk) :
    (matchSmart disks smart)[d]?
      = some ((serialPosition smart disk).or (namePosition disks smart disk)) := by
  rw [matchSmart_eq, List.getElem?_map, h, Option.map_some]

/-- The order of the disks does not matter to what is claimed. -/
theorem claimed_congr {disks disks' smart : List Named} (h : ∀ disk, disk ∈ disks ↔ disk ∈ disks')
    (i : Nat) : Claimed disks smart i ↔ Claimed disks' smart i := by
  constructor
  · rintro ⟨disk, hdisk, hleast⟩
    exact ⟨disk, (h disk).mp hdisk, hleast⟩
  · rintro ⟨disk, hdisk, hleast⟩
    exact ⟨disk, (h disk).mpr hdisk, hleast⟩

/-- Only which disks there are matters. -/
theorem namePosition_congr {disks disks' : List Named}
    (h : ∀ disk, disk ∈ disks ↔ disk ∈ disks') (smart : List Named) (disk : Named) :
    namePosition disks smart disk = namePosition disks' smart disk := by
  unfold namePosition
  congr 1
  funext i report
  rw [Bool.eq_iff_iff.mpr (contains_serialPosition.trans
    ((claimed_congr h i).trans contains_serialPosition.symm))]

/-- The report that is found is one of the disk. -/
theorem isReportOf (disks smart : List Named) (disk : Named) :
    IsReportOf disks smart disk
      ((serialPosition smart disk).or (namePosition disks smart disk)) := by
  cases hserial : serialPosition smart disk with
  | none =>
    have hempty := serialPosition_eq_none.mp hserial
    rw [Option.none_or]
    refine ⟨?_, fun _ _ => namePosition_eq_some, fun _ => namePosition_eq_none⟩
    intro hsome
    rw [hempty] at hsome
    exact absurd hsome Set.not_nonempty_empty
  | some i =>
    have hleast := serialPosition_eq_some.mp hserial
    have hne : HasSerial smart disk ≠ ∅ := Set.nonempty_iff_ne_empty.mp ⟨i, hleast.1⟩
    rw [Option.some_or]
    exact ⟨fun _ => ⟨i, rfl, hleast⟩, fun h => absurd h hne, fun h => absurd h hne⟩

/-- A claimed report is given by its serial only. -/
theorem IsReportOf.claimed {disks smart : List Named} {disk : Named} {i : Nat}
    (h : IsReportOf disks smart disk (some i)) (hclaimed : Claimed disks smart i) :
    i ∈ HasSerial smart disk := by
  rcases (HasSerial smart disk).eq_empty_or_nonempty with hempty | hsome
  · obtain ⟨_, _, hfree, _⟩ := ((h.by_name hempty i).mp rfl).1
    exact absurd hclaimed hfree
  · obtain ⟨j, hij, hleast⟩ := h.by_serial hsome
    rw [Option.some_inj.mp hij]
    exact hleast.1

/-! ## All disks together -/

/-- A list with its entries in another order. -/
def permuted (disks : List Named) (σ : Equiv.Perm (Fin disks.length)) : List Named :=
  List.ofFn fun d => disks.get (σ d)

theorem mem_permuted {disks : List Named} (σ : Equiv.Perm (Fin disks.length)) (disk : Named) :
    disk ∈ permuted disks σ ↔ disk ∈ disks := by
  rw [permuted, List.mem_ofFn, List.mem_iff_get]
  constructor
  · rintro ⟨d, hd⟩
    exact ⟨σ d, hd⟩
  · rintro ⟨d, hd⟩
    exact ⟨σ.symm d, by rw [Equiv.apply_symm_apply, hd]⟩

/-- The order of the disks does not matter. -/
theorem matchSmart_permuted (disks smart : List Named) (σ : Equiv.Perm (Fin disks.length))
    (d : Fin disks.length) :
    (matchSmart (permuted disks σ) smart)[d.val]? = (matchSmart disks smart)[(σ d).val]? := by
  have hdisk : (permuted disks σ)[d.val]? = some (disks.get (σ d)) := by
    rw [permuted, List.getElem?_ofFn, dif_pos d.isLt]
  rw [matchSmart_getElem? hdisk, namePosition_congr (mem_permuted σ),
    matchSmart_getElem? (List.getElem?_eq_getElem (σ d).isLt)]
  rfl

/-- **The reports are attributed soundly**: every disk gets the report it is to get, a report
that some serial claims goes only to disks with its serial, and in another order the disks
get the same reports. -/
theorem matchSmart_sound (disks smart : List Named) :
    (matchSmart disks smart).length = disks.length ∧
    (∀ (d : Nat) (disk : Named), disks[d]? = some disk →
      ∃ report, (matchSmart disks smart)[d]? = some report ∧
        IsReportOf disks smart disk report) ∧
    (∀ (d : Nat) (disk : Named) (i : Nat), disks[d]? = some disk →
      (matchSmart disks smart)[d]? = some (some i) → Claimed disks smart i →
      i ∈ HasSerial smart disk) ∧
    (∀ (σ : Equiv.Perm (Fin disks.length)) (d : Fin disks.length),
      (matchSmart (permuted disks σ) smart)[d.val]? = (matchSmart disks smart)[(σ d).val]?) := by
  refine ⟨?_, ?_, ?_, matchSmart_permuted disks smart⟩
  · rw [matchSmart_eq, List.length_map]
  · intro d disk hdisk
    exact ⟨_, matchSmart_getElem? hdisk, isReportOf disks smart disk⟩
  · intro d disk i hdisk hgot hclaimed
    rw [matchSmart_getElem? hdisk, Option.some_inj] at hgot
    exact (hgot ▸ isReportOf disks smart disk).claimed hclaimed

/-- A USB bridge with a serial of its own gets the drive's report by name, but not the one
that another disk's serial claims. -/
example : matchSmart [("sda", some "BRIDGE"), ("nvme0n1", some "A"), ("sdb", none)]
    [("/dev/sdb", some "A"), ("/dev/sda", some "B"), ("/dev/nvme0", none)]
      = [some 1, some 0, none] := by decide

end HostServices.SystemMetrics.Smart
