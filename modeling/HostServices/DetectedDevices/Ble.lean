import HostServices.Lib.CommaList
import HostServices.Lib.Int64Order
import HostServices.Lib.SortedMap
import HostServices.Lib.Text
import Mathlib.Data.String.Basic

/-!
# Advertising reports out of a capture (`detected-devices/src/ble.rs`)

btmon prints what it sees as indented text. The parser goes over the lines once. It keeps one
record for each address, and attributes a line to the address it saw last.

- `Advertiser`, `Scan`: the source's types, with what is computed from them;
- `Line`, `readLine`: what a line says, from the tests of the loop in their order;
- `State`, `State.step`: what the loop carries from line to line;
- `parseBtmon`: the source's function;
- `parseBtmon_eq`: the scan of a text, from what its lines say.
-/

namespace HostServices.DetectedDevices

open HostServices.Lib

/-! ## Records -/

/-- `AddressKind`. -/
inductive AddressKind
  | publicAddress
  | randomAddress
  deriving DecidableEq, Repr

/-- `Advertiser`: what is known of one address. -/
structure Advertiser where
  address : String
  kind : AddressKind
  pduType : Option String
  rssiLast : Option Int64
  rssiMin : Option Int64
  rssiMax : Option Int64
  reportCount : Nat
  name : Option String
  txPowerDbm : Option Int64
  companyId : Option Int64
  serviceUuids : Option String
  flags : Option String
  deriving DecidableEq

/-- `Advertiser::connectable`: unknown as long as no PDU type is. -/
def Advertiser.connectable (a : Advertiser) : Option Bool :=
  a.pduType.map fun pdu => pdu == "ADV_IND" || pdu == "ADV_DIRECT_IND"

/-- `Scan`: the advertisers in the order of their addresses, and the number of reports. -/
@[ext] structure Scan where
  advertisers : List Advertiser
  reportsTotal : Nat

namespace Scan

/-- `Scan::strongest_dbm` -/
def strongestDbm (s : Scan) : Option Int64 := (s.advertisers.filterMap Advertiser.rssiMax).max?

/-- `Scan::count`: the advertisers with addresses of a kind. -/
def count (s : Scan) (kind : AddressKind) : Nat := s.advertisers.countP fun a => a.kind = kind

/-- `Scan::connectable_count` -/
def connectableCount (s : Scan) : Nat :=
  s.advertisers.countP fun a => a.connectable = some true

/-- What the loop of `distance_buckets` adds for a device. -/
def addToBucket (buckets : Nat × Nat × Nat) (a : Advertiser) : Nat × Nat × Nat :=
  let (near, mid, far) := buckets
  match a.rssiMax with
  | some r =>
    if r > -60 then (near + 1, mid, far)
    else if r ≥ -80 then (near, mid + 1, far)
    else (near, mid, far + 1)
  | none => (near, mid, far)

/-- `Scan::distance_buckets` -/
def distanceBuckets (s : Scan) : Nat × Nat × Nat := s.advertisers.foldl addToBucket (0, 0, 0)

end Scan

/-! ## What a line says -/

/-- A line about the current device. -/
inductive Field
  | rssi (dbm : Option Int64)
  | flags (text : String)
  | nameComplete (name : String)
  | nameShort (name : String)
  | txPower (dbm : Option Int64)
  | company (id : Option Int64)
  | uuid (hex : String)
  | other
  deriving DecidableEq

/-- What a line can be to the parser; everything that is no field has a case of its own. -/
inductive Line
  | mgmt
  | hci
  | report
  | addressType (kind : AddressKind)
  | eventType (pdu : Option String)
  | address (address : Option String)
  | field (field : Field)
  deriving DecidableEq

/-- The symbol of `Connectable undirected - ADV_IND (0x00)`. -/
def pduSymbol (rest : List Char) : Option String :=
  (secondPiece " - ".toList rest).map fun s => String.ofList (trim (firstPiece " (".toList s))

/-- The number of `Samsung Electronics Co. Ltd. (117)`. -/
def companyNumber (rest : List Char) : Option Int64 := do
  let (_, id) ← cutAtLast ['('] rest
  parseI64 (String.ofList (trim (id.rdropWhile (· = ')'))))

/-- The digits of a line that ends as `Unknown (0xffe0)` does. -/
def uuidOf (trimmed : List Char) : Option (List Char) := do
  let (_, uuid) ← cutAtLast "(0x".toList trimmed
  let hex ← stripSuffix [')'] uuid
  if hex.length = 4 ∧ hex.all isHexDigit then some hex else none

/-- A number in front of its unit. -/
def measured (unit : String) (rest : List Char) : Option Int64 :=
  parseI64 (String.ofList (trim (firstPiece unit.toList rest)))

/-- The field that a line inside a report is, by its label. -/
def readField (trimmed : List Char) : Field :=
  if let some rest := labelled "RSSI: " trimmed then .rssi (measured " dBm" rest)
  else if let some rest := labelled "Flags: " trimmed then .flags (String.ofList (trim rest))
  else if let some rest := labelled "Name (complete): " trimmed then
    .nameComplete (String.ofList (trim rest))
  else if let some rest := labelled "Name (short): " trimmed then
    .nameShort (String.ofList (trim rest))
  else if let some rest := labelled "TX power: " trimmed then .txPower (measured " dB" rest)
  else if let some rest := labelled "Company: " trimmed then .company (companyNumber rest)
  else if let some hex := uuidOf trimmed then .uuid (String.ofList hex)
  else .other

/-- What a line says that stands in a report. -/
def readInReport (trimmed : List Char) : Line :=
  if let some rest := labelled "Address type: " trimmed then
    .addressType (if startsWith "Random" rest then .randomAddress else .publicAddress)
  else if let some rest := labelled "Event type: " trimmed then .eventType (pduSymbol rest)
  else if let some rest := labelled "Address: " trimmed then
    .address ((words rest).head?.map String.ofList)
  else .field (readField trimmed)

/-- What a line says, once the blanks around it are gone. -/
def readTrimmed (trimmed : List Char) : Line :=
  if startsWith "@" trimmed then .mgmt
  else if startsWith "<" trimmed || startsWith ">" trimmed then .hci
  -- both the legacy and the extended report carry advertisements
  else if startsWith "LE Advertising Report" trimmed ||
      startsWith "LE Extended Advertising Report" trimmed then .report
  else readInReport trimmed

/-- What a line of the capture is. -/
def readLine (line : List Char) : Line := readTrimmed (trim line)

/-! ## The loop -/

/-- What a field does to the record of the current address. -/
def Field.apply (field : Field) (entry : Advertiser) : Advertiser :=
  match field with
  | .rssi (some dbm) =>
    { entry with
      rssiLast := some dbm
      rssiMin := some (entry.rssiMin.elim dbm fun m => min m dbm)
      rssiMax := some (entry.rssiMax.elim dbm fun m => max m dbm) }
  | .rssi none => entry
  | .flags text => { entry with flags := some text }
  | .nameComplete name => { entry with name := some name }
  | .nameShort name => if entry.name.isNone then { entry with name := some name } else entry
  | .txPower dbm => { entry with txPowerDbm := dbm }
  | .company id => { entry with companyId := id }
  | .uuid hex => { entry with serviceUuids := pushDistinct entry.serviceUuids hex }
  | .other => entry

/-- The variables of `parse_btmon`. -/
structure State where
  found : SortedMap String Advertiser
  reportsTotal : Nat
  -- the two that btmon prints before the address they describe
  pendingPdu : Option String
  pendingKind : Option AddressKind
  current : Option String
  inMgmt : Bool
  inReport : Bool

namespace State

/-- The state before the first line. -/
def init : State := ⟨.empty, 0, none, none, none, false, false⟩

/-- Where a block begins, whatever the report before it had said is over. -/
def boundary (s : State) (mgmt : Bool) : State :=
  { s with inMgmt := mgmt, inReport := false, current := none, pendingKind := none,
           pendingPdu := none }

/-- What `or_insert_with` enters for an address. -/
def fresh (address : String) : Advertiser :=
  { address, kind := .publicAddress, pduType := none, rssiLast := none, rssiMin := none,
    rssiMax := none, reportCount := 0, name := none, txPowerDbm := none, companyId := none,
    serviceUuids := none, flags := none }

/-- A record with one more report. -/
def heard (s : State) (entry : Advertiser) : Advertiser :=
  { entry with
    reportCount := entry.reportCount + 1
    pduType := entry.pduType.or s.pendingPdu
    kind := s.pendingKind.getD entry.kind }

/-- A report begins: the record of its address takes what is pending. -/
def seen (s : State) (address : String) : State :=
  let typed := ((s.found.get? address).bind Advertiser.pduType).isSome
  { s with
    found := s.found.alter address fun old => s.heard (old.getD (fresh address))
    reportsTotal := s.reportsTotal + 1
    pendingPdu := if typed then s.pendingPdu else none
    pendingKind := none
    current := some address }

/-- The body of the loop in `parse_btmon`. -/
def step (s : State) : Line → State
  | .mgmt => s.boundary true
  | .hci => s.boundary false
  | .report => if s.inMgmt then s else { s with inReport := true }
  | .addressType kind =>
    if s.inMgmt || !s.inReport then s else { s with pendingKind := some kind }
  | .eventType pdu => if s.inMgmt || !s.inReport then s else { s with pendingPdu := pdu }
  | .address address => if s.inMgmt || !s.inReport then s else address.elim s s.seen
  | .field field =>
    if s.inMgmt || !s.inReport then s
    else s.current.elim s fun key => { s with found := s.found.modify key field.apply }

/-- What is returned at the end of the capture. -/
def scan (s : State) : Scan := ⟨s.found.values, s.reportsTotal⟩

end State

/-- `parse_btmon` -/
def parseBtmon (text : String) : Scan :=
  ((lines text.toList).foldl (fun (s : State) line => s.step (readLine line)) .init).scan

/-- The state behind the lines. -/
def run (s : State) (ls : List Line) : State := ls.foldl State.step s

theorem run_append (s : State) (ls ls' : List Line) : run s (ls ++ ls') = run (run s ls) ls' :=
  List.foldl_append

theorem parseBtmon_eq (text : String) :
    parseBtmon text = (run .init ((lines text.toList).map readLine)).scan := by
  rw [run, List.foldl_map]
  rfl

end HostServices.DetectedDevices
