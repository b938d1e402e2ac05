import HostServices.DetectedDevices.Blocks
import HostServices.DetectedDevices.Captures
import HostServices.Lib.FirstSeen

/-!
# Which service UUIDs a device gets

btmon prints the 16-bit UUIDs of a device one per line, deeper than their header. The loop
does not look for the header: it takes the four digits at the end of any line that it knows
no label of. What other parts of a report print in that form gets into the list too.

- `isPlain`, `printedUuid`, `uuidText`: a line that ends as a UUID entry does and has none of the
  labels of a report, by its characters;
- `Place`: where in a capture a line stands, by the blocks, addresses and headers above it;
- `uuidLines`: the lines of that form in the reports of an address, each marked if it is an
  entry under a header;
- `readLine_eq_uuid`: these are the lines that the loop takes for entries;
- `serviceUuids_eq`: the column has the first appearances among all of them;
- `serviceUuids_iff`: the captures for which these are the entries.
-/

namespace HostServices.DetectedDevices

open HostServices.Lib

/-! ## Lines by their text -/

/-- What begins the lines of a report that are not entries of a list. -/
def reportLabels : List String :=
  ["Address type: ", "Event type: ", "Address: ", "RSSI: ", "Flags: ", "Name (complete): ",
    "Name (short): ", "TX power: ", "Company: "]

/-- The line begins with a label that the parser knows. -/
def isLabelled (line : List Char) : Bool := reportLabels.any fun label =>
  startsWith label (trim line)

/-- No boundary, and no line with a label. -/
def isPlain (line : List Char) : Bool := !isMarker line && !isReport line && !isLabelled line

/-- The digits at the end of a line such as `Unknown (0xffe0)`, as it stands without the blanks
around it. -/
def printedUuid (trimmed : List Char) : Option (List Char) :=
  match trimmed.reverse with
  | ')' :: d :: c :: b :: a :: 'x' :: '0' :: '(' :: _ =>
    if [a, b, c, d].all isHexDigit then some [a, b, c, d] else none
  | _ => none

/-- The UUID that a line prints in the form of an entry. -/
def uuidText (line : List Char) : Option String :=
  if isPlain line then (printedUuid (trim line)).map String.ofList else none

/-- The address of a line `Address: C8:47:80:29:5E:3B (OUI C8-47-80)`. -/
def addressText (line : List Char) : Option String :=
  (labelled "Address: " (trim line)).bind fun rest => (words rest).head?.map String.ofList

/-- The blanks in front of a line. -/
def indentation (line : List Char) : Nat := (line.takeWhile isWhitespace).length

/-- The line is a header of UUID entries. -/
def isUuidHeader (line : List Char) : Bool := startsWith "16-bit Service UUIDs" (trim line)

/-! ## Where a line stands -/

/-- What stands above a line: the block, the address last printed in it, and how deep the
header is indented under which the line may be. -/
structure Place where
  inMgmt : Bool
  inReport : Bool
  address : Option String
  header : Option Nat
  deriving DecidableEq

namespace Place

/-- Before the first line. -/
def start : Place := ⟨false, false, none, none⟩

/-- The line is deeper than the header above it. -/
def underHeader (p : Place) (line : List Char) : Bool :=
  !isUuidHeader line && p.header.any (· < indentation line)

/-- A header holds for the lines below it that are deeper. -/
def below (p : Place) (line : List Char) : Place :=
  if isUuidHeader line then { p with header := some (indentation line) }
  else { p with header := p.header.filter (· < indentation line) }

/-- Where the next line stands. -/
def next (p : Place) (line : List Char) : Place :=
  if isMarker line then ⟨isMgmt line, false, none, none⟩
  else if p.inMgmt then p
  else if isReport line then ⟨false, true, p.address, none⟩
  else if p.inReport then
    (addressText line).elim (p.below line) fun a => { p with address := some a, header := none }
  else p.below line

/-- The lines here belong to an advertising report of `a`. -/
def inReportOf (p : Place) (a : String) : Bool :=
  !p.inMgmt && p.inReport && p.address = some a

/-- The UUID that a line prints in a report of `a`, marked if the line is an entry. -/
def uuidLine (p : Place) (a : String) (line : List Char) : Option (Bool × String) :=
  if p.inReportOf a then (uuidText line).map fun hex => (p.underHeader line, hex) else none

end Place

/-- The lines in the form of an entry from a place on, each with whether it is an entry. -/
def uuidLinesFrom (a : String) : Place → List (List Char) → List (Bool × String)
  | _, [] => []
  | p, line :: rest => (p.uuidLine a line).toList ++ uuidLinesFrom a (p.next line) rest

/-- What the reports of an address print in the form of a UUID entry, in order. -/
def uuidLines (text : String) (a : String) : List (Bool × String) :=
  uuidLinesFrom a .start (lines text.toList)

/-- The UUIDs that are printed on entries under a header. -/
def uuidEntries (text : String) (a : String) : List String := entries (uuidLines text a)

/-! ## What the loop takes -/

/-- A text in the form of an entry: what the service is called, and the digits in parentheses. -/
def IsUuidText (trimmed hex : List Char) : Prop :=
  ∃ name, trimmed = name ++ ("(0x".toList ++ (hex ++ [')'])) ∧ hex.length = 4 ∧
    hex.all isHexDigit = true

/-- What is read of a line in the form of an entry. -/
theorem printedUuid_eq_some {trimmed hex : List Char} :
    printedUuid trimmed = some hex ↔ IsUuidText trimmed hex := by
  constructor
  · intro h
    rw [printedUuid] at h
    split at h
    · rename_i d c b a name hreverse
      split_ifs at h with hdigits
      obtain rfl := Option.some_inj.mp h
      refine ⟨name.reverse, ?_, rfl, hdigits⟩
      rw [← List.reverse_reverse trimmed, hreverse]
      simp
    · cases h
  · rintro ⟨name, rfl, hlength, hdigits⟩
    match hex with
    | [a, b, c, d] =>
      rw [printedUuid]
      simp only [List.reverse_append]
      exact if_pos hdigits

theorem isHexDigit_x : isHexDigit 'x' = false := rfl

/-- The parser takes the same lines. -/
theorem uuidOf_eq_some {trimmed hex : List Char} :
    uuidOf trimmed = some hex ↔ IsUuidText trimmed hex := by
  constructor
  · intro h
    obtain ⟨⟨name, uuid⟩, hcut, h⟩ := Option.bind_eq_some_iff.mp h
    obtain ⟨hex', hsuffix, h⟩ := Option.bind_eq_some_iff.mp h
    split_ifs at h with hdigits
    obtain rfl := Option.some_inj.mp h
    rw [stripSuffix_eq_some.mp hsuffix] at hcut
    exact ⟨name, eq_of_cutAtLast hcut, hdigits⟩
  · rintro ⟨name, rfl, hdigits⟩
    have hx : 'x' ∉ hex ++ [')'] := by
      intro hmem
      rcases List.mem_append.mp hmem with hmem | hmem
      · have hdigit := List.all_eq_true.mp hdigits.2 _ hmem
        rw [isHexDigit_x] at hdigit
        cases hdigit
      · cases List.mem_singleton.mp hmem
    have hcut : cutAtLast ("(0".toList ++ ['x']) (name ++ ("(0".toList ++ ['x'] ++ (hex ++ [')'])))
        = some (name, hex ++ [')']) := cutAtLast_last hx name
    rw [uuidOf]
    refine Option.bind_eq_some_iff.mpr ⟨(name, hex ++ [')']), hcut, ?_⟩
    refine Option.bind_eq_some_iff.mpr ⟨hex, stripSuffix_append hex [')'], ?_⟩
    exact if_pos hdigits

/-- The test of the loop is the form of an entry. -/
theorem uuidOf_eq (trimmed : List Char) : uuidOf trimmed = printedUuid trimmed :=
  Option.ext fun _ => uuidOf_eq_some.trans printedUuid_eq_some.symm

/-- Inside of a report, a line without a label may be an entry. -/
theorem readInReport_unlabelled {trimmed : List Char}
    (h : (reportLabels.any fun label => startsWith label trimmed) = false) :
    readInReport trimmed = .field ((uuidOf trimmed).elim .other fun hex =>
      .uuid (String.ofList hex)) := by
  have hnone : ∀ label ∈ reportLabels, labelled label trimmed = none := fun label hlabel =>
    labelled_eq_none_iff.mpr (Bool.eq_false_iff.mpr (List.any_eq_false.mp h label hlabel))
  simp only [reportLabels, List.forall_mem_cons] at hnone
  obtain ⟨h₁, h₂, h₃, h₄, h₅, h₆, h₇, h₈, h₉, -⟩ := hnone
  simp only [readInReport, readField, h₁, h₂, h₃, h₄, h₅, h₆, h₇, h₈, h₉]
  cases uuidOf trimmed <;> rfl

/-- A line with a label is never taken for an entry. -/
theorem readInReport_labelled {trimmed : List Char}
    (h : (reportLabels.any fun label => startsWith label trimmed) = true) (hex : String) :
    readInReport trimmed ≠ .field (.uuid hex) := by
  have hno : ∀ {label : String}, (∀ rest, labelled label trimmed = some rest → False) →
      startsWith label trimmed = false := fun hnone =>
    labelled_eq_none_iff.mp (Option.eq_none_iff_forall_not_mem.mpr hnone)
  unfold readInReport readField
  iterate 3
    split
    · exact Line.noConfusion
  iterate 6
    split
    · exact fun heq => Field.noConfusion (Line.field.inj heq)
  -- no label is left
  rename_i _ h₁ _ h₂ _ h₃ _ h₄ _ h₅ _ h₆ _ h₇ _ h₈ _ h₉
  simp [reportLabels, hno h₁, hno h₂, hno h₃, hno h₄, hno h₅, hno h₆, hno h₇, hno h₈,
    hno h₉] at h

/-- The loop takes a line for an entry just when it has the form of one. -/
theorem readLine_eq_uuid {line : List Char} {hex : String} :
    readLine line = .field (.uuid hex) ↔ uuidText line = some hex := by
  rw [uuidText, isPlain]
  cases hmgmt : isMgmt line with
  | true => simp [readLine_of_isMgmt hmgmt, isMarker, hmgmt]
  | false =>
    cases hmarker : isMarker line with
    | true => simp [readLine_of_isMarker hmarker hmgmt]
    | false =>
      rw [readLine_of_not_isMarker hmarker]
      cases hreport : isReport line with
      | true => simp
      | false =>
        cases hlabelled : isLabelled line with
        | true => simp [readInReport_labelled hlabelled]
        | false =>
          simp only [readInReport_unlabelled hlabelled, uuidOf_eq]
          cases printedUuid (trim line) <;> simp

/-- The loop is where the line stands. -/
structure AgreesAt (s : State) (p : Place) : Prop where
  mgmt : s.inMgmt = p.inMgmt
  report : s.inReport = p.inReport
  address : s.current = p.address

/-- The column of an address has the first appearances of what was taken for it. -/
structure Collected (s : State) (a : String) (taken : List String) : Prop where
  column : ∀ d, s.found.get? a = some d → d.serviceUuids = joined taken.eraseDups
  nothing : s.found.get? a = none → taken = []
  known : s.current = some a → (s.found.get? a).isSome
  plain : ∀ u ∈ taken, Plain u

/-- Lines that change neither the records nor the address. -/
theorem Collected.of_found {s s' : State} {a : String} {taken : List String}
    (h : Collected s a taken) (hfound : s'.found = s.found)
    (hcurrent : s'.current = s.current ∨ s'.current = none) : Collected s' a taken where
  column := by
    rw [hfound]
    exact h.column
  nothing := by
    rw [hfound]
    exact h.nothing
  known := by
    intro ha
    rw [hfound]
    rcases hcurrent with hcurrent | hcurrent
    · exact h.known (hcurrent ▸ ha)
    · rw [hcurrent] at ha
      cases ha
  plain := h.plain

/-- Another report of the address takes nothing. -/
theorem Collected.seen {s : State} {a : String} {taken : List String} (h : Collected s a taken)
    (key : String) : Collected (s.seen key) a taken := by
  by_cases hkey : key = a
  · subst hkey
    have hget : (s.seen key).found.get? key
        = some (s.heard ((s.found.get? key).getD (State.fresh key))) :=
      SortedMap.get?_alter_self _ _ _
    refine ⟨?_, ?_, ?_, h.plain⟩
    · intro d hd
      rw [hget] at hd
      obtain rfl := Option.some_inj.mp hd
      show ((s.found.get? key).getD (State.fresh key)).serviceUuids = _
      cases hold : s.found.get? key with
      | none =>
        rw [h.nothing hold]
        rfl
      | some d => exact h.column d hold
    · intro hnone
      rw [hget] at hnone
      cases hnone
    · intro _
      rw [hget]
      rfl
  · have hget : (s.seen key).found.get? a = s.found.get? a :=
      SortedMap.get?_alter_of_ne _ hkey _
    refine ⟨?_, ?_, ?_, h.plain⟩
    · rw [hget]
      exact h.column
    · rw [hget]
      exact h.nothing
    · intro hcurrent
      exact absurd (Option.some_inj.mp hcurrent) hkey

/-- What a field adds to the list. -/
def Field.taken : Field → List String
  | .uuid hex => [hex]
  | _ => []

/-- Taking an entry keeps the list of first places. -/
theorem eraseDups_taken {taken : List String} (h : ∀ u ∈ taken, Plain u) {d : Advertiser}
    (hd : d.serviceUuids = joined taken.eraseDups) (f : Field) :
    (f.apply d).serviceUuids = joined (taken ++ f.taken).eraseDups := by
  rcases f with (_ | dbm) | _ | _ | _ | _ | _ | hex | _
  case uuid =>
    show pushDistinct d.serviceUuids hex = joined (taken ++ [hex]).eraseDups
    rw [hd, pushDistinct_joined fun u hu => h u (List.mem_eraseDups.mp hu), eraseDups_concat]
  case nameShort name =>
    show ((Field.nameShort name).apply d).serviceUuids = joined (taken ++ []).eraseDups
    rw [List.append_nil, Field.apply]
    split_ifs
    · exact hd
    · exact hd
  all_goals
    show d.serviceUuids = joined (taken ++ []).eraseDups
    rw [List.append_nil]
    exact hd

/-- A field of the address is taken if it is an entry. -/
theorem Collected.field {s : State} {a : String} {taken : List String} (h : Collected s a taken)
    {key : String} (hkey : s.current = some key) {f : Field} (hf : (Line.field f).Wf) :
    Collected { s with found := s.found.modify key f.apply } a
      (taken ++ if key = a then f.taken else []) := by
  have hget : (s.found.modify key f.apply).get? a
      = if a = key then (s.found.get? a).map f.apply else s.found.get? a :=
    SortedMap.get?_modify _ _ _ _
  by_cases ha : key = a
  · subst ha
    obtain ⟨d, hd⟩ := Option.isSome_iff_exists.mp (h.known hkey)
    rw [if_pos rfl, hd, Option.map_some] at hget
    rw [if_pos rfl]
    refine ⟨?_, ?_, ?_, ?_⟩
    · intro d' hd'
      obtain rfl := Option.some_inj.mp (hget.symm.trans hd')
      exact eraseDups_taken h.plain (h.column d hd) f
    · intro hnone
      cases hget.symm.trans hnone
    · intro _
      show ((s.found.modify key f.apply).get? key).isSome = true
      rw [hget]
      rfl
    · intro u hu
      rcases List.mem_append.mp hu with hu | hu
      · exact h.plain u hu
      · cases f with
        | uuid hex => exact List.mem_singleton.mp hu ▸ hf hex rfl
        | _ => cases hu
  · rw [if_neg ha, List.append_nil]
    rw [if_neg (Ne.symm ha)] at hget
    refine ⟨?_, ?_, ?_, h.plain⟩
    · show ∀ d, (s.found.modify key f.apply).get? a = some d → _
      rw [hget]
      exact h.column
    · show (s.found.modify key f.apply).get? a = none → _
      rw [hget]
      exact h.nothing
    · show s.current = some a → ((s.found.modify key f.apply).get? a).isSome
      rw [hget]
      exact h.known

/-! ## Runs -/

/-- A line that begins with one of the labels begins with no other. -/
theorem labelled_address {trimmed rest : List Char}
    (h : labelled "Address: " trimmed = some rest) :
    labelled "Address type: " trimmed = none ∧ labelled "Event type: " trimmed = none := by
  have hfront : "Address: ".toList <+: trimmed := ⟨rest, (stripPrefix_eq_some.mp h).symm⟩
  have hother : ∀ label : String, ¬ label.toList <+: "Address: ".toList →
      ¬ "Address: ".toList <+: label.toList → labelled label trimmed = none := by
    intro label hlabel haddress
    refine labelled_of_not_prefix fun hprefix => ?_
    exact (List.prefix_or_prefix_of_prefix hprefix hfront).elim hlabel haddress
  exact ⟨hother _ (by decide) (by decide), hother _ (by decide) (by decide)⟩

/-- The loop reads the address that a line prints. -/
theorem readInReport_address {line : List Char} {a : String} :
    readInReport (trim line) = .address (some a) ↔ addressText line = some a := by
  rw [addressText]
  cases h : labelled "Address: " (trim line) with
  | some rest =>
    obtain ⟨hkind, hevent⟩ := labelled_address h
    simp [readInReport, h, hkind, hevent]
  | none =>
    simp only [readInReport, h, Option.bind_none]
    split
    · simp
    · split <;> simp

theorem AgreesAt.below {s : State} {p : Place} (h : AgreesAt s p) (line : List Char) :
    AgreesAt s (p.below line) := by
  rw [Place.below]
  split_ifs
  · exact ⟨h.mgmt, h.report, h.address⟩
  · exact ⟨h.mgmt, h.report, h.address⟩

/-- A line that begins nothing leaves the loop where it is. -/
theorem step_stays (s : State) {l : Line} (hmgmt : l ≠ .mgmt) (hhci : l ≠ .hci)
    (hreport : l ≠ .report) (haddress : ∀ a, l ≠ .address (some a)) :
    (s.step l).inMgmt = s.inMgmt ∧ (s.step l).inReport = s.inReport ∧
      (s.step l).current = s.current := by
  have hite : ∀ {s' : State} (skip : Bool), s'.inMgmt = s.inMgmt → s'.inReport = s.inReport →
      s'.current = s.current →
      (if skip = true then s else s').inMgmt = s.inMgmt ∧
        (if skip = true then s else s').inReport = s.inReport ∧
        (if skip = true then s else s').current = s.current := by
    intro s' skip hm hr hc
    cases skip with
    | true => exact ⟨rfl, rfl, rfl⟩
    | false => exact ⟨hm, hr, hc⟩
  cases l with
  | mgmt => exact absurd rfl hmgmt
  | hci => exact absurd rfl hhci
  | report => exact absurd rfl hreport
  | addressType kind => exact hite _ rfl rfl rfl
  | eventType pdu => exact hite _ rfl rfl rfl
  | address address =>
    cases address with
    | some a => exact absurd rfl (haddress a)
    | none => exact hite _ rfl rfl rfl
  | field f =>
    refine hite _ ?_ ?_ ?_
    all_goals cases hcurrent : s.current <;> simp [hcurrent]

/-- **The loop is where the line stands**, by the boundaries, reports and addresses above it. -/
theorem AgreesAt.step {s : State} {p : Place} (h : AgreesAt s p) (line : List Char) :
    AgreesAt (s.step (readLine line)) (p.next line) := by
  rw [Place.next]
  cases hmarker : isMarker line with
  | true =>
    rw [if_pos rfl]
    cases hmgmt : isMgmt line with
    | true =>
      rw [readLine_of_isMgmt hmgmt]
      exact ⟨rfl, rfl, rfl⟩
    | false =>
      rw [readLine_of_isMarker hmarker hmgmt]
      exact ⟨rfl, rfl, rfl⟩
  | false =>
    obtain ⟨hmgmt, hhci⟩ := not_isMarker hmarker
    rw [if_neg Bool.false_ne_true]
    by_cases hinside : p.inMgmt = true
    · rw [if_pos hinside, State.step_inMgmt (h.mgmt.trans hinside) hmgmt hhci]
      exact h
    rw [if_neg hinside, readLine_of_not_isMarker hmarker]
    have houtside : s.inMgmt = false := h.mgmt.trans (Bool.eq_false_iff.mpr hinside)
    cases hreport : isReport line with
    | true =>
      rw [if_pos rfl, if_pos rfl, State.step, if_neg (houtside ▸ Bool.false_ne_true)]
      exact ⟨houtside, rfl, h.address⟩
    | false =>
      rw [if_neg Bool.false_ne_true, if_neg Bool.false_ne_true]
      obtain ⟨hmgmt, hhci, hno⟩ := readInReport_ne (trim line)
      by_cases hinReport : p.inReport = true
      · have hhere : (s.inMgmt || !s.inReport) = false := by
          rw [houtside, h.report, hinReport]
          rfl
        rw [if_pos hinReport]
        cases haddress : addressText line with
        | some a =>
          rw [readInReport_address.mpr haddress, State.step, if_neg (hhere ▸ Bool.false_ne_true)]
          exact ⟨h.mgmt, h.report, rfl⟩
        | none =>
          have hnone : ∀ a, readInReport (trim line) ≠ .address (some a) := by
            intro a hread
            rw [readInReport_address.mp hread] at haddress
            cases haddress
          obtain ⟨hm, hr, hc⟩ := step_stays s hmgmt hhci hno hnone
          exact AgreesAt.below ⟨hm.trans h.mgmt, hr.trans h.report, hc.trans h.address⟩ line
      · rw [if_neg hinReport, State.step_not_inReport
          (h.report.trans (Bool.eq_false_iff.mpr hinReport)) hmgmt hhci hno]
        exact h.below line

/-- A field takes what it adds for the address where it stands. -/
theorem Collected.step_field {s : State} {a : String} {taken : List String}
    (h : Collected s a taken) {f : Field} (hf : (Line.field f).Wf) :
    Collected (s.step (.field f)) a
      (taken ++ if !s.inMgmt && s.inReport && s.current = some a then f.taken else []) := by
  by_cases hskip : (s.inMgmt || !s.inReport) = true
  · have hnot : (!s.inMgmt && s.inReport) = false := by
      rw [← Bool.not_eq_true', Bool.not_and, Bool.not_not]
      exact hskip
    rw [State.step, if_pos hskip, hnot, Bool.false_and, if_neg Bool.false_ne_true,
      List.append_nil]
    exact h
  · have hyes : (!s.inMgmt && s.inReport) = true := by
      rw [Bool.not_eq_true, Bool.or_eq_false_iff, Bool.not_eq_false'] at hskip
      rw [hskip.1, hskip.2]
      rfl
    rw [State.step, if_neg hskip, hyes, Bool.true_and]
    cases hcurrent : s.current with
    | none =>
      rw [if_neg (by simp), List.append_nil]
      exact h
    | some key =>
      have hfield := h.field hcurrent hf
      rw [hcurrent] at hfield
      by_cases hkey : key = a
      · rw [if_pos hkey] at hfield
        rw [if_pos (by simpa using hkey)]
        exact hfield
      · rw [if_neg hkey] at hfield
        rw [if_neg (by simpa using hkey)]
        exact hfield

/-- The place and the state agree on whose report it is. -/
theorem AgreesAt.inReportOf {s : State} {p : Place} (h : AgreesAt s p) (a : String) :
    p.inReportOf a = (!s.inMgmt && s.inReport && s.current = some a) := by
  rw [Place.inReportOf, h.mgmt, h.report, h.address]

/-- A line that the loop does not take for an entry is not in the form of one. -/
theorem uuidLine_eq_none {p : Place} {a : String} {line : List Char}
    (h : ∀ hex, readLine line ≠ .field (.uuid hex)) : p.uuidLine a line = none := by
  have hnone : uuidText line = none :=
    Option.eq_none_iff_forall_ne_some.mpr fun hex heq => h hex (readLine_eq_uuid.mpr heq)
  rw [Place.uuidLine, hnone, Option.map_none, ite_self]

/-- What a line adds to the list of an address. -/
theorem Collected.step {s : State} {p : Place} {a : String} {taken : List String}
    (h : Collected s a taken) (hplace : AgreesAt s p) (line : List Char) :
    Collected (s.step (readLine line)) a
      (taken ++ (p.uuidLine a line).toList.map Prod.snd) := by
  have hwf := readLine_wf line
  have hidle : (∀ hex, readLine line ≠ .field (.uuid hex)) → Collected (s.step (readLine line)) a
      taken → Collected (s.step (readLine line)) a
        (taken ++ (p.uuidLine a line).toList.map Prod.snd) := by
    intro hno hstep
    rw [uuidLine_eq_none hno, Option.toList_none, List.map_nil, List.append_nil]
    exact hstep
  cases hline : readLine line with
  | field f =>
    rw [hline] at hwf hidle
    have hstep := h.step_field hwf
    rw [← hplace.inReportOf] at hstep
    cases f with
    | uuid hex =>
      rw [Place.uuidLine, readLine_eq_uuid.mp hline]
      by_cases hhere : p.inReportOf a = true
      · rw [if_pos hhere] at hstep ⊢
        exact hstep
      · rw [if_neg hhere] at hstep ⊢
        exact hstep
    | _ =>
      rw [Field.taken, ite_self, List.append_nil] at hstep
      · exact hidle (fun _ heq => Field.noConfusion (Line.field.inj heq)) hstep
      · exact fun _ => Field.noConfusion
  | address address =>
    rw [hline] at hidle
    refine hidle (fun _ => Line.noConfusion) ?_
    rw [State.step]
    split_ifs
    · exact h
    · cases address with
      | none => exact h
      | some key => exact h.seen key
  | mgmt =>
    rw [hline] at hidle
    exact hidle (fun _ => Line.noConfusion) (h.of_found rfl (.inr rfl))
  | hci =>
    rw [hline] at hidle
    exact hidle (fun _ => Line.noConfusion) (h.of_found rfl (.inr rfl))
  | _ =>
    rw [hline] at hidle
    refine hidle (fun _ => Line.noConfusion) (h.of_found ?_ (.inl ?_))
    all_goals
      rw [State.step]
      split_ifs <;> rfl

/-- What the parser has taken is what was printed in the form of an entry. -/
theorem Collected.run {a : String} (ls : List (List Char)) {s : State} {p : Place}
    {taken : List String} (h : Collected s a taken) (hplace : AgreesAt s p) :
    Collected (run s (ls.map readLine)) a
      (taken ++ (uuidLinesFrom a p ls).map Prod.snd) := by
  induction ls generalizing s p taken with
  | nil =>
    show Collected s a (taken ++ [])
    rwa [List.append_nil]
  | cons line ls ih =>
    have hrest := ih (h.step hplace line) (hplace.step line)
    rw [List.append_assoc, ← List.map_append] at hrest
    exact hrest

theorem collected_init (a : String) : Collected .init a [] where
  column := by
    intro d hd
    cases hd
  nothing := fun _ => rfl
  known := by
    intro h
    cases h
  plain := by simp

/-! ## Main result -/

/-- At the end of a capture, what was collected for an address is what its entry lines say. -/
theorem collected_text (text : String) (a : String) :
    Collected (run .init ((lines text.toList).map readLine)) a
      ((uuidLines text a).map Prod.snd) := by
  have hrun := (collected_init a).run (lines text.toList) (p := .start) ⟨rfl, rfl, rfl⟩
  rwa [List.nil_append] at hrun

/-- **The column of a device has the first appearances of all that its reports print in the
form of an entry.** -/
theorem serviceUuids_eq {text : String} {d : Advertiser}
    (hd : d ∈ (parseBtmon text).advertisers) :
    d.serviceUuids = joined ((uuidLines text d.address).map Prod.snd).eraseDups := by
  rw [parseBtmon_eq] at hd
  exact (collected_text text d.address).column d
    ((mem_advertisers_iff (sound_text text)).mp ⟨hd, rfl⟩)

/-- An entry is a line in the form of one. -/
theorem mem_of_mem_entries {text a : String} {u : String} (h : u ∈ uuidEntries text a) :
    u ∈ (uuidLines text a).map Prod.snd := by
  obtain ⟨e, he, rfl⟩ := List.mem_map.mp h
  exact List.mem_map_of_mem (List.mem_of_mem_filter he)

/-- **The column has just the entries under a header when what else was taken is harmless**:
it was taken before, or is the next entry that is new. -/
theorem serviceUuids_iff (text : String) (a : String) :
    (∀ d ∈ (parseBtmon text).advertisers, d.address = a →
      d.serviceUuids = joined (uuidEntries text a).eraseDups) ↔
      HarmlessStrays (uuidLines text a) := by
  have hcollected := collected_text text a
  rw [← eraseDups_strays_iff]
  constructor
  · intro h
    cases hget : (run .init ((lines text.toList).map readLine)).found.get? a with
    | none =>
      have hnothing := hcollected.nothing hget
      have hentries : uuidEntries text a = [] := by
        refine List.eq_nil_iff_forall_not_mem.mpr fun u hu => ?_
        have htaken := mem_of_mem_entries hu
        rw [hnothing] at htaken
        cases htaken
      rw [hnothing]
      exact congrArg List.eraseDups hentries.symm
    | some d =>
      obtain ⟨hmem, haddress⟩ := (mem_advertisers_iff (sound_text text)).mpr hget
      rw [← parseBtmon_eq] at hmem
      have hcolumn := h d hmem haddress
      rw [serviceUuids_eq hmem, haddress] at hcolumn
      refine joined_inj ?_ ?_ hcolumn
      · exact fun u hu => hcollected.plain u (List.mem_eraseDups.mp hu)
      · exact fun u hu => hcollected.plain u (mem_of_mem_entries (List.mem_eraseDups.mp hu))
  · rintro h d hd rfl
    rw [serviceUuids_eq hd, h]
    rfl

/-! A watch that says what it is. -/

/-- A report that lists no UUID, and whose appearance is printed in the form of one. -/
def watchLines : List (List Char) :=
  ["> HCI Event: LE Meta Event (0x3e) plen 30".toList, "LE Advertising Report (0x02)".toList,
    "Event type: Connectable undirected - ADV_IND (0x00)".toList,
    "Address type: Public (0x00)".toList,
    "Address: C8:47:80:29:5E:3B (OUI C8-47-80)".toList, "Appearance: Watch (0x00c0)".toList]

theorem isTrimmedLine_watchLines : ∀ line ∈ watchLines, IsTrimmedLine line :=
  isTrimmedLine_of_all (by decide +kernel)

/-- The appearance gets into the list, which has no entry. -/
theorem serviceUuids_appearance :
    ((parseBtmon (printed watchLines)).advertisers.map fun d => (d.address, d.serviceUuids))
      = [("C8:47:80:29:5E:3B", some "00c0")] ∧
    uuidEntries (printed watchLines) "C8:47:80:29:5E:3B" = [] := by
  constructor
  · have hprints : Prints (printed watchLines) watchLines :=
      prints_printed isTrimmedLine_watchLines
    rw [parseBtmon_of_prints hprints]
    decide +kernel
  · rw [uuidEntries, uuidLines, lines_printed isTrimmedLine_watchLines]
    decide +kernel

end HostServices.DetectedDevices
