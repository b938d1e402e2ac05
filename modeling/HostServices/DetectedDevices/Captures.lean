import HostServices.DetectedDevices.Totals

/-!
# What a capture is made of

Captures are described by their lines without the blanks around them. Here are the kinds of
lines that the loop tells apart, what it reads in each, and what a line inside of a report
does to the record of an address.

- `IsFieldLine`: a line that only says something about the current device;
- `AddressText`, `EventText`: the lines of an address and of an event type;
- `InReport`, `At`: the loop is inside of a report, and at an address;
- `At.field_get?`, `InReport.address_get?`: what the lines of a report do to the records.
-/

namespace HostServices.DetectedDevices

open HostServices.Lib

/-- A capture is read line by line. -/
theorem parseBtmon_of_prints {text : String} {contents : List (List Char)}
    (h : Prints text contents) :
    parseBtmon text = (run .init (contents.map readTrimmed)).scan := by
  rw [parseBtmon_eq, ← h, List.map_map]
  rfl

/-- The state is sound behind every capture. -/
theorem sound_of_prints {text : String} {contents : List (List Char)} (h : Prints text contents) :
    (run .init (contents.map readTrimmed)).Sound := by
  rw [← h, List.map_map]
  exact sound_text text

/-- The device of an address, and the state behind the capture. -/
theorem mem_advertisers_iff {s : State} (h : s.Sound) {a : String} {d : Advertiser} :
    d ∈ s.scan.advertisers ∧ d.address = a ↔ s.found.get? a = some d := by
  constructor
  · rintro ⟨hmem, haddress⟩
    obtain ⟨key, hkey⟩ := SortedMap.mem_values.mp hmem
    rw [← haddress, (h.rows _ (SortedMap.get?_eq_some.mp hkey)).1, hkey]
  · intro hget
    exact ⟨SortedMap.mem_values.mpr ⟨a, hget⟩, (h.rows _ (SortedMap.get?_eq_some.mp hget)).1⟩

/-! ## Lines -/

/-- What a line begins with that is not only a field. -/
def openings : List String :=
  ["@", "<", ">", "LE Advertising Report", "LE Extended Advertising Report", "Address type: ",
    "Event type: ", "Address: "]

/-- The line opens nothing: no block, no report and no address. -/
def IsFieldLine (content : List Char) : Prop :=
  ∀ front ∈ openings, ¬ front.toList <+: content

/-- A field line is read as its field. -/
theorem IsFieldLine.readTrimmed {content : List Char} (h : IsFieldLine content) :
    readTrimmed content = .field (readField content) := by
  unfold IsFieldLine openings at h
  simp only [List.forall_mem_cons] at h
  obtain ⟨hmgmt, hless, hgreater, hlegacy, hextended, htype, hevent, haddress, _⟩ := h
  rw [DetectedDevices.readTrimmed, startsWith_of_not_prefix hmgmt,
    startsWith_of_not_prefix hless, startsWith_of_not_prefix hgreater,
    startsWith_of_not_prefix hlegacy, startsWith_of_not_prefix hextended, readInReport,
    labelled_of_not_prefix htype, labelled_of_not_prefix hevent,
    labelled_of_not_prefix haddress]
  rfl

/-- The line of an HCI event. -/
theorem readTrimmed_event (rest : List Char) : readTrimmed ('>' :: rest) = .hci := rfl

theorem readTrimmed_legacy (rest : List Char) :
    readTrimmed ("LE Advertising Report".toList ++ rest) = .report := rfl

theorem readTrimmed_addressType (rest : List Char) :
    readTrimmed ("Address type: ".toList ++ rest)
      = .addressType (if startsWith "Random" rest then .randomAddress else .publicAddress) :=
  rfl

theorem readTrimmed_eventType (rest : List Char) :
    readTrimmed ("Event type: ".toList ++ rest) = .eventType (pduSymbol rest) := rfl

/-- An address as it is printed, and what is said about it behind a blank. -/
structure AddressText where
  address : List Char
  annotation : List Char
  ne_nil : address ≠ []
  word : ∀ c ∈ address, isWhitespace c = false
  blank : ∀ c ∈ annotation.head?, isWhitespace c = true

/-- The key of the record that the address gets. -/
def AddressText.key (a : AddressText) : String := String.ofList a.address

/-- The line that prints the address. -/
def AddressText.content (a : AddressText) : List Char :=
  "Address: ".toList ++ (a.address ++ a.annotation)

theorem AddressText.readTrimmed_content (a : AddressText) :
    readTrimmed a.content = .address (some a.key) := by
  have hword : (words (a.address ++ a.annotation)).head? = some a.address := by
    cases hbehind : a.annotation with
    | nil => rw [List.append_nil, words_of_word a.ne_nil a.word, List.head?_cons]
    | cons c rest =>
      have hblank : isWhitespace c = true := a.blank c (by rw [hbehind]; rfl)
      rw [words_append a.ne_nil a.word hblank, List.head?_cons]
  have hread : DetectedDevices.readTrimmed a.content
      = .address ((words (a.address ++ a.annotation)).head?.map String.ofList) := rfl
  rw [hread, hword, Option.map_some, key]

/-- What stands behind `Event type: `: prose, a dash and the symbol of the PDU type, or prose
alone where the type is none of the known ones. -/
inductive EventText
  | typed (prose symbol code : List Char) (no_dash : '-' ∉ prose)
      (word : ∀ c ∈ symbol, isWhitespace c = false)
  | reserved (prose : List Char) (no_dash : '-' ∉ prose)

namespace EventText

/-- What is printed for the type. -/
def text : EventText → List Char
  | typed prose symbol code _ _ =>
    prose ++ (" - ".toList ++ (symbol ++ (" (".toList ++ (code ++ [')']))))
  | reserved prose _ => prose

/-- The PDU type of the report. -/
def pdu : EventText → Option String
  | typed _ symbol _ _ _ => some (String.ofList symbol)
  | reserved _ _ => none

/-- The line that prints the type. -/
def content (e : EventText) : List Char := "Event type: ".toList ++ e.text

/-- The type that is printed is the type that is read. -/
theorem pduSymbol_text (e : EventText) : pduSymbol e.text = e.pdu := by
  cases e with
  | reserved prose no_dash =>
    have hcut : cutAt " - ".toList prose = none := cutAt_eq_none (c := '-') (by simp) no_dash
    rw [text, pduSymbol, secondPiece, hcut]
    rfl
  | typed prose symbol code no_dash word =>
    have hspace : ' ' ∉ symbol := fun hmem => by
      have hnot := word _ hmem
      rw [isWhitespace_space] at hnot
      cases hnot
    have hcut : cutAt " - ".toList (typed prose symbol code no_dash word).text
        = some (prose, symbol ++ (" (".toList ++ (code ++ [')']))) :=
      cutAt_mark (by decide) no_dash _
    have hpiece : firstPiece " - ".toList (symbol ++ (" (".toList ++ (code ++ [')'])))
        = symbol ++ (" (".toList ++ firstPiece " - ".toList (code ++ [')'])) := by
      refine (firstPiece_append hspace _).trans (congrArg _ ?_)
      refine (firstPiece_cons rfl).trans (congrArg _ ?_)
      exact firstPiece_cons (stripPrefix_cons_of_ne (by decide) _ _)
    have hsymbol : firstPiece " (".toList
        (symbol ++ (" (".toList ++ firstPiece " - ".toList (code ++ [')']))) = symbol :=
      firstPiece_mark hspace _
    rw [pduSymbol, secondPiece, hcut, Option.map_some, Option.map_some]
    dsimp only
    rw [hpiece, hsymbol, trim_of_nonblank word, pdu]

theorem readTrimmed_content (e : EventText) : readTrimmed e.content = .eventType e.pdu :=
  (readTrimmed_eventType e.text).trans (congrArg Line.eventType e.pduSymbol_text)

end EventText

/-! ## Inside of a report -/

/-- The loop is inside of a report. -/
structure InReport (s : State) : Prop where
  not_mgmt : s.inMgmt = false
  report : s.inReport = true

/-- The loop is at an address of a report. -/
structure At (s : State) (key : String) : Prop extends InReport s where
  current : s.current = some key
  known : (s.found.get? key).isSome

theorem InReport.not_skipped {s : State} (h : InReport s) :
    (s.inMgmt || !s.inReport) = false := by
  rw [h.not_mgmt, h.report]
  rfl

/-- The two lines before an address change no record. -/
theorem InReport.eventType {s : State} (h : InReport s) (pdu : Option String) :
    s.step (.eventType pdu) = { s with pendingPdu := pdu } := by
  rw [State.step, h.not_skipped, if_neg Bool.false_ne_true]

theorem InReport.addressType {s : State} (h : InReport s) (kind : AddressKind) :
    s.step (.addressType kind) = { s with pendingKind := some kind } := by
  rw [State.step, h.not_skipped, if_neg Bool.false_ne_true]

theorem InReport.address {s : State} (h : InReport s) (key : String) :
    s.step (.address (some key)) = s.seen key := by
  rw [State.step, h.not_skipped, if_neg Bool.false_ne_true, Option.elim_some]

/-- Behind the line of an address the fields belong to it. -/
theorem InReport.at_address {s : State} (h : InReport s) (key : String) :
    At (s.step (.address (some key))) key := by
  rw [h.address]
  refine ⟨⟨h.not_mgmt, h.report⟩, rfl, ?_⟩
  show ((s.found.alter key _).get? key).isSome = true
  rw [SortedMap.get?_alter_self]
  rfl

/-- The records after the line of an address. -/
theorem InReport.address_get? {s : State} (h : InReport s) (key k : String) :
    (s.step (.address (some key))).found.get? k
      = if k = key then some (s.heard ((s.found.get? key).getD (State.fresh key)))
        else s.found.get? k := by
  rw [h.address]
  show (s.found.alter key _).get? k = _
  split_ifs with hk
  · rw [hk, SortedMap.get?_alter_self]
  · rw [SortedMap.get?_alter_of_ne _ (Ne.symm hk)]

/-- A field before any address is passed over. -/
theorem InReport.field_none {s : State} (h : InReport s) (hcurrent : s.current = none)
    (f : Field) : s.step (.field f) = s := by
  rw [State.step, h.not_skipped, if_neg Bool.false_ne_true, hcurrent, Option.elim_none]

theorem At.field {s : State} {key : String} (h : At s key) (f : Field) :
    s.step (.field f) = { s with found := s.found.modify key f.apply } := by
  rw [State.step, h.not_skipped, if_neg Bool.false_ne_true, h.current, Option.elim_some]

/-- The records after a line about the current device. -/
theorem At.field_get? {s : State} {key : String} (h : At s key) (f : Field) (k : String) :
    (s.step (.field f)).found.get? k
      = if k = key then (s.found.get? k).map f.apply else s.found.get? k := by
  rw [h.field]
  exact SortedMap.get?_modify _ _ _ _

/-- Behind a field more fields may follow. -/
theorem At.step_field {s : State} {key : String} (h : At s key) (f : Field) :
    At (s.step (.field f)) key := by
  have hget := h.field_get? f key
  have hfield := h.field f
  refine ⟨⟨?_, ?_⟩, ?_, ?_⟩
  · rw [hfield]
    exact h.not_mgmt
  · rw [hfield]
    exact h.report
  · rw [hfield]
    exact h.current
  · rw [hget, if_pos rfl, Option.isSome_map]
    exact h.known

/-- Behind the heading of a report event there is a report. -/
theorem inReport_heading (s : State) : InReport (run s [.hci, .report]) := ⟨rfl, rfl⟩

end HostServices.DetectedDevices
