import HostServices.DetectedDevices.Ble
import HostServices.Lib.Blocks

/-!
# The blocks of a capture

btmon begins a block with `<` or `>` for HCI traffic and with `@` for a management event. Only
the blocks with an advertising report in them are about other devices. The loop forgets at
the beginning of a block all but the records and their number, so that nothing gets from one
block into the next.

- `isMarker`, `isReport`, `isReportBlock`: blocks by the text of their lines;
- `State.enter`: the state at the beginning of a block;
- `parseBtmon_congr`: the scan of a text comes from its report blocks alone.
-/

namespace HostServices.DetectedDevices

open HostServices.Lib

/-! ## Blocks by their text -/

/-- The line begins a block of the management channel. -/
def isMgmt (line : List Char) : Bool := startsWith "@" (trim line)

/-- A block begins at this line. -/
def isMarker (line : List Char) : Bool :=
  isMgmt line || startsWith "<" (trim line) || startsWith ">" (trim line)

/-- The line is the heading of a report event. -/
def isReport (line : List Char) : Bool :=
  startsWith "LE Advertising Report" (trim line) ||
    startsWith "LE Extended Advertising Report" (trim line)

/-- A block with an advertising report, and not the copy of one in a management event. -/
def isReportBlock (block : List (List Char)) : Bool :=
  !(block.head?.any isMgmt) && block.any isReport

/-- The blocks of a text; the first is what stands before the first marker. -/
def captureBlocks (text : String) : List (List (List Char)) :=
  let split := splitBlocks isMarker (lines text.toList)
  split.1 :: split.2

/-- The blocks of a capture that are report events. -/
def reportBlocks (text : String) : List (List (List Char)) :=
  (captureBlocks text).filter isReportBlock

/-! ## What lines do by their text -/

/-- A field line opens nothing. -/
theorem readInReport_ne (trimmed : List Char) :
    readInReport trimmed ≠ .mgmt ∧ readInReport trimmed ≠ .hci ∧
      readInReport trimmed ≠ .report := by
  unfold readInReport
  iterate 3
    split
    · exact ⟨Line.noConfusion, Line.noConfusion, Line.noConfusion⟩
  exact ⟨Line.noConfusion, Line.noConfusion, Line.noConfusion⟩

/-- The line of a management block. -/
theorem readLine_of_isMgmt {line : List Char} (h : isMgmt line = true) :
    readLine line = .mgmt := if_pos h

/-- The line of another block. -/
theorem readLine_of_isMarker {line : List Char} (h : isMarker line = true)
    (hmgmt : isMgmt line = false) : readLine line = .hci := by
  rw [isMarker, hmgmt, Bool.false_or] at h
  exact (if_neg (Bool.eq_false_iff.mp hmgmt)).trans (if_pos h)

/-- A line inside a block. -/
theorem readLine_of_not_isMarker {line : List Char} (h : isMarker line = false) :
    readLine line = if isReport line then .report else readInReport (trim line) := by
  rw [isMarker, Bool.or_assoc, Bool.or_eq_false_iff] at h
  exact (if_neg (Bool.eq_false_iff.mp h.1)).trans (if_neg (Bool.eq_false_iff.mp h.2))

theorem not_isMarker {line : List Char} (h : isMarker line = false) :
    readLine line ≠ .mgmt ∧ readLine line ≠ .hci := by
  rw [readLine_of_not_isMarker h]
  split_ifs
  · exact ⟨Line.noConfusion, Line.noConfusion⟩
  · exact ⟨(readInReport_ne _).1, (readInReport_ne _).2.1⟩

theorem not_isReport {line : List Char} (h : isMarker line = false)
    (hreport : isReport line = false) : readLine line ≠ .report := by
  rw [readLine_of_not_isMarker h, if_neg (Bool.eq_false_iff.mp hreport)]
  exact (readInReport_ne _).2.2

/-! ## Blocks -/

namespace State

/-- What is kept at the beginning of a block. -/
def core (s : State) : SortedMap String Advertiser × Nat := (s.found, s.reportsTotal)

/-- The state at the beginning of a block. -/
def enter (kept : SortedMap String Advertiser × Nat) : State :=
  ⟨kept.1, kept.2, none, none, none, false, false⟩

/-- The loop of the source, over lines as they stand in the text. -/
def stepText (s : State) (line : List Char) : State := s.step (readLine line)

/-- A marker makes the state what it is at the beginning of any block. -/
theorem stepText_marker (s : State) {line : List Char} (h : isMarker line = true) :
    s.stepText line = (enter s.core).stepText line := by
  cases hmgmt : isMgmt line with
  | true =>
    rw [stepText, stepText, readLine_of_isMgmt hmgmt]
    rfl
  | false =>
    rw [stepText, stepText, readLine_of_isMarker h hmgmt]
    rfl

/-- In a management event no line but a marker does anything. -/
theorem step_inMgmt {s : State} (h : s.inMgmt = true) {l : Line} (hmgmt : l ≠ .mgmt)
    (hhci : l ≠ .hci) : s.step l = s := by
  cases l with
  | mgmt => exact absurd rfl hmgmt
  | hci => exact absurd rfl hhci
  | report => rw [step, if_pos h]
  | _ => rw [step, h, Bool.true_or, if_pos rfl]

/-- Before a report no line but a marker does anything. -/
theorem step_not_inReport {s : State} (h : s.inReport = false) {l : Line} (hmgmt : l ≠ .mgmt)
    (hhci : l ≠ .hci) (hreport : l ≠ .report) : s.step l = s := by
  cases l with
  | mgmt => exact absurd rfl hmgmt
  | hci => exact absurd rfl hhci
  | report => exact absurd rfl hreport
  | _ => rw [step, h, Bool.not_false, Bool.or_true, if_pos rfl]

/-- Lines that do nothing in this state. -/
theorem foldl_stepText_idle {s : State} {body : List (List Char)}
    (h : ∀ line ∈ body, s.step (readLine line) = s) : body.foldl stepText s = s := by
  induction body with
  | nil => rfl
  | cons line body ih =>
    obtain ⟨hline, hbody⟩ := List.forall_mem_cons.mp h
    rw [List.foldl_cons, stepText, hline]
    exact ih hbody

/-- A block that is no report block has no effect. -/
theorem blockEffect_idle {block : List (List Char)}
    (hbody : ∀ line ∈ block.tail, isMarker line = false) (h : isReportBlock block = false)
    (kept : SortedMap String Advertiser × Nat) :
    blockEffect stepText core enter kept block = kept := by
  rw [blockEffect]
  cases block with
  | nil => rfl
  | cons first body =>
    have hmarkers : ∀ line ∈ body, readLine line ≠ .mgmt ∧ readLine line ≠ .hci :=
      fun line hline => not_isMarker (hbody line hline)
    rw [List.foldl_cons]
    cases hmgmt : isMgmt first with
    | true =>
      have hfirst : (enter kept).stepText first = (enter kept).boundary true := by
        rw [stepText, readLine_of_isMgmt hmgmt, step]
      rw [hfirst, foldl_stepText_idle fun line hline =>
        step_inMgmt rfl (hmarkers line hline).1 (hmarkers line hline).2]
      rfl
    | false =>
      have hreports : ∀ line ∈ first :: body, isReport line = false := by
        rw [isReportBlock, List.head?_cons, Option.any_some, hmgmt, Bool.not_false, Bool.true_and,
          List.any_eq_false] at h
        exact fun line hline => Bool.eq_false_iff.mpr (h line hline)
      obtain ⟨hfirst, hrest⟩ := List.forall_mem_cons.mp hreports
      have henter : (enter kept).stepText first = enter kept := by
        rw [stepText]
        cases hmarker : isMarker first with
        | true =>
          rw [readLine_of_isMarker hmarker hmgmt]
          rfl
        | false =>
          exact step_not_inReport rfl (not_isMarker hmarker).1 (not_isMarker hmarker).2
            (not_isReport hmarker hfirst)
      rw [henter, foldl_stepText_idle fun line hline =>
        step_not_inReport rfl (hmarkers line hline).1 (hmarkers line hline).2
          (not_isReport (hbody line hline) (hrest line hline))]
      rfl

end State

/-! ## Main result -/

/-- A block has no marker but its first line. -/
theorem captureBlocks_tail (text : String) :
    ∀ block ∈ captureBlocks text, ∀ line ∈ block.tail, isMarker line = false := by
  refine List.forall_mem_cons.mpr ⟨?_, ?_⟩
  · intro line hline
    exact splitBlocks_head _ _ line (List.mem_of_mem_tail hline)
  · intro block hblock
    obtain ⟨first, body, rfl, _, hbody⟩ := splitBlocks_isBlock _ _ block hblock
    exact hbody

/-- The scan of a text, block by block. -/
theorem parseBtmon_blocks (text : String) :
    ((parseBtmon text).advertisers, (parseBtmon text).reportsTotal)
      = Prod.map SortedMap.values id ((reportBlocks text).foldl
          (blockEffect State.stepText State.core State.enter) (.empty, 0)) := by
  have hrun : (lines text.toList).foldl State.stepText .init
      = (splitBlocks isMarker (lines text.toList)).2.flatten.foldl State.stepText
          ((splitBlocks isMarker (lines text.toList)).1.foldl State.stepText .init) := by
    rw [← List.foldl_append, flatten_splitBlocks]
  have hcore : ((lines text.toList).foldl State.stepText .init).core
      = (captureBlocks text).foldl (blockEffect State.stepText State.core State.enter)
          (.empty, 0) := by
    rw [hrun]
    exact core_foldl_blocks (fun s _ => State.stepText_marker s)
      (splitBlocks_isBlock isMarker (lines text.toList)) _
  rw [reportBlocks, ← foldl_filter fun block hblock hkeep kept =>
    State.blockEffect_idle (captureBlocks_tail text block hblock) hkeep kept, ← hcore]
  rfl

/-- Captures with the same report blocks are read the same. -/
theorem parseBtmon_congr {text text' : String} (h : reportBlocks text = reportBlocks text') :
    parseBtmon text = parseBtmon text' := by
  have heq := parseBtmon_blocks text
  rw [h, ← parseBtmon_blocks text'] at heq
  obtain ⟨hrows, htotal⟩ := Prod.mk.inj heq
  exact Scan.ext hrows htotal

/-- The second text is the first one with blanks in front of its lines. -/
def Indented (text text' : String) : Prop :=
  List.Forall₂ (fun line line' => ∃ n, line' = List.replicate n ' ' ++ line)
    (lines text.toList) (lines text'.toList)

/-- Indentation does not matter. -/
theorem readLine_indented (n : Nat) (line : List Char) :
    readLine (List.replicate n ' ' ++ line) = readLine line := by
  induction n with
  | zero => rfl
  | succ n ih =>
    rw [List.replicate_succ, List.cons_append, readLine, trim_blank isWhitespace_space]
    exact ih

theorem map_readLine_indented {ls ls' : List (List Char)}
    (h : List.Forall₂ (fun line line' => ∃ n, line' = List.replicate n ' ' ++ line) ls ls') :
    ls'.map readLine = ls.map readLine := by
  induction h with
  | nil => rfl
  | cons hline _ ih =>
    obtain ⟨n, rfl⟩ := hline
    rw [List.map_cons, List.map_cons, readLine_indented, ih]

/-- A capture that is indented otherwise is read the same. -/
theorem parseBtmon_indented {text text' : String} (h : Indented text text') :
    parseBtmon text' = parseBtmon text := by
  rw [parseBtmon_eq, map_readLine_indented h, ← parseBtmon_eq]

/-- **Only the report blocks of a capture influence the scan**: two captures with the same
report blocks in the same order have the same scan, whatever other blocks stand between
them; and blanks in front of lines do not matter. -/
theorem parseBtmon_reportBlocks :
    (∀ text text', reportBlocks text = reportBlocks text' →
      parseBtmon text = parseBtmon text') ∧
    (∀ text text', Indented text text' → parseBtmon text' = parseBtmon text) :=
  ⟨fun _ _ => parseBtmon_congr, fun _ _ => parseBtmon_indented⟩

end HostServices.DetectedDevices
