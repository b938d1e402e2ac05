import HostServices.DetectedDevices.Captures

/-!
# Which devices count as connectable

A device sends reports of several PDU types in a window. The record keeps the first type that
was printed for its address, so that the verdict depends on which report came first. It is
the right one, in any order of the blocks, just when no block prints another type in front
of a connectable one.

- `LegacyReport`, `LegacyBlock`: a block of advertising reports, as it is printed;
- `observed_capture`: the record keeps the first type that was printed;
- `Counted`, `CountedRight`: what is asked of the verdict, in the order at hand and in any;
- `countedRight_iff`: the captures for which it is so.
-/

namespace HostServices.DetectedDevices

open HostServices.Lib

/-! ## Legacy reports -/

/-- One advertising report, as it is printed. -/
structure LegacyReport where
  event : EventText
  kind : List Char
  address : AddressText
  fields : List (List Char)
  fields_inner : ∀ content ∈ fields, IsFieldLine content

/-- The lines of a report, without their indentation. -/
def LegacyReport.contents (r : LegacyReport) : List (List Char) :=
  r.event.content :: ("Address type: ".toList ++ r.kind) :: r.address.content :: r.fields

/-- An HCI event with legacy reports; `preamble` are the lines in front of the first. -/
structure LegacyBlock where
  marker : List Char
  heading : List Char
  preamble : List (List Char)
  preamble_inner : ∀ content ∈ preamble, IsFieldLine content
  reports : List LegacyReport

/-- The lines of a block, without their indentation. -/
def LegacyBlock.contents (b : LegacyBlock) : List (List Char) :=
  ('>' :: b.marker) :: ("LE Advertising Report".toList ++ b.heading) ::
    (b.preamble ++ b.reports.flatMap LegacyReport.contents)

/-- The reports of an address. -/
def reportsOf (a : String) (reports : List LegacyReport) : List LegacyReport :=
  reports.filter fun r => r.address.key = a

theorem reportsOf_append (a : String) (reports reports' : List LegacyReport) :
    reportsOf a (reports ++ reports') = reportsOf a reports ++ reportsOf a reports' :=
  List.filter_append ..

theorem reportsOf_cons (a : String) (r : LegacyReport) (reports : List LegacyReport) :
    reportsOf a (r :: reports)
      = if r.address.key = a then r :: reportsOf a reports else reportsOf a reports := by
  rw [reportsOf, List.filter_cons]
  by_cases h : r.address.key = a
  · rw [if_pos h, if_pos (decide_eq_true h), reportsOf]
  · rw [if_neg h, if_neg (by simpa using h), reportsOf]

/-- The first PDU type that is printed. -/
def firstPdu (reports : List LegacyReport) : Option String :=
  reports.findSome? fun r => r.event.pdu

/-- A central can connect to the device. -/
def IsConnectablePdu (pdu : String) : Prop := pdu = "ADV_IND" ∨ pdu = "ADV_DIRECT_IND"

/-- The report has a connectable PDU type. -/
def LegacyReport.Connectable (r : LegacyReport) : Prop :=
  ∃ pdu, r.event.pdu = some pdu ∧ IsConnectablePdu pdu

/-! ## The type that is kept -/

/-- The PDU type in the record of an address, if there is a record. -/
def observed (s : State) (a : String) : Option (Option String) :=
  (s.found.get? a).map Advertiser.pduType

/-- A record keeps its type; without one it takes that of the report. -/
def hear (old : Option (Option String)) (r : LegacyReport) : Option (Option String) :=
  some (old.join.or r.event.pdu)

/-- No field changes the type. -/
theorem Field.pduType_apply (f : Field) (a : Advertiser) : (f.apply a).pduType = a.pduType := by
  rcases f with (_ | dbm) | _ | _ | _ | _ | _ | _ | _
  case nameShort => rw [Field.apply]; split_ifs <;> rfl
  all_goals rfl

/-- The fields of a report change no type. -/
theorem At.run_fields {s : State} {key : String} (h : At s key) {fields : List (List Char)}
    (hfields : ∀ content ∈ fields, IsFieldLine content) :
    InReport (run s (fields.map readTrimmed)) ∧
      ∀ a, observed (run s (fields.map readTrimmed)) a = observed s a := by
  induction fields generalizing s with
  | nil => exact ⟨h.toInReport, fun a => rfl⟩
  | cons content fields ih =>
    obtain ⟨hcontent, hrest⟩ := List.forall_mem_cons.mp hfields
    have hobserved : ∀ a, observed (s.step (.field (readField content))) a = observed s a := by
      intro a
      rw [observed, h.field_get?, observed]
      split_ifs
      · rw [Option.map_map]
        exact congrFun (congrArg Option.map (funext fun d => Field.pduType_apply _ d)) _
      · rfl
    obtain ⟨hreport, hrun⟩ := ih (h.step_field (readField content)) hrest
    rw [List.map_cons, hcontent.readTrimmed]
    exact ⟨hreport, fun a => (hrun a).trans (hobserved a)⟩

/-- What stands in front of the first report belongs to nobody. -/
theorem InReport.run_preamble {s : State} (h : InReport s) (hcurrent : s.current = none)
    {fields : List (List Char)} (hfields : ∀ content ∈ fields, IsFieldLine content) :
    run s (fields.map readTrimmed) = s := by
  induction fields with
  | nil => rfl
  | cons content fields ih =>
    obtain ⟨hcontent, hrest⟩ := List.forall_mem_cons.mp hfields
    rw [List.map_cons, hcontent.readTrimmed]
    show run (s.step (.field (readField content))) (fields.map readTrimmed) = s
    rw [h.field_none hcurrent]
    exact ih hrest

/-- What one report does to the record of each address. -/
theorem InReport.run_report {s : State} (h : InReport s) (r : LegacyReport) :
    InReport (run s (r.contents.map readTrimmed)) ∧
      ∀ a, observed (run s (r.contents.map readTrimmed)) a
        = if r.address.key = a then hear (observed s a) r else observed s a := by
  obtain ⟨kind, hkind⟩ : ∃ kind, readTrimmed ("Address type: ".toList ++ r.kind)
      = .addressType kind := ⟨_, readTrimmed_addressType r.kind⟩
  have hlines : r.contents.map readTrimmed = .eventType r.event.pdu :: .addressType kind ::
      .address (some r.address.key) :: r.fields.map readTrimmed := by
    rw [LegacyReport.contents, List.map_cons, List.map_cons, List.map_cons,
      r.event.readTrimmed_content, hkind, r.address.readTrimmed_content]
  have hpending : (s.step (.eventType r.event.pdu)).step (.addressType kind)
      = { s with pendingPdu := r.event.pdu, pendingKind := some kind } := by
    have hevent : InReport { s with pendingPdu := r.event.pdu } := ⟨h.not_mgmt, h.report⟩
    rw [h.eventType, hevent.addressType]
  have hbefore : InReport { s with pendingPdu := r.event.pdu, pendingKind := some kind } :=
    ⟨h.not_mgmt, h.report⟩
  obtain ⟨hreport, hfields⟩ := (hbefore.at_address r.address.key).run_fields r.fields_inner
  rw [hlines]
  show InReport (run (((s.step _).step _).step _) _) ∧
    ∀ a, observed (run (((s.step _).step _).step _) _) a = _
  rw [hpending]
  refine ⟨hreport, fun a => (hfields a).trans ?_⟩
  rw [observed, hbefore.address_get?, observed]
  by_cases ha : r.address.key = a
  · subst ha
    rw [if_pos rfl, if_pos rfl, hear]
    show some ((Option.getD (s.found.get? r.address.key) _).pduType.or r.event.pdu) = _
    cases s.found.get? r.address.key <;> rfl
  · rw [if_neg ha, if_neg (Ne.symm ha)]

/-- What several reports do to the record of an address. -/
theorem InReport.run_reports {s : State} (h : InReport s) (reports : List LegacyReport)
    (a : String) :
    observed (run s ((reports.flatMap LegacyReport.contents).map readTrimmed)) a
      = (reportsOf a reports).foldl hear (observed s a) := by
  induction reports generalizing s with
  | nil => rfl
  | cons r reports ih =>
    obtain ⟨hreport, hobserved⟩ := h.run_report r
    rw [List.flatMap_cons, List.map_append, run_append, ih hreport, hobserved a, reportsOf_cons]
    split_ifs
    · rw [List.foldl_cons]
    · rfl

/-- What a block does to the record of an address. -/
theorem run_block (s : State) (b : LegacyBlock) (a : String) :
    observed (run s (b.contents.map readTrimmed)) a
      = (reportsOf a b.reports).foldl hear (observed s a) := by
  have hstart := inReport_heading s
  have hpreamble := hstart.run_preamble rfl b.preamble_inner
  have hlines : b.contents.map readTrimmed = [.hci, .report] ++
      (b.preamble.map readTrimmed ++
        (b.reports.flatMap LegacyReport.contents).map readTrimmed) := by
    rw [LegacyBlock.contents, List.map_cons, List.map_cons, List.map_append,
      readTrimmed_event, readTrimmed_legacy]
    rfl
  rw [hlines, run_append, run_append, hpreamble, hstart.run_reports]
  rfl

/-- All reports of a capture. -/
def allReports (blocks : List LegacyBlock) : List LegacyReport :=
  blocks.flatMap LegacyBlock.reports

theorem allReports_cons (b : LegacyBlock) (blocks : List LegacyBlock) :
    allReports (b :: blocks) = b.reports ++ allReports blocks := List.flatMap_cons ..

/-- What a capture does to the record of an address. -/
theorem run_capture (s : State) (blocks : List LegacyBlock) (a : String) :
    observed (run s ((blocks.flatMap LegacyBlock.contents).map readTrimmed)) a
      = (reportsOf a (allReports blocks)).foldl hear (observed s a) := by
  induction blocks generalizing s with
  | nil => rfl
  | cons b blocks ih =>
    rw [List.flatMap_cons, List.map_append, run_append, ih, run_block, allReports_cons,
      reportsOf_append, List.foldl_append]

/-- Of several reports the first type stays. -/
theorem foldl_hear (reports : List LegacyReport) (old : Option (Option String)) :
    reports.foldl hear old
      = if reports = [] then old else some (old.join.or (firstPdu reports)) := by
  induction reports generalizing old with
  | nil => rfl
  | cons r reports ih =>
    have hfirst : firstPdu (r :: reports) = r.event.pdu.or (firstPdu reports) := by
      rw [firstPdu, List.findSome?_cons, firstPdu]
      cases r.event.pdu <;> rfl
    rw [List.foldl_cons, ih, if_neg (List.cons_ne_nil _ _), hfirst, hear]
    split_ifs with hnil
    · rw [hnil]
      show some (old.join.or r.event.pdu) = some (old.join.or (r.event.pdu.or none))
      rw [Option.or_none]
    · rw [Option.join_some, Option.or_assoc]

/-- **A record keeps the first type that was printed for its address.** -/
theorem observed_capture {text : String} {blocks : List LegacyBlock}
    (h : Prints text (blocks.flatMap LegacyBlock.contents)) (a : String) :
    (∀ d ∈ (parseBtmon text).advertisers, d.address = a →
      d.pduType = firstPdu (reportsOf a (allReports blocks))) ∧
    ((∃ d ∈ (parseBtmon text).advertisers, d.address = a) ↔
      reportsOf a (allReports blocks) ≠ []) := by
  have hobserved := run_capture .init blocks a
  have hsound := sound_of_prints h
  rw [parseBtmon_of_prints h]
  rw [foldl_hear] at hobserved
  generalize run .init ((blocks.flatMap LegacyBlock.contents).map readTrimmed) = s
    at hobserved hsound
  refine ⟨?_, ?_, ?_⟩
  · intro d hmem haddress
    rw [observed, (mem_advertisers_iff hsound).mp ⟨hmem, haddress⟩] at hobserved
    split_ifs at hobserved
    · cases hobserved
    · exact Option.some_inj.mp hobserved
  · rintro ⟨d, hmem, haddress⟩ hnil
    rw [observed, (mem_advertisers_iff hsound).mp ⟨hmem, haddress⟩, if_pos hnil] at hobserved
    cases hobserved
  · intro hne
    rw [if_neg hne] at hobserved
    obtain ⟨d, hd, _⟩ := Option.map_eq_some_iff.mp hobserved
    exact ⟨d, (mem_advertisers_iff hsound).mpr hd⟩

/-! ## The verdict -/

/-- `connectable` of a record with this type. -/
def verdict (pdu : Option String) : Option Bool :=
  pdu.map fun pdu => pdu == "ADV_IND" || pdu == "ADV_DIRECT_IND"

theorem connectable_eq (d : Advertiser) : d.connectable = verdict d.pduType := rfl

/-- A known type is connectable just when a central can connect. -/
theorem verdict_some {pdu : String} : verdict (some pdu) = some true ↔ IsConnectablePdu pdu := by
  rw [verdict, Option.map_some, Option.some_inj, Bool.or_eq_true, beq_iff_eq, beq_iff_eq]
  rfl

theorem verdict_eq_true {pdu : Option String} :
    verdict pdu = some true ↔ ∃ p, pdu = some p ∧ IsConnectablePdu p := by
  cases pdu with
  | none =>
    constructor
    · intro h
      cases h
    · rintro ⟨p, hp, _⟩
      cases hp
  | some p =>
    rw [verdict_some]
    constructor
    · exact fun h => ⟨p, rfl, h⟩
    · rintro ⟨q, hq, h⟩
      rwa [Option.some_inj.mp hq]

theorem mem_reportsOf {a : String} {reports : List LegacyReport} {r : LegacyReport} :
    r ∈ reportsOf a reports ↔ r ∈ reports ∧ r.address.key = a := by
  rw [reportsOf, List.mem_filter, decide_eq_true_iff]

theorem firstPdu_append (reports reports' : List LegacyReport) :
    firstPdu (reports ++ reports') = (firstPdu reports).or (firstPdu reports') :=
  List.findSome?_append

theorem firstPdu_eq_none {reports : List LegacyReport} :
    firstPdu reports = none ↔ ∀ r ∈ reports, r.event.pdu = none :=
  List.findSome?_eq_none_iff

theorem mem_of_firstPdu {reports : List LegacyReport} {pdu : String}
    (h : firstPdu reports = some pdu) : ∃ r ∈ reports, r.event.pdu = some pdu :=
  List.exists_of_findSome?_eq_some h

/-- The first type of a capture is the first type of a block. -/
theorem firstPdu_block {blocks : List LegacyBlock} {a pdu : String}
    (h : firstPdu (reportsOf a (allReports blocks)) = some pdu) :
    ∃ b ∈ blocks, firstPdu (reportsOf a b.reports) = some pdu := by
  induction blocks with
  | nil => cases h
  | cons b blocks ih =>
    rw [allReports_cons, reportsOf_append, firstPdu_append] at h
    rcases Option.or_eq_some_iff.mp h with hblock | ⟨_, hrest⟩
    · exact ⟨b, List.mem_cons_self, hblock⟩
    · obtain ⟨b', hb', hfirst⟩ := ih hrest
      exact ⟨b', List.mem_cons_of_mem _ hb', hfirst⟩

/-- The devices that count are those with a connectable report. -/
def Counted (text : String) (blocks : List LegacyBlock) : Prop :=
  ∀ a, (∃ d ∈ (parseBtmon text).advertisers, d.address = a ∧ d.connectable = some true) ↔
    ∃ r ∈ allReports blocks, r.address.key = a ∧ r.Connectable

/-- What is asked of the verdict: the devices with a connectable report count, and the order
of the blocks does not matter. -/
structure CountedRight (text : String) (blocks : List LegacyBlock) : Prop where
  counted : Counted text blocks
  order_free : ∀ (text' : String) (blocks' : List LegacyBlock), blocks'.Perm blocks →
    Prints text' (blocks'.flatMap LegacyBlock.contents) →
      ∀ d ∈ (parseBtmon text).advertisers, ∀ d' ∈ (parseBtmon text').advertisers,
        d'.address = d.address → d'.connectable = d.connectable

/-- No block prints another type of a device first when the capture has a connectable one of
it. -/
def ConnectableFirst (blocks : List LegacyBlock) : Prop :=
  ∀ b ∈ blocks, ∀ a pdu, firstPdu (reportsOf a b.reports) = some pdu →
    IsConnectablePdu pdu ∨ ∀ r ∈ allReports blocks, r.address.key = a → ¬ r.Connectable

/-- A device with a connectable report has one in front of its reports of other types. -/
def FirstConnectable (blocks : List LegacyBlock) : Prop :=
  ∀ a, (∃ r ∈ allReports blocks, r.address.key = a ∧ r.Connectable) →
    ∃ pdu, firstPdu (reportsOf a (allReports blocks)) = some pdu ∧ IsConnectablePdu pdu

/-- Then a device with a connectable report counts. -/
theorem ConnectableFirst.verdict {blocks : List LegacyBlock} (h : ConnectableFirst blocks)
    {a : String} {r : LegacyReport} (hr : r ∈ allReports blocks) (ha : r.address.key = a)
    (hconnectable : r.Connectable) :
    verdict (firstPdu (reportsOf a (allReports blocks))) = some true := by
  cases hfirst : firstPdu (reportsOf a (allReports blocks)) with
  | none =>
    obtain ⟨pdu, hpdu, _⟩ := hconnectable
    rw [firstPdu_eq_none.mp hfirst r (mem_reportsOf.mpr ⟨hr, ha⟩)] at hpdu
    cases hpdu
  | some pdu =>
    obtain ⟨b, hb, hblock⟩ := firstPdu_block hfirst
    rcases h b hb a pdu hblock with hyes | hno
    · exact verdict_some.mpr hyes
    · exact absurd hconnectable (hno r hr ha)

/-- Without a connectable report the order does not matter. -/
theorem verdict_congr {reports reports' : List LegacyReport}
    (hmem : ∀ r, r ∈ reports' ↔ r ∈ reports) (hnone : ∀ r ∈ reports, ¬ r.Connectable) :
    verdict (firstPdu reports') = verdict (firstPdu reports) := by
  have hfalse : ∀ l : List LegacyReport, (∀ r ∈ l, ¬ r.Connectable) → ∀ pdu,
      firstPdu l = some pdu → verdict (some pdu) = some false := by
    intro l hl pdu hpdu
    obtain ⟨r, hr, hrpdu⟩ := mem_of_firstPdu hpdu
    have hnot : ¬ verdict (some pdu) = some true := fun h =>
      hl r hr ⟨pdu, hrpdu, verdict_some.mp h⟩
    rw [verdict, Option.map_some, Option.some_inj] at hnot ⊢
    exact Bool.eq_false_iff.mpr hnot
  have hempty : firstPdu reports' = none ↔ firstPdu reports = none := by
    rw [firstPdu_eq_none, firstPdu_eq_none]
    exact ⟨fun h r hr => h r ((hmem r).mpr hr), fun h r hr => h r ((hmem r).mp hr)⟩
  cases hfirst : firstPdu reports with
  | none => rw [hempty.mpr hfirst]
  | some pdu =>
    cases hfirst' : firstPdu reports' with
    | none =>
      rw [hempty.mp hfirst'] at hfirst
      cases hfirst
    | some pdu' =>
      rw [hfalse reports hnone pdu hfirst,
        hfalse reports' (fun r hr => hnone r ((hmem r).mp hr)) pdu' hfirst']

/-- The order of the blocks does not change which reports there are. -/
theorem mem_allReports_perm {blocks blocks' : List LegacyBlock} (h : blocks'.Perm blocks)
    (r : LegacyReport) : r ∈ allReports blocks' ↔ r ∈ allReports blocks :=
  (h.flatMap_right LegacyBlock.reports).mem_iff

/-- The condition does not depend on the order of the blocks. -/
theorem ConnectableFirst.perm {blocks blocks' : List LegacyBlock} (h : ConnectableFirst blocks)
    (hperm : blocks'.Perm blocks) : ConnectableFirst blocks' := by
  intro b hb a pdu hfirst
  refine (h b (hperm.mem_iff.mp hb) a pdu hfirst).imp id ?_
  intro hno r hr
  exact hno r ((mem_allReports_perm hperm r).mp hr)

/-- A text that prints the blocks in another order. -/
theorem exists_text_perm {text : String} {blocks blocks' : List LegacyBlock}
    (h : Prints text (blocks.flatMap LegacyBlock.contents)) (hperm : blocks'.Perm blocks) :
    ∃ text', Prints text' (blocks'.flatMap LegacyBlock.contents) := by
  refine ⟨_, prints_printed ?_⟩
  intro content hcontent
  have hmem := (hperm.flatMap_right LegacyBlock.contents).mem_iff.mp hcontent
  rw [← h] at hmem
  exact isTrimmedLine_of_mem hmem

/-- The verdicts of a capture, from its reports. -/
theorem connectable_capture {text : String} {blocks : List LegacyBlock}
    (h : Prints text (blocks.flatMap LegacyBlock.contents)) {d : Advertiser}
    (hd : d ∈ (parseBtmon text).advertisers) :
    d.connectable = verdict (firstPdu (reportsOf d.address (allReports blocks))) := by
  rw [connectable_eq, (observed_capture h d.address).1 d hd rfl]

/-- The devices with a connectable report count, just when each has one of its connectable
reports in front of those of other types. -/
theorem counted_iff {text : String} {blocks : List LegacyBlock}
    (h : Prints text (blocks.flatMap LegacyBlock.contents)) :
    Counted text blocks ↔ FirstConnectable blocks := by
  constructor
  · intro hcounted a hsome
    obtain ⟨d, hd, rfl, hverdict⟩ := (hcounted a).mpr hsome
    rwa [connectable_capture h hd, verdict_eq_true] at hverdict
  · intro hfirst a
    constructor
    · rintro ⟨d, hd, rfl, hverdict⟩
      rw [connectable_capture h hd, verdict_eq_true] at hverdict
      obtain ⟨pdu, hpdu, hconnectable⟩ := hverdict
      obtain ⟨r, hr, hrpdu⟩ := mem_of_firstPdu hpdu
      exact ⟨r, (mem_reportsOf.mp hr).1, (mem_reportsOf.mp hr).2, pdu, hrpdu, hconnectable⟩
    · rintro ⟨r, hr, ha, hconnectable⟩
      obtain ⟨d, hd, hda⟩ := (observed_capture h a).2.mpr
        (List.ne_nil_of_mem (mem_reportsOf.mpr ⟨hr, ha⟩))
      refine ⟨d, hd, hda, ?_⟩
      rw [connectable_capture h hd, hda, verdict_eq_true]
      exact hfirst a ⟨r, hr, ha, hconnectable⟩

/-- A block that prints another type first can be put in front. -/
theorem CountedRight.connectableFirst {text : String} {blocks : List LegacyBlock}
    (h : Prints text (blocks.flatMap LegacyBlock.contents)) (hright : CountedRight text blocks) :
    ConnectableFirst blocks := by
  intro b hb a pdu hfirst
  by_contra hnot
  push Not at hnot
  obtain ⟨hother, r, hr, ha, hconnectable⟩ := hnot
  obtain ⟨d, hd, hda, hverdict⟩ := (hright.counted a).mpr ⟨r, hr, ha, hconnectable⟩
  -- the block with the other type comes first
  obtain ⟨before, after, rfl⟩ := List.append_of_mem hb
  have hperm : (b :: (before ++ after)).Perm (before ++ b :: after) := List.perm_middle.symm
  obtain ⟨text', htext'⟩ := exists_text_perm h hperm
  obtain ⟨r', hr', _⟩ := mem_of_firstPdu hfirst
  have hne : reportsOf a (allReports (b :: (before ++ after))) ≠ [] := by
    rw [allReports_cons, reportsOf_append]
    exact List.append_ne_nil_of_left_ne_nil (List.ne_nil_of_mem hr') _
  obtain ⟨d', hd', hda'⟩ := (observed_capture htext' a).2.mpr hne
  have hverdict' := hright.order_free text' _ hperm htext' d hd d' hd' (hda'.trans hda.symm)
  rw [hverdict, connectable_capture htext' hd', hda', allReports_cons, reportsOf_append,
    firstPdu_append, hfirst, Option.some_or, verdict_some] at hverdict'
  exact hother hverdict'

/-- **The verdict is right, in any order of the blocks, just when no block prints another type
in front of a connectable one**; in the order at hand the devices with a connectable report
count just when the capture prints no other type of one of them in front. -/
theorem countedRight_iff {text : String} {blocks : List LegacyBlock}
    (h : Prints text (blocks.flatMap LegacyBlock.contents)) :
    (CountedRight text blocks ↔ ConnectableFirst blocks) ∧
      (Counted text blocks ↔ FirstConnectable blocks) := by
  refine ⟨⟨CountedRight.connectableFirst h, fun hfirst => ⟨?_, ?_⟩⟩, counted_iff h⟩
  · rw [counted_iff h]
    rintro a ⟨r, hr, ha, hconnectable⟩
    exact verdict_eq_true.mp (hfirst.verdict hr ha hconnectable)
  · intro text' blocks' hperm htext' d hd d' hd' hda
    rw [connectable_capture h hd, connectable_capture htext' hd', hda]
    by_cases hsome : ∃ r ∈ allReports blocks, r.address.key = d.address ∧ r.Connectable
    · obtain ⟨r, hr, ha, hconnectable⟩ := hsome
      rw [hfirst.verdict hr ha hconnectable, (hfirst.perm hperm).verdict
        ((mem_allReports_perm hperm r).mpr hr) ha hconnectable]
    · refine verdict_congr ?_ ?_
      · intro r
        rw [mem_reportsOf, mem_reportsOf, mem_allReports_perm hperm]
      · intro r hr hconnectable
        exact hsome ⟨r, (mem_reportsOf.mp hr).1, (mem_reportsOf.mp hr).2, hconnectable⟩

/-! A device that answers a scan request before its next advertisement is seen. -/

/-- The address of the sample. -/
def bmsAddress : AddressText where
  address := "C8:47:80:29:5E:3B".toList
  annotation := " (OUI C8-47-80)".toList
  ne_nil := by decide
  word := word_of_all (by decide)
  blank := by
    rintro c ⟨⟩
    decide

/-- A block with one report of this address. -/
def bmsBlock (event : EventText) : LegacyBlock where
  marker := " HCI Event: LE Meta Event (0x3e) plen 12".toList
  heading := " (0x02)".toList
  preamble := []
  preamble_inner := by simp
  reports := [⟨event, "Public (0x00)".toList, bmsAddress, [], by simp⟩]

/-- The type of an answer to a scan request, to which nobody can connect. -/
def scanResponse : EventText :=
  .typed "Scan response".toList "SCAN_RSP".toList "0x04".toList (by decide)
    (word_of_all (by decide))

/-- The type of an advertisement to which any central can connect. -/
def connectableUndirected : EventText :=
  .typed "Connectable undirected".toList "ADV_IND".toList "0x00".toList (by decide)
    (word_of_all (by decide))

/-- The answer first, and the advertisement behind it. -/
def answered : List LegacyBlock := [bmsBlock scanResponse, bmsBlock connectableUndirected]

/-- The text of the two blocks. -/
def answeredCapture : String := printed (answered.flatMap LegacyBlock.contents)

theorem prints_answeredCapture :
    Prints answeredCapture (answered.flatMap LegacyBlock.contents) :=
  prints_printed (isTrimmedLine_of_all (by decide +kernel))

/-- A scan response first: the device does not count, although a report of it is connectable. -/
theorem connectable_scanResponse :
    (parseBtmon answeredCapture).connectableCount = 0 ∧
      ¬ CountedRight answeredCapture answered := by
  constructor
  · rw [parseBtmon_of_prints prints_answeredCapture]
    decide +kernel
  · intro h
    have hfirst := h.connectableFirst prints_answeredCapture (bmsBlock scanResponse)
      List.mem_cons_self bmsAddress.key "SCAN_RSP" (by decide +kernel)
    rcases hfirst with hyes | hno
    · revert hyes
      unfold IsConnectablePdu
      decide
    · refine hno _ (List.mem_cons_of_mem _ List.mem_cons_self) rfl ⟨"ADV_IND", ?_, .inl rfl⟩
      show some (String.ofList "ADV_IND".toList) = some "ADV_IND"
      rw [String.ofList_toList]

/-- The sample, for which both conditions fail. -/
theorem countedRight_iff_answered :
    Prints answeredCapture (answered.flatMap LegacyBlock.contents) ∧
      (CountedRight answeredCapture answered ↔ ConnectableFirst answered) ∧
      (Counted answeredCapture answered ↔ FirstConnectable answered) :=
  ⟨prints_answeredCapture, countedRight_iff prints_answeredCapture⟩

end HostServices.DetectedDevices
