import HostServices.Lib.Utf8
import HostServices.TimeCorrection.Dns

/-!
# Asking a DNS question (`encode_query` of `time-correction/src/dns.rs`)

The encoder accepts every name whose labels are at most 63 bytes long, whatever these
bytes are and however many labels there are. What it writes is a name of the grammar
that the parser reads, so that the answers of a resolver that points back at the
question are found again.

- `encodeQuery`: the source's function;
- `respond`: the response a resolver makes out of the query;
- `name_encodeLabels`: encoded labels are a name, and expand without a pointer;
- `query_answered`: the query is skipped, and the addresses come back.
-/

namespace HostServices.TimeCorrection.Dns

open HostServices.Lib

/-! ## The code -/

/-- The loop over the labels. -/
def encodeLabels : List String → Except String (List UInt8)
  | [] => .ok []
  | label :: labels =>
    if 63 < (utf8Bytes label).length then
      .error s!"label {debugStr label} exceeds 63 bytes"
    else do
      let rest ← encodeLabels labels
      .ok (UInt8.ofNat (utf8Bytes label).length :: utf8Bytes label ++ rest)

/-- Encode a standard recursive query. -/
def encodeQuery (id : UInt16) (name : String) (qtype : UInt16) : Except String (List UInt8) := do
  let labels ← encodeLabels ((splitBy '.' name).filter (· ≠ ""))
  .ok (u16Bytes id ++ u16Bytes 0x0100 ++ u16Bytes 1 ++ List.replicate 6 0 ++ labels ++ [0]
    ++ u16Bytes qtype ++ u16Bytes classIn)

/-! ## What a resolver answers -/

/-- The type of the records that carry such an address. -/
def recordType : IpAddr → UInt16
  | .v4 _ => typeA
  | .v6 _ => typeAaaa

/-- The data of such a record. -/
def recordData : IpAddr → List UInt8
  | .v4 bits => beBytes 4 bits.toNat
  | .v6 bits => beBytes 16 bits.toNat

/-- A record of class `IN` whose owner is a pointer to the question. -/
def answerRecord (ttl : UInt32) (address : IpAddr) : List UInt8 :=
  [0xC0, 0x0C] ++ u16Bytes (recordType address) ++ u16Bytes classIn ++ beBytes 4 ttl.toNat
    ++ u16Bytes (UInt16.ofNat (recordData address).length) ++ recordData address

/-- The response made out of a query: the QR bit is set, the records are counted in
`ANCOUNT`, and they are appended, each with a time to live of its own. -/
def respond (query : List UInt8) (answers : List (UInt32 × IpAddr)) : List UInt8 :=
  let count := u16Bytes (UInt16.ofNat answers.length)
  let header := ((query.modify 2 (· ||| 0x80)).set 6 (count.getD 0 0)).set 7 (count.getD 1 0)
  header ++ answers.flatMap fun answer => answerRecord answer.1 answer.2

/-! ## The question -/

/-- Encoded labels and a zero byte are a name, wherever they stand, and no pointer has to
be followed to expand it. -/
theorem name_encodeLabels {labels : List String} (hlabels : ∀ label ∈ labels, label ≠ "")
    {bytes : List UInt8} (h : encodeLabels labels = .ok bytes) (before after : List UInt8) :
    Name (before ++ (bytes ++ 0 :: after)) before.length (before.length + bytes.length + 1) ∧
      ∀ hops, Expands (before ++ (bytes ++ 0 :: after)) hops before.length := by
  induction labels generalizing before bytes with
  | nil =>
    cases h
    have hzero : (before ++ ([] ++ 0 :: after))[before.length]? = some 0 := by simp
    exact ⟨.root hzero, fun hops => .root hzero⟩
  | cons label labels ih =>
    obtain ⟨hlabel, hrest⟩ := List.forall_mem_cons.mp hlabels
    rw [encodeLabels] at h
    split_ifs at h with hlong
    obtain ⟨rest, hencoded, h⟩ := bind_eq_ok.mp h
    cases h
    have hpos : (utf8Bytes label).length ≠ 0 := fun h0 =>
      hlabel (utf8Bytes_eq_nil.mp (List.length_eq_zero_iff.mp h0))
    generalize hlength : (utf8Bytes label).length = length at hlong hpos
    have hbyte : (UInt8.ofNat length).toNat = length := by
      rw [UInt8.toNat_ofNat']
      omega
    have hhead : (before ++ (UInt8.ofNat length :: utf8Bytes label ++ rest ++ 0 :: after))[
        before.length]? = some (UInt8.ofNat length) := by simp
    -- the labels that follow stand behind this one
    have hassoc : before ++ (UInt8.ofNat length :: utf8Bytes label ++ rest ++ 0 :: after)
        = (before ++ UInt8.ofNat length :: utf8Bytes label) ++ (rest ++ 0 :: after) := by simp
    have hnext : (before ++ UInt8.ofNat length :: utf8Bytes label).length
        = before.length + (1 + (UInt8.ofNat length).toNat) := by
      rw [List.length_append, List.length_cons, hlength, hbyte]
      omega
    obtain ⟨hname, hexpands⟩ :=
      ih hrest hencoded (before ++ UInt8.ofNat length :: utf8Bytes label)
    rw [← hassoc, hnext] at hname hexpands
    have hstop : before.length + (UInt8.ofNat length :: utf8Bytes label ++ rest).length + 1
        = before.length + (1 + (UInt8.ofNat length).toNat) + rest.length + 1 := by
      rw [List.length_append, List.length_cons, hlength, hbyte]
      omega
    rw [hstop]
    exact ⟨.label hhead (by omega) (by omega) hname,
      fun hops => .label hhead (by omega) (by omega) (hexpands hops)⟩

/-- The header of the query, and that of the response to it. -/
def header (id flags answers : UInt16) : List UInt8 :=
  u16Bytes id ++ u16Bytes flags ++ u16Bytes 1 ++ u16Bytes answers ++ List.replicate 4 0

theorem length_header (id flags answers : UInt16) : (header id flags answers).length = 12 := rfl

section Header

variable (id flags answers : UInt16) (rest : List UInt8)

theorem u16At_header_id : u16At (header id flags answers ++ rest) 0 = id :=
  u16At_u16Bytes id _

theorem u16At_header_flags : u16At (header id flags answers ++ rest) 2 = flags :=
  u16At_append (u16Bytes id) _ 0 |>.trans (u16At_u16Bytes flags _)

theorem u16At_header_questions : u16At (header id flags answers ++ rest) 4 = 1 :=
  u16At_append (u16Bytes id ++ u16Bytes flags) _ 0 |>.trans (u16At_u16Bytes 1 _)

theorem u16At_header_answers : u16At (header id flags answers ++ rest) 6 = answers :=
  u16At_append (u16Bytes id ++ u16Bytes flags ++ u16Bytes 1) _ 0 |>.trans
    (u16At_u16Bytes answers _)

end Header

/-- A query is its header, the labels and the type. -/
theorem encodeQuery_eq_ok {id qtype : UInt16} {name : String} {query : List UInt8} :
    encodeQuery id name qtype = .ok query ↔
      ∃ labels, encodeLabels ((splitBy '.' name).filter (· ≠ "")) = .ok labels ∧
        query = header id 0x0100 0 ++ (labels ++ 0 :: (u16Bytes qtype ++ u16Bytes classIn)) := by
  have hheader : header id 0x0100 0 = u16Bytes id ++ u16Bytes 0x0100 ++ u16Bytes 1 ++
      List.replicate 6 0 := rfl
  rw [encodeQuery, bind_eq_ok, hheader]
  simp only [List.append_assoc, List.cons_append, List.nil_append, Except.ok.injEq, eq_comm]

/-- The response is the query under its own header, and the records. -/
theorem respond_query (id : UInt16) (body : List UInt8) (answers : List (UInt32 × IpAddr)) :
    respond (header id 0x0100 0 ++ body) answers
      = header id 0x8100 (UInt16.ofNat answers.length) ++
        (body ++ answers.flatMap fun answer => answerRecord answer.1 answer.2) := rfl

/-! ## The records -/

/-- The record as the parser reads it. -/
def resourceOf (address : IpAddr) : Resource :=
  ⟨recordType address, classIn, recordData address⟩

theorem length_recordData_lt (address : IpAddr) : (recordData address).length < 2 ^ 16 := by
  cases address with
  | v4 bits => rw [recordData, length_beBytes]; decide
  | v6 bits => rw [recordData, length_beBytes]; decide

theorem length_recordData (a : IpAddr) : (recordData a).length = addressSize (recordType a) := by
  cases a with
  | v4 bits => exact length_beBytes 4 _
  | v6 bits => exact length_beBytes 16 _

/-- An address is read back from its record. -/
theorem address_recordData (a : IpAddr) : address (recordType a) (recordData a) = a := by
  cases a with
  | v4 bits =>
    show IpAddr.v4 (BitVec.ofNat 32 (beNat (beBytes 4 bits.toNat))) = .v4 bits
    rw [beNat_beBytes bits.isLt, BitVec.ofNat_toNat, BitVec.setWidth_eq]
  | v6 bits =>
    show IpAddr.v6 (BitVec.ofNat 128 (beNat (beBytes 16 bits.toNat))) = .v6 bits
    rw [beNat_beBytes bits.isLt, BitVec.ofNat_toNat, BitVec.setWidth_eq]

/-- A record stands where it was appended, if the question it points to expands. -/
theorem resourceAt_answerRecord (ttl : UInt32) (a : IpAddr) (before after : List UInt8)
    (hexpands : Expands (before ++ (answerRecord ttl a ++ after)) 63 12) :
    ResourceAt (before ++ (answerRecord ttl a ++ after)) before.length (resourceOf a)
      (before ++ answerRecord ttl a).length := by
  generalize hmessage : before ++ (answerRecord ttl a ++ after) = message at hexpands
  have hhi : message[before.length]? = some 0xC0 := by simp [← hmessage, answerRecord]
  have hlo : message[before.length + 1]? = some 0x0C := by simp [← hmessage, answerRecord]
  have hname : Name message before.length (before.length + 2) :=
    .pointer hhi (by decide) (.pointer hhi (by decide) hlo hexpands)
  -- the message is taken apart at each of the fields
  let size := u16Bytes (UInt16.ofNat (recordData a).length)
  let owner := before ++ [0xC0, 0x0C]
  let typed := owner ++ u16Bytes (recordType a)
  let timed := typed ++ u16Bytes classIn ++ beBytes 4 ttl.toNat
  have hdata : message = (timed ++ size) ++ (recordData a ++ after) := by
    simp [← hmessage, answerRecord, owner, typed, timed, size]
  have htype : u16At message (before.length + 2) = recordType a := by
    refine u16At_behind owner (u16Bytes classIn ++ beBytes 4 ttl.toNat ++ size ++
      (recordData a ++ after)) ?_ (by simp [owner])
    simp [hdata, timed, typed]
  have hclass : u16At message (before.length + 2 + 2) = classIn := by
    refine u16At_behind typed (beBytes 4 ttl.toNat ++ size ++ (recordData a ++ after)) ?_
      (by simp [typed, owner])
    simp [hdata, timed]
  have hsize : u16At message (before.length + 2 + 8) = UInt16.ofNat (recordData a).length := by
    refine u16At_behind timed (recordData a ++ after) ?_ (by simp [timed, typed, owner])
    rw [hdata, List.append_assoc]
  have htoNat : (UInt16.ofNat (recordData a).length).toNat = (recordData a).length := by
    rw [UInt16.toNat_ofNat', Nat.mod_eq_of_lt (length_recordData_lt a)]
  have hstart : (timed ++ size).length = before.length + 2 + 10 := by
    simp [timed, typed, owner, size]
  have hstop : (before ++ answerRecord ttl a).length
      = before.length + 2 + 10 + (recordData a).length := by
    simp [answerRecord]
    omega
  have hlength :
      message.length = before.length + 2 + 10 + (recordData a).length + after.length := by
    rw [hdata, List.length_append, hstart, List.length_append]
    omega
  refine ⟨before.length + 2, hname, by omega, htype.symm, hclass.symm, ?_, ?_⟩
  · rw [hstop, hsize, htoNat]
  · have hslice := slice_append_middle (timed ++ size) (recordData a) after
    rw [hstart, ← hdata] at hslice
    rw [hstop]
    exact hslice

/-- The records that were appended, one after the other. -/
theorem answers_flatMap (answers : List (UInt32 × IpAddr)) (before : List UInt8)
    (hexpands : Expands (before ++ answers.flatMap fun answer => answerRecord answer.1 answer.2)
      63 12) :
    Answers (before ++ answers.flatMap fun answer => answerRecord answer.1 answer.2)
      answers.length before.length (answers.map fun answer => resourceOf answer.2) := by
  induction answers generalizing before with
  | nil => exact .none
  | cons answer answers ih =>
    rw [List.flatMap_cons] at hexpands ⊢
    refine .more (resourceAt_answerRecord answer.1 answer.2 before _ hexpands) ?_
    rw [← List.append_assoc] at hexpands ⊢
    exact ih (before ++ answerRecord answer.1 answer.2) hexpands

/-! ## The round trip -/

theorem asked_resourceOf {qtype : UInt16} {a : IpAddr} (h : recordType a = qtype) :
    Asked qtype (resourceOf a) := ⟨rfl, h⟩

/-- Any number of addresses are read back from their records. -/
theorem addresses_resourceOf {qtype : UInt16} {list : List IpAddr}
    (h : ∀ a ∈ list, recordType a = qtype) : addresses qtype (list.map resourceOf) = list := by
  have hasked : ∀ r ∈ list.map resourceOf, decide (Asked qtype r) = true := by
    intro r hr
    obtain ⟨a, ha, rfl⟩ := List.mem_map.mp hr
    exact decide_eq_true (asked_resourceOf (h a ha))
  rw [addresses, List.filter_eq_self.mpr hasked, List.map_map]
  refine (List.map_congr_left ?_).trans (List.map_id list)
  intro a ha
  rw [← h a ha]
  exact address_recordData a

/-- The records of addresses have the size of their type. -/
theorem wellSized_resourceOf {qtype : UInt16} {list : List IpAddr}
    (h : ∀ a ∈ list, recordType a = qtype) : WellSized qtype (list.map resourceOf) := by
  intro r hr hasked
  obtain ⟨a, ha, rfl⟩ := List.mem_map.mp hr
  rw [← h a ha]
  exact length_recordData a

/-- The response to an encoded question is laid out as an answer with these records. -/
theorem layout_respond {names : List String} (hnames : ∀ label ∈ names, label ≠ "")
    {labels : List UInt8} (hlabels : encodeLabels names = .ok labels) (id qtype : UInt16)
    {answers : List (UInt32 × IpAddr)} (hcount : answers.length ≤ 65535) :
    Layout (respond (header id 0x0100 0 ++
      (labels ++ 0 :: (u16Bytes qtype ++ u16Bytes classIn))) answers)
      (answers.map fun answer => resourceOf answer.2) := by
  have htoNat : (UInt16.ofNat answers.length).toNat = answers.length := by
    rw [UInt16.toNat_ofNat']
    omega
  let records := answers.flatMap fun answer => answerRecord answer.1 answer.2
  let question := u16Bytes qtype ++ u16Bytes classIn
  let head := header id 0x8100 (UInt16.ofNat answers.length)
  have hfront : head ++ (labels ++ 0 :: (question ++ records))
      = (head ++ labels ++ 0 :: question) ++ records := by simp
  have hstop : (head ++ labels ++ 0 :: question).length = 12 + labels.length + 1 + 4 := by
    simp [head, question, length_header]
    omega
  obtain ⟨hname, hexpands⟩ := name_encodeLabels hnames hlabels head (question ++ records)
  have hquestions : Questions (head ++ (labels ++ 0 :: (question ++ records))) 1 12
      (12 + labels.length + 1 + 4) := by
    refine .more hname ?_ .none
    rw [hfront, List.length_append, hstop]
    exact Nat.le_add_right _ _
  have hanswers : Answers (head ++ (labels ++ 0 :: (question ++ records))) answers.length
      (12 + labels.length + 1 + 4) (answers.map fun answer => resourceOf answer.2) := by
    rw [← hstop, hfront]
    refine answers_flatMap answers _ ?_
    rw [← hfront]
    exact hexpands 63
  have hmessage : respond (header id 0x0100 0 ++ (labels ++ 0 :: question)) answers
      = head ++ (labels ++ 0 :: (question ++ records)) := by
    rw [respond_query, List.append_assoc, List.cons_append]
  show Layout (respond (header id 0x0100 0 ++ (labels ++ 0 :: question)) answers) _
  rw [hmessage]
  refine ⟨?_, 12 + labels.length + 1 + 4, ?_, ?_⟩
  · rw [List.length_append]
    exact Nat.le_add_right 12 _
  · rw [u16At_header_questions]
    exact hquestions
  · rw [u16At_header_answers, htoNat]
    exact hanswers

/-- **The parser reads what the encoder's question was answered with**: the name of an
accepted query ends four bytes before the query does, and a response that is made out of
the query, with up to 65535 addresses of the asked family and any times to live, is read
as exactly these addresses. -/
theorem query_answered {id qtype : UInt16} (hq : qtype = typeA ∨ qtype = typeAaaa)
    {name : String} {query : List UInt8} (hquery : encodeQuery id name qtype = .ok query) :
    skipName query 12 = .ok (query.length - 4) ∧
    ∀ answers : List (UInt32 × IpAddr), answers ≠ [] → answers.length ≤ 65535 →
      (∀ answer ∈ answers, recordType answer.2 = qtype) →
      parseResponse (respond query answers) id qtype = .ok (answers.map Prod.snd) := by
  obtain ⟨labels, hlabels, rfl⟩ := encodeQuery_eq_ok.mp hquery
  have hnonempty : ∀ label ∈ (splitBy '.' name).filter (· ≠ ""), label ≠ "" := by
    intro label hlabel
    exact of_decide_eq_true (List.mem_filter.mp hlabel).2
  constructor
  · generalize hquestion : u16Bytes qtype ++ u16Bytes classIn = question
    have hfour : question.length = 4 := by rw [← hquestion]; rfl
    have hlength : (header id 0x0100 0 ++ (labels ++ 0 :: question)).length - 4
        = 12 + labels.length + 1 := by
      rw [List.length_append, List.length_append, List.length_cons, hfour, length_header]
      omega
    rw [hlength]
    exact skipName_of_name (name_encodeLabels hnonempty hlabels (header id 0x0100 0) _).1
  · intro answers hne hcount hfamily
    have hfamily' : ∀ a ∈ answers.map Prod.snd, recordType a = qtype := by
      intro a ha
      obtain ⟨answer, hanswer, rfl⟩ := List.mem_map.mp ha
      exact hfamily answer hanswer
    have hlayout := layout_respond hnonempty hlabels id qtype hcount
    have hresources : (answers.map fun answer => resourceOf answer.2)
        = (answers.map Prod.snd).map resourceOf := by
      rw [List.map_map]
      rfl
    rw [hresources] at hlayout
    have hasked : ∃ r ∈ (answers.map Prod.snd).map resourceOf, Asked qtype r := by
      obtain ⟨answer, rest, rfl⟩ := List.exists_cons_of_ne_nil hne
      exact ⟨_, List.mem_cons_self, asked_resourceOf (hfamily' _ List.mem_cons_self)⟩
    have hflags : u16At (respond (header id 0x0100 0 ++
        (labels ++ 0 :: (u16Bytes qtype ++ u16Bytes classIn))) answers) 2 = 0x8100 := by
      rw [respond_query, u16At_header_flags]
    have hid : u16At (respond (header id 0x0100 0 ++
        (labels ++ 0 :: (u16Bytes qtype ++ u16Bytes classIn))) answers) 0 = id := by
      rw [respond_query, u16At_header_id]
    rw [parseResponse_of_layout hq hlayout hid (by rw [hflags]; decide) (by rw [hflags]; decide)
      (by rw [hflags]; decide) (wellSized_resourceOf hfamily') hasked,
      addresses_resourceOf hfamily']

/-- Empty labels, a trailing dot and a label that is not ASCII. -/
theorem query_answered_unicode :
    encodeQuery 0x1234 "a..ő." typeA = .ok [0x12, 0x34, 1, 0, 0, 1, 0, 0, 0, 0, 0, 0, 1, 97, 2,
      0xC5, 0x91, 0, 0, 1, 0, 1] ∧
    parseResponse (respond [0x12, 0x34, 1, 0, 0, 1, 0, 0, 0, 0, 0, 0, 1, 97, 2, 0xC5, 0x91, 0, 0,
      1, 0, 1] [(60, .v4 0x05060708), (0, .v4 0x7F000001)]) 0x1234 typeA
        = .ok [.v4 0x05060708, .v4 0x7F000001] := by
  have hquery : encodeQuery 0x1234 "a..ő." typeA = .ok [0x12, 0x34, 1, 0, 0, 1, 0, 0, 0, 0, 0, 0,
      1, 97, 2, 0xC5, 0x91, 0, 0, 1, 0, 1] := by decide +kernel
  exact ⟨hquery, (query_answered (.inl rfl) hquery).2 _ (by decide) (by decide) (by decide)⟩

end HostServices.TimeCorrection.Dns
