import Mathlib.Data.List.Induction
import HostServices.TimeCorrection.Nts

/-!
# Responses as lists of records (`time-correction/src/nts.rs`)

`parse_response` walks over bytes. A response that a server put together from records
is read record by record, and what is accepted can be said about the list of them.

- `Record`, `encodeResponse`: records, and the bytes of a response;
- `parseRecords_encode`: the walk over the bytes is the fold over the records;
- `Usable`, `agreementOf`: the responses this client can use, and what it takes from one;
- `parseResponse_encode`: these are the responses that are accepted, and that is the
  result;
- `parseResponse_ignorable`: records nobody has to understand do not matter.
-/

namespace HostServices.TimeCorrection.Nts

open HostServices.Lib

def recordNextProtocol : UInt16 := 1
def recordError : UInt16 := 2
def recordWarning : UInt16 := 3
def recordAeadAlgorithm : UInt16 := 4
def recordNewCookie : UInt16 := 5
def recordServerNegotiation : UInt16 := 6
def recordPortNegotiation : UInt16 := 7

/-! ## Records and their bytes -/

/-- A record: its type with the critical bit, and a body whose length fits 16 bits. -/
structure Record where
  header : UInt16
  body : List UInt8
  fits : body.length ≤ 65535
  deriving DecidableEq

namespace Record

/-- The type without the critical bit. -/
def code (r : Record) : UInt16 := r.header &&& ~~~critical

/-- The record has the critical bit. -/
def isCritical (r : Record) : Bool := r.header &&& critical ≠ 0

/-- The record on the wire. -/
def encode (r : Record) : List UInt8 :=
  u16Bytes r.header ++ u16Bytes (UInt16.ofNat r.body.length) ++ r.body

/-- The 16-bit number in the body. -/
def number (r : Record) : UInt16 := u16At r.body 0

/-- The body as a text, if it is one. -/
def text (r : Record) : Option String := String.fromUTF8? (ByteArray.mk r.body.toArray)

/-- A record that a client which does not know its type passes over. -/
def Ignorable (r : Record) : Prop := r.isCritical = false ∧ recordPortNegotiation < r.code

instance decidableIgnorable (r : Record) : Decidable r.Ignorable :=
  inferInstanceAs (Decidable (_ ∧ _))

end Record

/-- A response: records, an end-of-message record, and whatever follows it. -/
def encodeResponse (records : List Record) (last : Record) (trailing : List UInt8) :
    List UInt8 :=
  (records.flatMap Record.encode) ++ (last.encode ++ trailing)

/-! ## The walk is a fold -/

/-- What a list of records does. -/
def Progress.records (p : Progress) (records : List Record) : Except String Progress :=
  records.foldlM (fun p r => p.record r.isCritical r.code r.body) p

/-- A record that was written is read as it was. -/
theorem record_at (before rest : List UInt8) (r : Record) :
    u16At (before ++ (r.encode ++ rest)) before.length = r.header ∧
      recordLength (before ++ (r.encode ++ rest)) before.length = r.body.length ∧
      ((before ++ (r.encode ++ rest)).drop (before.length + 4)).take r.body.length = r.body := by
  have hsplit : r.encode ++ rest = u16Bytes r.header ++
      (u16Bytes (UInt16.ofNat r.body.length) ++ (r.body ++ rest)) := by
    simp only [Record.encode, List.append_assoc]
  refine ⟨?_, ?_, ?_⟩
  · have hread := u16At_append before (r.encode ++ rest) 0
    rw [Nat.add_zero] at hread
    rw [hread, hsplit, u16At_u16Bytes]
  · have hread := u16At_append (u16Bytes r.header)
      (u16Bytes (UInt16.ofNat r.body.length) ++ (r.body ++ rest)) 0
    rw [length_u16Bytes, u16At_u16Bytes] at hread
    rw [recordLength, u16At_append, hsplit, hread]
    exact UInt16.toNat_ofNat_of_lt' (Nat.lt_succ_of_le r.fits)
  · rw [← List.drop_drop, List.drop_left, hsplit, ← List.append_assoc]
    exact List.take_left

theorem length_encode (r : Record) : r.encode.length = 4 + r.body.length := by
  simp only [Record.encode, List.length_append, length_u16Bytes]

/-- One record that was written. -/
theorem parseRecords_encode_step (before rest : List UInt8) (r : Record) (p : Progress) :
    parseRecords (before ++ (r.encode ++ rest)) before.length p =
      if r.code = recordEndOfMessage then .ok (p, true)
      else
        match p.record r.isCritical r.code r.body with
        | .error e => .error e
        | .ok p => parseRecords (before ++ r.encode ++ rest) (before ++ r.encode).length p := by
  obtain ⟨hheader, hlength, hbody⟩ := record_at before rest r
  have hfits : before.length + (4 + recordLength (before ++ (r.encode ++ rest)) before.length)
      ≤ (before ++ (r.encode ++ rest)).length := by
    rw [hlength, List.length_append, List.length_append, length_encode]
    omega
  rw [parseRecords_step hfits, hlength, recordCode, hheader, hbody, List.append_assoc,
    List.length_append, length_encode]
  rfl

/-- **The walk over a response that was put together** is the fold over its records, up
to the first end of a message. -/
theorem parseRecords_encode (before : List UInt8) {records : List Record}
    (hrecords : ∀ r ∈ records, r.code ≠ recordEndOfMessage) {last : Record}
    (hlast : last.code = recordEndOfMessage) (trailing : List UInt8) (p : Progress) :
    parseRecords (before ++ encodeResponse records last trailing) before.length p =
      match p.records records with
      | .error e => .error e
      | .ok p => .ok (p, true) := by
  induction records generalizing before p with
  | nil =>
    show parseRecords (before ++ (last.encode ++ trailing)) _ _ = _
    rw [parseRecords_encode_step, if_pos hlast]
    rfl
  | cons r records ih =>
    rw [List.forall_mem_cons] at hrecords
    have hsplit : encodeResponse (r :: records) last trailing =
        r.encode ++ encodeResponse records last trailing := by
      simp only [encodeResponse, List.flatMap_cons, List.append_assoc]
    rw [hsplit, parseRecords_encode_step, if_neg hrecords.1, Progress.records, List.foldlM_cons]
    cases hstep : p.record r.isCritical r.code r.body with
    | error e => rfl
    | ok q => exact ih (before ++ r.encode) hrecords.2 q

/-- A response is its records, one by one. -/
theorem parseResponse_eq_records {records : List Record}
    (hrecords : ∀ r ∈ records, r.code ≠ recordEndOfMessage) {last : Record}
    (hlast : last.code = recordEndOfMessage) (trailing : List UInt8) (aead : UInt16) :
    parseResponse (encodeResponse records last trailing) aead =
      (({} : Progress).records records >>= fun p => p.agreement aead) := by
  have hwalk := parseRecords_encode [] hrecords hlast trailing {}
  rw [List.nil_append, List.length_nil] at hwalk
  rw [parseResponse, hwalk]
  cases ({} : Progress).records records with
  | error e => rfl
  | ok p => rfl

/-! ## What one record does -/

/-- The records that are not refused. -/
@[mk_iff acceptable_iff]
structure Record.Acceptable (r : Record) : Prop where
  not_error : r.code ≠ recordError
  not_warning : r.code ≠ recordWarning
  known : r.isCritical = true → r.code ≤ recordPortNegotiation
  two_bytes : r.code = recordNextProtocol ∨ r.code = recordAeadAlgorithm ∨
    r.code = recordPortNegotiation → r.body.length = 2
  utf8 : r.code = recordServerNegotiation → (ByteArray.mk r.body.toArray).IsValidUTF8

/-- What an acceptable record changes. -/
def Progress.absorb (p : Progress) (r : Record) : Progress where
  nextProtocol := if r.code = recordNextProtocol then some r.number else p.nextProtocol
  aead := if r.code = recordAeadAlgorithm then some r.number else p.aead
  cookies := if r.code = recordNewCookie then p.cookies ++ [r.body] else p.cookies
  server := if r.code = recordServerNegotiation then r.text else p.server
  port := if r.code = recordPortNegotiation then some r.number else p.port

theorem ofCode_unknown {code : UInt16} (h : recordPortNegotiation < code) :
    RecordType.ofCode code = .unknown code := by
  have hlt : 7 < code.toNat := UInt16.lt_iff_toNat_lt.mp h
  unfold RecordType.ofCode
  split <;> first | omega | rfl

theorem code_cases {code : UInt16} (h : code ≠ recordEndOfMessage) :
    code = recordNextProtocol ∨ code = recordError ∨ code = recordWarning ∨
      code = recordAeadAlgorithm ∨ code = recordNewCookie ∨ code = recordServerNegotiation ∨
      code = recordPortNegotiation ∨ recordPortNegotiation < code := by
  simp only [recordNextProtocol, recordError, recordWarning, recordAeadAlgorithm, recordNewCookie,
    recordServerNegotiation, recordPortNegotiation, recordEndOfMessage, ne_eq,
    UInt16.lt_iff_toNat_lt, ← UInt16.toNat_inj] at h ⊢
  have h0 : (0 : UInt16).toNat = 0 := rfl
  have h7 : (7 : UInt16).toNat = 7 := rfl
  show code.toNat = 1 ∨ code.toNat = 2 ∨ code.toNat = 3 ∨ code.toNat = 4 ∨ code.toNat = 5 ∨
    code.toNat = 6 ∨ code.toNat = 7 ∨ 7 < code.toNat
  omega

/-- **What one record does**: it is refused, or it is absorbed. -/
theorem record_eq_ok {p q : Progress} {r : Record} (h : r.code ≠ recordEndOfMessage) :
    p.record r.isCritical r.code r.body = .ok q ↔ r.Acceptable ∧ p.absorb r = q := by
  rw [Record.acceptable_iff, Progress.absorb]
  simp only [recordNextProtocol, recordError, recordWarning, recordAeadAlgorithm,
    recordNewCookie, recordServerNegotiation, recordPortNegotiation]
  rcases code_cases h with hc | hc | hc | hc | hc | hc | hc | hc
  · have hc : r.code = 1 := hc
    simp [Progress.record, RecordType.ofCode, hc, ite_eq_ok, Record.number]
  · have hc : r.code = 2 := hc
    simp [Progress.record, RecordType.ofCode, hc]
  · have hc : r.code = 3 := hc
    simp [Progress.record, RecordType.ofCode, hc]
  · have hc : r.code = 4 := hc
    simp [Progress.record, RecordType.ofCode, hc, ite_eq_ok, Record.number]
  · have hc : r.code = 5 := hc
    simp [Progress.record, RecordType.ofCode, hc]
  · have hc : r.code = 6 := hc
    by_cases hvalid : (ByteArray.mk r.body.toArray).IsValidUTF8
    · simp [Progress.record, RecordType.ofCode, hc, Record.text, String.fromUTF8?, hvalid]
    · simp [Progress.record, RecordType.ofCode, hc, String.fromUTF8?, hvalid]
  · have hc : r.code = 7 := hc
    simp [Progress.record, RecordType.ofCode, hc, ite_eq_ok, Record.number]
  · -- a type that is none of the known ones
    have hne : ∀ c ≤ (7 : UInt16), r.code ≠ c := by
      rintro c hle rfl
      exact absurd hle (UInt16.not_le.mpr hc)
    have hle : ¬ r.code ≤ 7 := UInt16.not_le.mpr hc
    by_cases hcritical : r.isCritical = true
    · simp [Progress.record, ofCode_unknown hc, hcritical, hle]
    · simp [Progress.record, ofCode_unknown hc, hcritical, hne 1 (by decide), hne 2 (by decide),
        hne 3 (by decide), hne 4 (by decide), hne 5 (by decide), hne 6 (by decide),
        hne 7 (by decide)]

/-! ## What a list of records comes to -/

/-- The last record of a type. -/
def lastOf (records : List Record) (code : UInt16) : Option Record :=
  (records.filter (·.code = code)).getLast?

/-- What the records say, the last of a type being the one that counts. -/
def progressOf (records : List Record) : Progress where
  nextProtocol := (lastOf records recordNextProtocol).map Record.number
  aead := (lastOf records recordAeadAlgorithm).map Record.number
  cookies := (records.filter (·.code = recordNewCookie)).map Record.body
  server := (lastOf records recordServerNegotiation).bind Record.text
  port := (lastOf records recordPortNegotiation).map Record.number

theorem lastOf_append (records : List Record) (r : Record) (code : UInt16) :
    lastOf (records ++ [r]) code = if r.code = code then some r else lastOf records code := by
  rw [lastOf, lastOf, List.filter_append]
  by_cases h : r.code = code
  · simp [h]
  · simp [h]

/-- A value read from the last record of a type. -/
theorem bind_lastOf_append {α : Type} (f : Record → Option α) (records : List Record)
    (r : Record) (code : UInt16) :
    (lastOf (records ++ [r]) code).bind f =
      if r.code = code then f r else (lastOf records code).bind f := by
  rw [lastOf_append]
  split_ifs
  · rfl
  · rfl

theorem progressOf_append (records : List Record) (r : Record) :
    progressOf (records ++ [r]) = (progressOf records).absorb r := by
  have hcookies : ((records ++ [r]).filter (·.code = recordNewCookie)).map Record.body =
      if r.code = recordNewCookie
      then (records.filter (·.code = recordNewCookie)).map Record.body ++ [r.body]
      else (records.filter (·.code = recordNewCookie)).map Record.body := by
    by_cases h : r.code = recordNewCookie
    · simp [h]
    · simp [h]
  simp only [progressOf, Progress.absorb, Option.map_eq_bind, bind_lastOf_append, hcookies,
    Function.comp_apply]

/-- The records pass just if each of them is acceptable. -/
theorem records_eq_ok {records : List Record} {q : Progress}
    (hrecords : ∀ r ∈ records, r.code ≠ recordEndOfMessage) :
    ({} : Progress).records records = .ok q ↔
      (∀ r ∈ records, r.Acceptable) ∧ progressOf records = q := by
  -- the fold goes from the left, so the last record is the one to split off
  induction records using List.reverseRecOn generalizing q with
  | nil =>
    constructor
    · intro h
      cases h
      exact ⟨List.forall_mem_nil _, rfl⟩
    · rintro ⟨-, rfl⟩
      rfl
  | append_singleton records r ih =>
    rw [List.forall_mem_append, List.forall_mem_singleton] at hrecords
    have hfold : ({} : Progress).records (records ++ [r]) =
        (({} : Progress).records records >>= fun p => p.record r.isCritical r.code r.body) := by
      rw [Progress.records, List.foldlM_append]
      simp [Progress.records]
    rw [hfold, bind_eq_ok, List.forall_mem_append, List.forall_mem_singleton, progressOf_append]
    constructor
    · rintro ⟨p, hp, hr⟩
      obtain ⟨hall, rfl⟩ := (ih hrecords.1).mp hp
      obtain ⟨hlast, habsorb⟩ := (record_eq_ok hrecords.2).mp hr
      exact ⟨⟨hall, hlast⟩, habsorb⟩
    · rintro ⟨⟨hall, hlast⟩, habsorb⟩
      exact ⟨_, (ih hrecords.1).mpr ⟨hall, rfl⟩, (record_eq_ok hrecords.2).mpr ⟨hlast, habsorb⟩⟩

/-- An agreement takes the protocol, the algorithm and a cookie. -/
theorem agreement_eq_ok {p : Progress} {aead : UInt16} {a : Agreement} :
    p.agreement aead = .ok a ↔
      (p.nextProtocol = some nextProtocolNtpv4 ∧ p.aead = some aead ∧ p.cookies ≠ []) ∧
        a = { aead := aead, cookies := p.cookies, server := p.server, port := p.port } := by
  constructor
  · intro h
    obtain ⟨hnext, haead, hcookies, ha⟩ := agreement_ok h
    exact ⟨⟨hnext, haead, hcookies⟩, ha⟩
  · rintro ⟨⟨hnext, haead, hcookies⟩, rfl⟩
    rw [Progress.agreement, hnext, haead]
    dsimp only
    rw [if_neg (not_not.mpr rfl), if_neg (not_not.mpr rfl), if_neg hcookies]

/-! ## The responses this client can use -/

/-- A response this client can use: no record is an error or a warning, critical records
have a type it knows, bodies have the form their type asks for, and by the last word on
it NTPv4 and the requested algorithm are agreed to, with at least one cookie. -/
structure Usable (records : List Record) (aead : UInt16) : Prop where
  acceptable : ∀ r ∈ records, r.Acceptable
  next_protocol : (lastOf records recordNextProtocol).map Record.number = some nextProtocolNtpv4
  aead_chosen : (lastOf records recordAeadAlgorithm).map Record.number = some aead
  cookie : ∃ r ∈ records, r.code = recordNewCookie

/-- What is taken from it: all cookies in order, and the last server name and port. -/
def agreementOf (records : List Record) (aead : UInt16) : Agreement where
  aead := aead
  cookies := (records.filter (·.code = recordNewCookie)).map Record.body
  server := (lastOf records recordServerNegotiation).bind Record.text
  port := (lastOf records recordPortNegotiation).map Record.number

section Response

variable {records : List Record} {last : Record}

/-- **What is accepted, and with what result.** -/
theorem parseResponse_encode (hrecords : ∀ r ∈ records, r.code ≠ recordEndOfMessage)
    (hlast : last.code = recordEndOfMessage) (trailing : List UInt8) (aead : UInt16)
    (a : Agreement) :
    parseResponse (encodeResponse records last trailing) aead = .ok a ↔
      Usable records aead ∧ a = agreementOf records aead := by
  have hcookies : (progressOf records).cookies ≠ [] ↔
      ∃ r ∈ records, r.code = recordNewCookie := by
    simp [progressOf]
  rw [parseResponse_eq_records hrecords hlast, bind_eq_ok]
  constructor
  · rintro ⟨p, hp, h⟩
    obtain ⟨hacceptable, rfl⟩ := (records_eq_ok hrecords).mp hp
    obtain ⟨⟨hnext, haead, hne⟩, ha⟩ := agreement_eq_ok.mp h
    exact ⟨⟨hacceptable, hnext, haead, hcookies.mp hne⟩, ha⟩
  · rintro ⟨⟨hacceptable, hnext, haead, hcookie⟩, ha⟩
    exact ⟨_, (records_eq_ok hrecords).mpr ⟨hacceptable, rfl⟩,
      agreement_eq_ok.mpr ⟨⟨hnext, haead, hcookies.mpr hcookie⟩, ha⟩⟩

/-- A record nobody has to understand does nothing. -/
theorem record_of_ignorable {r : Record} (h : r.Ignorable) (p : Progress) :
    p.record r.isCritical r.code r.body = .ok p := by
  rw [Progress.record, ofCode_unknown h.2, h.1]
  rfl

/-- Records that may be ignored are. -/
theorem records_filter (records : List Record) (p : Progress) :
    p.records (records.filter fun r => ¬ r.Ignorable) = p.records records := by
  induction records generalizing p with
  | nil => rfl
  | cons r records ih =>
    by_cases h : r.Ignorable
    · rw [List.filter_cons_of_neg (by simpa using h), ih, Progress.records, Progress.records,
        List.foldlM_cons, record_of_ignorable h]
      rfl
    · rw [List.filter_cons_of_pos (by simpa using h), Progress.records, Progress.records,
        List.foldlM_cons, List.foldlM_cons]
      congr 1
      funext q
      exact ih q

/-- Ignorable records that are put in or left out do not change what comes of a
response. -/
theorem parseResponse_ignorable {records' : List Record}
    (hrecords : ∀ r ∈ records, r.code ≠ recordEndOfMessage)
    (hrecords' : ∀ r ∈ records', r.code ≠ recordEndOfMessage)
    (hlast : last.code = recordEndOfMessage) (trailing : List UInt8) (aead : UInt16)
    (hsame : (records.filter fun r => ¬ r.Ignorable) = records'.filter fun r => ¬ r.Ignorable) :
    parseResponse (encodeResponse records last trailing) aead =
      parseResponse (encodeResponse records' last trailing) aead := by
  rw [parseResponse_eq_records hrecords hlast, parseResponse_eq_records hrecords' hlast,
    ← records_filter records, hsame, records_filter]

/-- **Exactly the agreements this client can use**: a response is accepted if and only if
it is usable, the result is what the records say, and ignorable records anywhere before
the end change nothing, not even a refusal. -/
theorem accepts_exactly_usable (hrecords : ∀ r ∈ records, r.code ≠ recordEndOfMessage)
    (hlast : last.code = recordEndOfMessage) (trailing : List UInt8) (aead : UInt16) :
    ((∃ a, parseResponse (encodeResponse records last trailing) aead = .ok a) ↔
      Usable records aead) ∧
    (∀ a, parseResponse (encodeResponse records last trailing) aead = .ok a →
      a = agreementOf records aead) ∧
    ∀ records', (∀ r ∈ records', r.code ≠ recordEndOfMessage) →
      (records.filter fun r => ¬ r.Ignorable) = (records'.filter fun r => ¬ r.Ignorable) →
      parseResponse (encodeResponse records last trailing) aead =
        parseResponse (encodeResponse records' last trailing) aead := by
  refine ⟨?_, ?_, ?_⟩
  · constructor
    · rintro ⟨a, h⟩
      exact ((parseResponse_encode hrecords hlast trailing aead a).mp h).1
    · intro husable
      exact ⟨_, (parseResponse_encode hrecords hlast trailing aead _).mpr ⟨husable, rfl⟩⟩
  · intro a h
    exact ((parseResponse_encode hrecords hlast trailing aead a).mp h).2
  · intro records' hrecords' hsame
    exact parseResponse_ignorable hrecords hrecords' hlast trailing aead hsame

end Response

/-- Both agreements, critical, and a cookie of one byte. -/
def agreedRecords : List Record :=
  [⟨0x8001, [0, 0], by decide⟩, ⟨0x8004, [0, 15], by decide⟩, ⟨5, [7], by decide⟩]

/-- The same with a record of type 999 in front. -/
def agreedRecordsExtended : List Record :=
  ⟨999, [1, 2, 3], by decide⟩ :: agreedRecords

/-- The record that ends a message. -/
def closingRecord : Record := ⟨0x8000, [], by decide⟩

theorem accepts_exactly_usable_sample :
    parseResponse (encodeResponse agreedRecords closingRecord [1]) 15 =
      .ok (agreementOf agreedRecords 15) ∧
    parseResponse (encodeResponse agreedRecordsExtended closingRecord [1]) 15 =
      .ok (agreementOf agreedRecords 15) := by
  have hrecords : ∀ r ∈ agreedRecords, r.code ≠ recordEndOfMessage := by decide
  have hlast : closingRecord.code = recordEndOfMessage := by decide
  obtain ⟨-, hresult, hsame⟩ := accepts_exactly_usable hrecords hlast [1] 15
  have hok : parseResponse (encodeResponse agreedRecords closingRecord [1]) 15 =
      .ok { aead := 15, cookies := [[7]], server := none, port := none } := by
    decide +kernel
  have hagreement := hresult _ hok
  rw [hagreement] at hok
  refine ⟨hok, ?_⟩
  rw [← hsame agreedRecordsExtended (by decide) (by decide +kernel)]
  exact hok

end HostServices.TimeCorrection.Nts
