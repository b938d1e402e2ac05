import Mathlib.Algebra.GroupWithZero.Nat
import Mathlib.Algebra.Order.BigOperators.Group.List
import Mathlib.Algebra.Order.Group.Nat
import HostServices.Lib.Bytes
import HostServices.Lib.Fallible

/-!
# The NTS-KE record protocol (`time-correction/src/nts.rs`)

A response is a sequence of records, each a type with a critical bit, a length and
a body, up to an end-of-message record. Two functions walk over it:
`response_complete`, which looks for the end while bytes are still arriving, and
`parse_response`, which takes the records apart.

- `responseComplete`, `parseResponse`: the source's functions;
- `findEnd`, `earlier`: where the end-of-message record is, and what the records in
  front of it come to;
- `parseResponse_of_findEnd`, `parseResponse_of_incomplete`: the parser in terms of
  what the other walker finds;
- `cookie_length_le`: how long a cookie of an accepted response can be.
-/

namespace HostServices.TimeCorrection.Nts

open HostServices.Lib

def nextProtocolNtpv4 : UInt16 := 0
/-- `AEAD_AES_SIV_CMAC_256`. -/
def aeadAesSivCmac256 : UInt16 := 15

def recordEndOfMessage : UInt16 := 0
def critical : UInt16 := 0x8000

/-- The types of records other than the end of the message. -/
inductive RecordType
  | nextProtocol | error | warning | aeadAlgorithm | newCookie
  | serverNegotiation | portNegotiation
  | unknown (code : UInt16)
  deriving DecidableEq, Repr

/-- The type of a record, by its code. -/
def RecordType.ofCode (code : UInt16) : RecordType :=
  match code.toNat with
  | 1 => .nextProtocol
  | 2 => .error
  | 3 => .warning
  | 4 => .aeadAlgorithm
  | 5 => .newCookie
  | 6 => .serverNegotiation
  | 7 => .portNegotiation
  | _ => .unknown code

/-- What the server agreed to, and where to ask for the time. -/
structure Agreement where
  aead : UInt16
  cookies : List (List UInt8)
  server : Option String
  port : Option UInt16
  deriving DecidableEq, Repr

/-! ## The code -/

/-- `header & !CRITICAL`. -/
def recordCode (message : List UInt8) (offset : Nat) : UInt16 :=
  u16At message offset &&& ~~~critical

/-- The length that the record at an offset announces. -/
def recordLength (message : List UInt8) (offset : Nat) : Nat :=
  (u16At message (offset + 2)).toNat

/-- The loop of `response_complete`: from header to header, up to the end of the message. -/
def responseCompleteFrom (message : List UInt8) (offset : Nat) : Bool :=
  if offset + 4 ≤ message.length then
    if recordCode message offset = recordEndOfMessage then true
    else responseCompleteFrom message (offset + (4 + recordLength message offset))
  else false
termination_by message.length - offset

/-- Whether an end-of-message record has been seen. -/
def responseComplete (message : List UInt8) : Bool := responseCompleteFrom message 0

/-- `u16_at`. -/
def readU16 (bytes : List UInt8) (offset : Nat) : Except String UInt16 :=
  match slice bytes offset (offset + 2) with
  | none => .error s!"truncated NTS-KE record at {offset}"
  | some _ => .ok (u16At bytes offset)

/-- The refusal of a record whose body is not all there. -/
def truncated (code length : UInt16) : String :=
  s!"NTS-KE record {code} claims {length} bytes it did not send"

/-- The local variables of `parse_response`. -/
structure Progress where
  nextProtocol : Option UInt16 := none
  aead : Option UInt16 := none
  cookies : List (List UInt8) := []
  server : Option String := none
  port : Option UInt16 := none

/-- What one record does. -/
def Progress.record (p : Progress) (isCritical : Bool) (code : UInt16) (body : List UInt8) :
    Except String Progress :=
  match RecordType.ofCode code with
  | .nextProtocol =>
    if body.length ≠ 2 then .error "server agreed to no next protocol"
    else .ok { p with nextProtocol := some (u16At body 0) }
  | .error =>
    let number := if body.length = 2 then toString (u16At body 0) else "unknown"
    .error s!"server returned NTS-KE error {number}"
  | .warning => .error "server returned an NTS-KE warning"
  | .aeadAlgorithm =>
    if body.length ≠ 2 then .error "server agreed to no AEAD algorithm"
    else .ok { p with aead := some (u16At body 0) }
  | .newCookie => .ok { p with cookies := p.cookies ++ [body] }
  | .serverNegotiation =>
    match String.fromUTF8? (ByteArray.mk body.toArray) with
    | none => .error "server negotiation record is not UTF-8"
    | some server => .ok { p with server := some server }
  | .portNegotiation =>
    if body.length ≠ 2 then .error "port negotiation record is not two bytes"
    else .ok { p with port := some (u16At body 0) }
  | .unknown code =>
    if isCritical then
      .error (s!"server sent critical NTS-KE record {code}, which this client does not " ++
        "implement")
    else .ok p

/-- `while offset < message.len() { .. }`; the flag is `ended`. -/
def parseRecords (message : List UInt8) (offset : Nat) (p : Progress) :
    Except String (Progress × Bool) :=
  if offset < message.length then
    match readU16 message offset with
    | .error e => .error e
    | .ok header =>
      match readU16 message (offset + 2) with
      | .error e => .error e
      | .ok length =>
        let code := header &&& ~~~critical
        match slice message (offset + 4) (offset + 4 + length.toNat) with
        | none => .error (truncated code length)
        | some body =>
          if code = recordEndOfMessage then .ok (p, true)
          else
            match p.record (header &&& critical ≠ 0) code body with
            | .error e => .error e
            | .ok p => parseRecords message (offset + (4 + length.toNat)) p
  else .ok (p, false)
termination_by message.length - offset

/-- What has to have been agreed to by the end of the message. -/
def Progress.agreement (p : Progress) (requestedAead : UInt16) : Except String Agreement :=
  match p.nextProtocol with
  | none => .error "server sent no next protocol record"
  | some chosen =>
    if chosen ≠ nextProtocolNtpv4 then
      .error s!"server chose next protocol {chosen}, not NTPv4"
    else
      match p.aead with
      | none => .error "server sent no AEAD record"
      | some chosen =>
        if chosen ≠ requestedAead then
          .error s!"server chose AEAD {chosen}, which was not offered"
        else if p.cookies = [] then .error "server sent no cookies"
        else .ok { aead := requestedAead, cookies := p.cookies, server := p.server,
                   port := p.port }

/-- Parse a complete NTS-KE response. -/
def parseResponse (message : List UInt8) (requestedAead : UInt16) :
    Except String Agreement := do
  let (p, ended) ← parseRecords message 0 {}
  if ended then p.agreement requestedAead
  else .error "NTS-KE response ended without an end-of-message record"

/-! ## Where the end-of-message record is -/

/-- The offset of the first end-of-message record whose header has arrived. -/
def findEnd (message : List UInt8) (offset : Nat) : Option Nat :=
  if offset + 4 ≤ message.length then
    if recordCode message offset = recordEndOfMessage then some offset
    else findEnd message (offset + (4 + recordLength message offset))
  else none
termination_by message.length - offset

/-- What the records in front of the end-of-message record come to. -/
def earlier (message : List UInt8) (offset : Nat) (p : Progress) : Except String Progress :=
  if offset + 4 ≤ message.length then
    if recordCode message offset = recordEndOfMessage then .ok p
    else
      match p.record (u16At message offset &&& critical ≠ 0) (recordCode message offset)
        ((message.drop (offset + 4)).take (recordLength message offset)) with
      | .error e => .error e
      | .ok p => earlier message (offset + (4 + recordLength message offset)) p
  else .ok p
termination_by message.length - offset

/-- The loop looks for the end of the message. -/
theorem responseCompleteFrom_eq (message : List UInt8) (offset : Nat) :
    responseCompleteFrom message offset = (findEnd message offset).isSome := by
  fun_induction findEnd message offset with
  | case1 offset hroom hend => rw [responseCompleteFrom, if_pos hroom, if_pos hend]; rfl
  | case2 offset hroom hend ih => rw [responseCompleteFrom, if_pos hroom, if_neg hend, ih]
  | case3 offset hroom => rw [responseCompleteFrom, if_neg hroom]; rfl

/-- The header of the end is in the message, no earlier than where the search began. -/
theorem findEnd_bounds {message : List UInt8} {offset e : Nat}
    (h : findEnd message offset = some e) : offset ≤ e ∧ e + 4 ≤ message.length := by
  fun_induction findEnd message offset with
  | case1 offset hroom hend => cases h; omega
  | case2 offset hroom hend ih =>
    obtain ⟨h₁, h₂⟩ := ih h
    omega
  | case3 => cases h

/-! ## Only the bytes up to the end matter -/

/-- A header that lies in the part two messages share is the same in both. -/
theorem header_congr {m m' : List UInt8} {n offset : Nat} (hagree : m'.take n = m.take n)
    (h : offset + 4 ≤ n) :
    u16At m' offset = u16At m offset ∧ recordLength m' offset = recordLength m offset := by
  have hread : ∀ i, i + 2 ≤ n → u16At m' i = u16At m i := by
    intro i hi
    rw [← u16At_take hi, hagree, u16At_take hi]
  refine ⟨hread offset (by omega), ?_⟩
  rw [recordLength, recordLength, hread (offset + 2) (by omega)]

theorem length_congr {m m' : List UInt8} {n : Nat} (hagree : m'.take n = m.take n)
    (h : n ≤ m.length) : n ≤ m'.length := by
  have := congrArg List.length hagree
  rw [List.length_take, List.length_take] at this
  omega

/-- A message that agrees up to the end-of-message header has it there too. -/
theorem findEnd_congr {m m' : List UInt8} {offset e : Nat} (h : findEnd m offset = some e)
    (hagree : m'.take (e + 4) = m.take (e + 4)) : findEnd m' offset = some e := by
  obtain ⟨-, hle⟩ := findEnd_bounds h
  have hle' := length_congr hagree hle
  fun_induction findEnd m offset with
  | case1 offset hroom hend =>
    cases h
    obtain ⟨hheader, -⟩ := header_congr hagree (Nat.le_refl _)
    rw [findEnd, if_pos hle', recordCode, hheader, ← recordCode, if_pos hend]
  | case2 offset hroom hend ih =>
    obtain ⟨hnext, -⟩ := findEnd_bounds h
    obtain ⟨hheader, hlength⟩ := header_congr hagree (show offset + 4 ≤ e + 4 by omega)
    rw [findEnd, if_pos (by omega), recordCode, hheader, ← recordCode, if_neg hend, hlength]
    exact ih h
  | case3 => cases h

/-- The records in front of the end do not depend on what follows. -/
theorem earlier_congr {m m' : List UInt8} {offset e : Nat} (h : findEnd m offset = some e)
    (hagree : m'.take (e + 4) = m.take (e + 4)) (p : Progress) :
    earlier m' offset p = earlier m offset p := by
  obtain ⟨-, hle⟩ := findEnd_bounds h
  have hle' := length_congr hagree hle
  fun_induction findEnd m offset generalizing p with
  | case1 offset hroom hend =>
    cases h
    obtain ⟨hheader, -⟩ := header_congr hagree (Nat.le_refl _)
    rw [earlier, earlier, if_pos hle', if_pos hle, recordCode, hheader, ← recordCode,
      if_pos hend, if_pos hend]
  | case2 offset hroom hend ih =>
    obtain ⟨hnext, -⟩ := findEnd_bounds h
    obtain ⟨hheader, hlength⟩ := header_congr hagree (show offset + 4 ≤ e + 4 by omega)
    have hbody : (m'.drop (offset + 4)).take (recordLength m offset)
        = (m.drop (offset + 4)).take (recordLength m offset) := by
      have htake : ∀ l : List UInt8, (l.drop (offset + 4)).take (recordLength m offset)
          = ((l.take (e + 4)).drop (offset + 4)).take (recordLength m offset) := by
        intro l
        rw [List.drop_take, List.take_take, Nat.min_eq_left (by omega)]
      rw [htake, hagree, ← htake]
    have hcode : recordCode m' offset = recordCode m offset := by
      rw [recordCode, hheader, ← recordCode]
    rw [earlier, earlier, if_pos (by omega), if_pos hroom, hcode, if_neg hend, if_neg hend,
      hheader, hlength, hbody]
    split
    · rfl
    · exact ih h _
  | case3 => cases h

/-! ## The parser follows -/

theorem readU16_of_le {bytes : List UInt8} {offset : Nat} (h : offset + 2 ≤ bytes.length) :
    readU16 bytes offset = .ok (u16At bytes offset) := by
  rw [readU16, slice_of_le (by omega) h]

/-- One record that is all there. -/
theorem parseRecords_step {m : List UInt8} {offset : Nat}
    (hfits : offset + (4 + recordLength m offset) ≤ m.length) (p : Progress) :
    parseRecords m offset p =
      if recordCode m offset = recordEndOfMessage then .ok (p, true)
      else
        match p.record (u16At m offset &&& critical ≠ 0) (recordCode m offset)
          ((m.drop (offset + 4)).take (recordLength m offset)) with
        | .error e => .error e
        | .ok p => parseRecords m (offset + (4 + recordLength m offset)) p := by
  rw [parseRecords, if_pos (by omega), readU16_of_le (by omega)]
  dsimp only
  rw [readU16_of_le (by omega)]
  dsimp only
  rw [slice_of_le (by omega) (by unfold recordLength at hfits; omega)]
  dsimp only
  rw [Nat.add_sub_cancel_left]
  rfl

/-- A record whose header is there and whose body is not. -/
theorem parseRecords_truncated {m : List UInt8} {offset : Nat} (hroom : offset + 4 ≤ m.length)
    (hshort : m.length < offset + (4 + recordLength m offset)) (p : Progress) :
    parseRecords m offset p =
      .error (truncated (recordCode m offset) (u16At m (offset + 2))) := by
  have hnone : slice m (offset + 4) (offset + 4 + (u16At m (offset + 2)).toNat) = none := by
    unfold recordLength at hshort
    exact if_neg fun h => by omega
  rw [parseRecords, if_pos (by omega), readU16_of_le (by omega)]
  dsimp only
  rw [readU16_of_le (by omega)]
  dsimp only
  rw [hnone]
  rfl

/-- **The parser, where the other walker finds an end**: it refuses what the earlier
records are refused for, and it wants the body of the end-of-message record. -/
theorem parseRecords_of_findEnd {m : List UInt8} {offset e : Nat}
    (h : findEnd m offset = some e) (p : Progress) :
    parseRecords m offset p =
      match earlier m offset p with
      | .error err => .error err
      | .ok p' =>
        if e + (4 + recordLength m e) ≤ m.length then .ok (p', true)
        else .error (truncated recordEndOfMessage (u16At m (e + 2))) := by
  fun_induction findEnd m offset generalizing p with
  | case1 offset hroom hend =>
    cases h
    rw [earlier, if_pos hroom, if_pos hend]
    dsimp only
    split
    · rename_i hfits
      rw [parseRecords_step hfits, if_pos hend]
    · rename_i hshort
      rw [parseRecords_truncated hroom (by omega), hend]
  | case2 offset hroom hend ih =>
    obtain ⟨hnext, hle⟩ := findEnd_bounds h
    rw [parseRecords_step (by omega), earlier, if_pos hroom, if_neg hend, if_neg hend]
    split
    · rfl
    · exact ih h _
  | case3 => cases h

/-- Without an end-of-message header the parser does not end either. -/
theorem parseRecords_of_incomplete {m : List UInt8} {offset : Nat}
    (h : findEnd m offset = none) {p : Progress} {r : Progress × Bool}
    (hr : parseRecords m offset p = .ok r) : r.2 = false := by
  fun_induction findEnd m offset generalizing p with
  | case1 => cases h
  | case2 offset hroom hend ih =>
    by_cases hfits : offset + (4 + recordLength m offset) ≤ m.length
    · rw [parseRecords_step hfits, if_neg hend] at hr
      split at hr
      · cases hr
      · exact ih h hr
    · rw [parseRecords_truncated hroom (by omega)] at hr
      cases hr
  | case3 offset hroom =>
    rw [parseRecords] at hr
    split at hr
    · -- less than a header left
      have hshort : readU16 m (offset + 2)
          = .error s!"truncated NTS-KE record at {offset + 2}" := by
        rw [readU16, slice, if_neg fun h => by omega]
      rw [hshort] at hr
      split at hr <;> cases hr
    · cases hr
      rfl

/-- What comes of the earlier records and an end-of-message record at `e` of the
given length, when `b` bytes have arrived. -/
def conclude (length : UInt16) (e b : Nat) (aead : UInt16) :
    Except String Progress → Except String Agreement
  | .error err => .error err
  | .ok p =>
    if e + (4 + length.toNat) ≤ b then p.agreement aead
    else .error (truncated recordEndOfMessage length)

@[simp] theorem conclude_error (length : UInt16) (e b : Nat) (aead : UInt16) (err : String) :
    conclude length e b aead (.error err) = .error err := rfl

theorem conclude_arrived {m : List UInt8} {e b : Nat} (h : e + (4 + recordLength m e) ≤ b)
    (aead : UInt16) (p : Progress) :
    conclude (u16At m (e + 2)) e b aead (.ok p) = p.agreement aead :=
  if_pos h

theorem conclude_short {m : List UInt8} {e b : Nat} (h : b < e + (4 + recordLength m e))
    (aead : UInt16) (p : Progress) :
    conclude (u16At m (e + 2)) e b aead (.ok p)
      = .error (truncated recordEndOfMessage (u16At m (e + 2))) :=
  if_neg (Nat.not_le_of_lt h)

/-- A message is its records, and how it ends. -/
theorem parseResponse_of_findEnd {m : List UInt8} {e : Nat} (h : findEnd m 0 = some e)
    (aead : UInt16) :
    parseResponse m aead = conclude (u16At m (e + 2)) e m.length aead (earlier m 0 {}) := by
  rw [parseResponse, parseRecords_of_findEnd h]
  cases earlier m 0 {} with
  | error err => rfl
  | ok p =>
    dsimp only
    split
    · rename_i hfits
      rw [conclude_arrived hfits]
      rfl
    · rename_i hshort
      rw [conclude_short (Nat.lt_of_not_le hshort)]
      rfl

/-- A message without an end-of-message header is refused. -/
theorem parseResponse_of_incomplete {m : List UInt8} (h : findEnd m 0 = none)
    (aead : UInt16) : ∃ err, parseResponse m aead = .error err := by
  cases hrecords : parseRecords m 0 {} with
  | error err => exact ⟨err, by rw [parseResponse, hrecords]; rfl⟩
  | ok r =>
    have hended := parseRecords_of_incomplete h hrecords
    obtain ⟨p, ended⟩ := r
    cases hended
    exact ⟨_, by rw [parseResponse, hrecords]; rfl⟩

/-! ## Telling the refusals apart -/

theorem head_append {a : String} {c : Char} (h : a.toList.head? = some c) (b : String) :
    (a ++ b).toList.head? = some c := by
  rw [String.toList_append, List.head?_append, h]
  rfl

theorem head_truncated (code length : UInt16) :
    (truncated code length).toList.head? = some 'N' :=
  head_append (head_append (head_append (head_append (by decide) _) _) _) _

theorem head_of_agreement_error {p : Progress} {aead : UInt16} {err : String}
    (h : p.agreement aead = .error err) : err.toList.head? = some 's' := by
  unfold Progress.agreement at h
  cases hnext : p.nextProtocol with
  | none =>
    rw [hnext] at h
    cases h
    decide
  | some chosen =>
    rw [hnext] at h
    dsimp only at h
    split at h
    · cases h
      exact head_append (head_append (by decide) _) _
    · cases haead : p.aead with
      | none =>
        rw [haead] at h
        cases h
        decide
      | some chosen =>
        rw [haead] at h
        dsimp only at h
        split at h
        · cases h
          exact head_append (head_append (by decide) _) _
        · split at h
          · cases h
            decide
          · cases h

/-- What the end of the message comes to is never mistaken for a missing body. -/
theorem agreement_ne_truncated (p : Progress) (aead code length : UInt16) :
    p.agreement aead ≠ .error (truncated code length) := by
  intro h
  have := head_of_agreement_error h
  rw [head_truncated] at this
  cases this

/-! ## What an accepted response weighs -/

/-- The bytes it takes to say this much: two-byte bodies for the two agreements, and
the cookies, each behind a header of four. -/
def Progress.size (p : Progress) : Nat :=
  (if p.nextProtocol.isSome then 6 else 0) + (if p.aead.isSome then 6 else 0) +
    (p.cookies.map fun c => 4 + c.length).sum

/-- A record adds no more than its own size. -/
theorem Progress.size_record {p p' : Progress} {isCritical : Bool} {code : UInt16}
    {body : List UInt8} (h : p.record isCritical code body = .ok p') :
    p'.size ≤ p.size + (4 + body.length) := by
  unfold Progress.record at h
  split at h
  case h_1 =>
    split_ifs at h with hlen
    cases h
    simp only [size, Option.isSome_some]
    split_ifs <;> omega
  case h_2 => cases h
  case h_3 => cases h
  case h_4 =>
    split_ifs at h with hlen
    cases h
    simp only [size, Option.isSome_some]
    split_ifs <;> omega
  case h_5 =>
    cases h
    simp only [size, List.map_append, List.sum_append, List.map_cons, List.map_nil,
      List.sum_cons, List.sum_nil]
    omega
  case h_6 =>
    split at h
    · cases h
    · cases h
      simp only [size]
      omega
  case h_7 =>
    split_ifs at h with hlen
    cases h
    simp only [size]
    omega
  case h_8 =>
    split_ifs at h with hcritical
    cases h
    omega

/-- Along the walk, what was said fits into the bytes read so far; behind it stands the
end-of-message header. -/
theorem size_parseRecords {m : List UInt8} {offset : Nat} {p p' : Progress}
    (h : parseRecords m offset p = .ok (p', true)) (hp : p.size ≤ offset) :
    p'.size + 4 ≤ m.length := by
  fun_induction parseRecords m offset p with
  | case1 => cases h
  | case2 => cases h
  | case3 => cases h
  | case4 offset p hlt header hheader length hlength code body hbody hend =>
    cases h
    have hfits := (slice_eq_some.mp hbody).2.1
    omega
  | case5 => cases h
  | case6 offset p hlt header hheader length hlength code body hbody hend p₁ hrecord ih =>
    refine ih h ?_
    have hsize := Progress.size_record hrecord
    have hlen := length_of_slice hbody
    omega
  | case7 => cases h

/-- What an agreement takes. -/
theorem agreement_ok {p : Progress} {aead : UInt16} {a : Agreement}
    (h : p.agreement aead = .ok a) :
    p.nextProtocol = some nextProtocolNtpv4 ∧ p.aead = some aead ∧ p.cookies ≠ [] ∧
      a = { aead := aead, cookies := p.cookies, server := p.server, port := p.port } := by
  unfold Progress.agreement at h
  cases hnext : p.nextProtocol with
  | none =>
    rw [hnext] at h
    cases h
  | some next =>
    rw [hnext] at h
    cases haead : p.aead with
    | none =>
      rw [haead] at h
      dsimp only at h
      split at h <;> cases h
    | some chosen =>
      rw [haead] at h
      dsimp only at h
      split_ifs at h with hv4 hchosen hcookies
      cases h
      exact ⟨congrArg some (not_not.mp hv4), congrArg some (not_not.mp hchosen), hcookies, rfl⟩

/-- **A cookie leaves room for the rest**: besides it an accepted response carries its
header, the two agreements and the end of the message. -/
theorem cookie_length_le {m : List UInt8} {aead : UInt16} {a : Agreement}
    (h : parseResponse m aead = .ok a) {c : List UInt8} (hc : c ∈ a.cookies) :
    c.length + 20 ≤ m.length := by
  obtain ⟨⟨p, ended⟩, hrecords, h⟩ := bind_eq_ok.mp h
  dsimp only at h
  split_ifs at h with hended
  subst hended
  obtain ⟨hnext, haead, -, rfl⟩ := agreement_ok h
  have hsize := size_parseRecords hrecords (Nat.zero_le _)
  have hcookie : 4 + c.length ≤ (p.cookies.map fun c => 4 + c.length).sum :=
    List.le_sum_of_mem (List.mem_map_of_mem hc)
  rw [Progress.size, hnext, haead, Option.isSome_some, if_pos rfl, Option.isSome_some,
    if_pos rfl] at hsize
  omega

end HostServices.TimeCorrection.Nts
