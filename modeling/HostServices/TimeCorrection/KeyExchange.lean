import HostServices.TimeCorrection.Nts

/-!
# Reading a key establishment response (`time-correction/src/timeserver.rs`)

`establish` reads from the TLS session until `response_complete` is satisfied or the
peer stops talking, and parses what it has. The session delivers the response in
pieces of its own choosing, of at most the 4096 bytes that are asked for.

- `readLoop`, `readAgreement`: the loop, and what comes of it;
- `CutOf`: a way to cut a byte stream into reads;
- `readLoop_cut`, `exists_cut`: where the loop can stop, and that it can stop at each
  of these places;
- `completeness_agrees_iff`: exactly when the cut does not matter.
-/

namespace HostServices.TimeCorrection.Nts

open HostServices.Lib

/-! ## The code -/

/-- `MAX_KE_RESPONSE` -/
def maxKeResponse : Nat := 64 * 1024

/-- The size of the buffer a read fills. -/
def chunkSize : Nat := 4096

/-- What `stream.read` gave. -/
inductive Read
  | data (bytes : List UInt8)
  | unexpectedEof
  | failed (message : String)

/-- Read until the response terminates itself, or the peer stops talking; behind the
last read the peer has closed. -/
def readLoop (address : String) (response : List UInt8) (reads : List Read) :
    Except String (List UInt8) :=
  if responseComplete response then .ok response
  else
    match reads with
    | [] => .ok response
    | .unexpectedEof :: _ => .ok response
    | .failed e :: _ => .error s!"cannot read the NTS-KE response from {address}: {e}"
    | .data bytes :: reads =>
      if bytes = [] then .ok response
      else if maxKeResponse < (response ++ bytes).length then
        .error s!"NTS-KE response exceeded {maxKeResponse} bytes"
      else readLoop address (response ++ bytes) reads

/-- The agreement or refusal that comes of the reads. -/
def readAgreement (address : String) (reads : List Read) : Except String Agreement := do
  let response ← readLoop address [] reads
  if responseComplete response then parseResponse response aeadAesSivCmac256
  else .error s!"{address} closed the NTS-KE session before answering"

/-! ## Cuts -/

/-- `chunks` is a way to cut the stream into reads. -/
structure CutOf (stream : List UInt8) (chunks : List (List UInt8)) : Prop where
  flatten : chunks.flatten = stream
  size : ∀ c ∈ chunks, c ≠ [] ∧ c.length ≤ chunkSize

/-- What comes of a stream that is cut so. -/
def outcome (address : String) (chunks : List (List UInt8)) : Except String Agreement :=
  readAgreement address (chunks.map .data)

/-- A message is complete when its end is there. -/
theorem responseComplete_iff {m : List UInt8} :
    responseComplete m = true ↔ ∃ e, findEnd m 0 = some e := by
  rw [responseComplete, responseCompleteFrom_eq, Option.isSome_iff_exists]

theorem findEnd_append {m : List UInt8} {e : Nat} (h : findEnd m 0 = some e)
    (s : List UInt8) : findEnd (m ++ s) 0 = some e :=
  findEnd_congr h (List.take_append_of_le_length (findEnd_bounds h).2)

/-- A part of a stream is complete once the end-of-message header is in it. -/
theorem findEnd_take {stream : List UInt8} {e : Nat} (h : findEnd stream 0 = some e)
    {b : Nat} (hb : e + 4 ≤ b) : findEnd (stream.take b) 0 = some e :=
  findEnd_congr h (by rw [List.take_take, Nat.min_eq_left hb])

theorem findEnd_eq_none_of_short {r s : List UInt8} {e : Nat}
    (h : findEnd (r ++ s) 0 = some e) (hr : r.length < e + 4) : findEnd r 0 = none := by
  cases hfind : findEnd r 0 with
  | none => rfl
  | some e' =>
    have heq := findEnd_append hfind s
    rw [h] at heq
    cases heq
    have := (findEnd_bounds hfind).2
    omega

theorem findEnd_eq_none_of_append {r s : List UInt8} (h : findEnd (r ++ s) 0 = none) :
    findEnd r 0 = none := by
  cases hfind : findEnd r 0 with
  | none => rfl
  | some e =>
    rw [findEnd_append hfind s] at h
    cases h

/-- Nothing more is read of a complete message. -/
theorem readLoop_complete {address : String} {response : List UInt8} {e : Nat}
    (h : findEnd response 0 = some e) (reads : List Read) :
    readLoop address response reads = .ok response := by
  rw [readLoop.eq_def, if_pos (responseComplete_iff.mpr ⟨e, h⟩)]

theorem not_responseComplete {m : List UInt8} (h : findEnd m 0 = none) :
    ¬ responseComplete m = true := by
  rw [responseComplete_iff]
  rintro ⟨e, he⟩
  rw [h] at he
  cases he

/-- One read while the response is incomplete. -/
theorem readLoop_data {address : String} {response bytes : List UInt8} {reads : List Read}
    (h : findEnd response 0 = none) (hne : bytes ≠ [])
    (hmax : (response ++ bytes).length ≤ maxKeResponse) :
    readLoop address response (.data bytes :: reads)
      = readLoop address (response ++ bytes) reads := by
  rw [readLoop.eq_def, if_neg (not_responseComplete h)]
  dsimp only
  rw [if_neg hne, if_neg (Nat.not_lt_of_le hmax)]

/-! ## Where the loop stops -/

/-- Without an end-of-message header everything is read. -/
theorem readLoop_none (address : String) (response : List UInt8) {chunks : List (List UInt8)}
    (hsize : ∀ c ∈ chunks, c ≠ []) (hmax : (response ++ chunks.flatten).length ≤ maxKeResponse)
    (h : findEnd (response ++ chunks.flatten) 0 = none) :
    readLoop address response (chunks.map .data) = .ok (response ++ chunks.flatten) := by
  induction chunks generalizing response with
  | nil =>
    rw [List.flatten_nil, List.append_nil] at h ⊢
    rw [List.map_nil, readLoop.eq_def, if_neg (not_responseComplete h)]
  | cons c chunks ih =>
    rw [List.flatten_cons, ← List.append_assoc] at h hmax ⊢
    have hc : (response ++ c).length ≤ maxKeResponse := by
      rw [List.length_append] at hmax
      omega
    rw [List.map_cons, readLoop_data (findEnd_eq_none_of_append
      (findEnd_eq_none_of_append h)) (hsize c List.mem_cons_self) hc]
    exact ih _ (fun c' hc' => hsize c' (List.mem_cons_of_mem c hc')) hmax h

/-- **Where the loop stops**: at a read boundary behind the end-of-message header,
less than one read behind it. -/
theorem readLoop_cut (address : String) (response : List UInt8) {chunks : List (List UInt8)}
    {e : Nat} (hsize : ∀ c ∈ chunks, c ≠ [] ∧ c.length ≤ chunkSize)
    (hmax : (response ++ chunks.flatten).length ≤ maxKeResponse)
    (h : findEnd (response ++ chunks.flatten) 0 = some e) (hshort : response.length < e + 4) :
    ∃ b, readLoop address response (chunks.map .data)
        = .ok ((response ++ chunks.flatten).take b) ∧
      e + 4 ≤ b ∧ b < e + 4 + chunkSize ∧ b ≤ (response ++ chunks.flatten).length := by
  induction chunks generalizing response with
  | nil =>
    rw [List.flatten_nil, List.append_nil] at h
    have := (findEnd_bounds h).2
    omega
  | cons c chunks ih =>
    obtain ⟨hne, hlen⟩ := hsize c List.mem_cons_self
    rw [List.flatten_cons, ← List.append_assoc] at h hmax ⊢
    have hcl : (response ++ c).length = response.length + c.length := List.length_append
    have hc : (response ++ c).length ≤ maxKeResponse := by
      rw [List.length_append] at hmax
      omega
    have hbefore : findEnd response 0 = none := by
      rw [List.append_assoc] at h
      exact findEnd_eq_none_of_short h hshort
    rw [List.map_cons, readLoop_data hbefore hne hc]
    rcases Nat.lt_or_ge (response ++ c).length (e + 4) with hlt | hge
    · exact ih _ (fun c' hc' => hsize c' (List.mem_cons_of_mem c hc')) hmax h hlt
    · -- this read brings the header
      refine ⟨(response ++ c).length, ?_, hge, by omega, ?_⟩
      · have hend := findEnd_take h hge
        rw [List.take_left] at hend ⊢
        exact readLoop_complete hend _
      · have hall : (response ++ c ++ chunks.flatten).length
            = (response ++ c).length + chunks.flatten.length := List.length_append
        omega

/-- Single bytes up to a point at which the response is still incomplete. -/
theorem readLoop_singles (address : String) {response l : List UInt8} (reads : List Read)
    (hmax : (response ++ l).length ≤ maxKeResponse) (h : findEnd (response ++ l) 0 = none) :
    readLoop address response (l.map (fun x => Read.data [x]) ++ reads)
      = readLoop address (response ++ l) reads := by
  induction l generalizing response with
  | nil => rw [List.append_nil]; rfl
  | cons x l ih =>
    have hsplit : response ++ x :: l = response ++ [x] ++ l := by simp
    rw [hsplit] at h hmax ⊢
    have hx : (response ++ [x]).length ≤ maxKeResponse := by
      rw [List.length_append] at hmax
      omega
    rw [List.map_cons, List.cons_append, readLoop_data (findEnd_eq_none_of_append
      (findEnd_eq_none_of_append h)) (List.cons_ne_nil x []) hx]
    exact ih hmax h

/-- **It can stop at each of these places**: for every position less than one read
behind the header there is a cut that makes the loop stop there. -/
theorem exists_cut (address : String) {stream : List UInt8} {e b : Nat}
    (hmax : stream.length ≤ maxKeResponse) (h : findEnd stream 0 = some e) (hb : e + 4 ≤ b)
    (hb' : b < e + 4 + chunkSize) (hlen : b ≤ stream.length) :
    ∃ chunks, CutOf stream chunks ∧
      readLoop address [] (chunks.map .data) = .ok (stream.take b) := by
  -- byte by byte up to the last byte of the header, then one read up to `b`
  let before := stream.take (e + 3)
  let last := (stream.drop (e + 3)).take (b - (e + 3))
  let after := stream.drop b
  have hbefore : before.length = e + 3 := by
    rw [List.length_take]
    omega
  have hlast : last.length = b - (e + 3) := by
    rw [List.length_take, List.length_drop]
    omega
  have hjoin : before ++ last = stream.take b := by
    have hb : b = e + 3 + (b - (e + 3)) := by omega
    show stream.take (e + 3) ++ (stream.drop (e + 3)).take (b - (e + 3)) = _
    rw [← List.take_add, ← hb]
  have hwhole : before ++ last ++ after = stream := by
    rw [hjoin]
    exact List.take_append_drop b stream
  have hnone : findEnd before 0 = none := by
    rw [← hwhole, List.append_assoc] at h
    exact findEnd_eq_none_of_short h (by omega)
  refine ⟨before.map (fun x => [x]) ++ last :: after.map (fun x => [x]), ⟨?_, ?_⟩, ?_⟩
  · rw [List.flatten_append, List.flatten_cons, ← hwhole]
    simp only [← List.flatMap_def, List.flatMap_singleton', List.append_assoc]
  · intro c hc
    rcases List.mem_append.mp hc with hc | hc
    · obtain ⟨x, -, rfl⟩ := List.mem_map.mp hc
      exact ⟨List.cons_ne_nil x [], Nat.succ_le_of_lt (by decide)⟩
    · rcases List.mem_cons.mp hc with rfl | hc
      · exact ⟨List.ne_nil_of_length_pos (by omega), by omega⟩
      · obtain ⟨x, -, rfl⟩ := List.mem_map.mp hc
        exact ⟨List.cons_ne_nil x [], Nat.succ_le_of_lt (by decide)⟩
  · rw [List.map_append, List.map_map, List.map_cons]
    have hshort : ([] ++ before).length ≤ maxKeResponse := by
      rw [List.nil_append]
      omega
    refine (readLoop_singles address _ hshort hnone).trans ?_
    have hread : (before ++ last).length ≤ maxKeResponse := by
      rw [List.length_append]
      omega
    rw [List.nil_append, readLoop_data hnone (List.ne_nil_of_length_pos (by omega)) hread, hjoin]
    exact readLoop_complete (findEnd_take h hb) _

/-! ## What comes of it -/

/-- What comes of a stream with an end-of-message header when the loop stops at `b`:
the body of that record is in by then, or it is not. -/
theorem parseResponse_take {stream : List UInt8} {e b : Nat} (h : findEnd stream 0 = some e)
    (hb : e + 4 ≤ b) (hlen : b ≤ stream.length) (aead : UInt16) :
    parseResponse (stream.take b) aead
      = conclude (u16At stream (e + 2)) e b aead (earlier stream 0 {}) := by
  have hagree : (stream.take b).take (e + 4) = stream.take (e + 4) := by
    rw [List.take_take, Nat.min_eq_left hb]
  rw [parseResponse_of_findEnd (findEnd_take h hb), earlier_congr h hagree,
    List.length_take, Nat.min_eq_left hlen, u16At_take (by omega)]

/-- What was read is what is parsed. -/
theorem readAgreement_of_readLoop {address : String} {reads : List Read}
    {response : List UInt8} {e : Nat} (hread : readLoop address [] reads = .ok response)
    (h : findEnd response 0 = some e) :
    readAgreement address reads = parseResponse response aeadAesSivCmac256 := by
  rw [readAgreement, hread]
  exact if_pos (responseComplete_iff.mpr ⟨e, h⟩)

/-- Of a stream that has its end, no more is read than the chunk with it. -/
theorem outcome_of_findEnd (address : String) {stream : List UInt8}
    {chunks : List (List UInt8)} {e : Nat} (hmax : stream.length ≤ maxKeResponse)
    (hcut : CutOf stream chunks) (h : findEnd stream 0 = some e) :
    ∃ b, e + 4 ≤ b ∧ b < e + 4 + chunkSize ∧ b ≤ stream.length ∧
      outcome address chunks = parseResponse (stream.take b) aeadAesSivCmac256 := by
  obtain ⟨hflat, hsize⟩ := hcut
  subst hflat
  obtain ⟨b, hread, hb, hb', hlen⟩ :=
    readLoop_cut address [] hsize hmax h (Nat.succ_pos _)
  exact ⟨b, hb, hb', hlen, readAgreement_of_readLoop hread (findEnd_take h hb)⟩

theorem outcome_of_none (address : String) {stream : List UInt8}
    {chunks : List (List UInt8)} (hmax : stream.length ≤ maxKeResponse)
    (hcut : CutOf stream chunks) (h : findEnd stream 0 = none) :
    outcome address chunks = .error s!"{address} closed the NTS-KE session before answering" := by
  obtain ⟨hflat, hsize⟩ := hcut
  subst hflat
  have hread := readLoop_none address [] (fun c hc => (hsize c hc).1) hmax h
  rw [outcome, readAgreement, hread]
  exact if_neg (not_responseComplete h)

/-! ## When the cut does not matter -/

/-- A record in front of the end-of-message record is refused. -/
def RefusedEarlier (m : List UInt8) : Prop := ∃ err, earlier m 0 {} = .error err

/-- The end-of-message record has arrived with its body. -/
def EndArrived (m : List UInt8) : Prop :=
  ∀ e, findEnd m 0 = some e → e + (4 + recordLength m e) ≤ m.length

/-- No read boundary of the stream can fall into the body of its end-of-message
record, or it makes no difference: a record in front of it is refused, or that record
has no body, or no single read holds its header's last byte and all of its body, or
the stream ends before it does. -/
def CutSafe (stream : List UInt8) : Prop :=
  ∀ e, findEnd stream 0 = some e →
    RefusedEarlier stream ∨ recordLength stream e = 0 ∨
      chunkSize ≤ recordLength stream e ∨ stream.length < e + (4 + recordLength stream e)

theorem earlier_ok_of_not_refused {m : List UInt8} (h : ¬ RefusedEarlier m) :
    ∃ p, earlier m 0 {} = .ok p := by
  cases hearlier : earlier m 0 {} with
  | error err => exact absurd ⟨err, hearlier⟩ h
  | ok p => exact ⟨p, rfl⟩

/-- Appending to a complete message changes nothing if and only if its end has all
arrived or it is refused already. -/
theorem parseResponse_append_iff {m : List UInt8} (h : responseComplete m = true)
    (aead : UInt16) :
    (∀ s, parseResponse (m ++ s) aead = parseResponse m aead) ↔
      EndArrived m ∨ RefusedEarlier m := by
  obtain ⟨e, he⟩ := responseComplete_iff.mp h
  have hle := (findEnd_bounds he).2
  -- both messages are parts of the longer one, cut behind the header
  have hparts : ∀ s, ∀ b, e + 4 ≤ b → b ≤ (m ++ s).length →
      parseResponse ((m ++ s).take b) aead
        = conclude (u16At m (e + 2)) e b aead (earlier m 0 {}) := by
    intro s b hb hb'
    have hagree : m.take (e + 4) = (m ++ s).take (e + 4) :=
      (List.take_append_of_le_length hle).symm
    have hend := findEnd_append he s
    have hheader : e + 2 + 2 ≤ e + 4 := Nat.le_refl _
    rw [parseResponse_take hend hb hb', ← earlier_congr hend hagree, ← u16At_take hheader,
      ← hagree, u16At_take hheader]
  have hm : ∀ s, m.length ≤ (m ++ s).length := by
    intro s
    rw [List.length_append]
    omega
  constructor
  · intro hsame
    by_contra hnot
    rw [not_or] at hnot
    obtain ⟨p, hp⟩ := earlier_ok_of_not_refused hnot.2
    have hshort : m.length < e + (4 + recordLength m e) := by
      by_contra hlt
      refine hnot.1 fun e' he' => ?_
      rw [he] at he'
      cases he'
      omega
    -- supply the missing body
    let s : List UInt8 := List.replicate (e + (4 + recordLength m e)) 0
    have hlong : e + (4 + recordLength m e) ≤ (m ++ s).length := by
      rw [List.length_append, List.length_replicate]
      omega
    have hpart := hparts s m.length hle (hm s)
    have hall := hparts s (m ++ s).length (Nat.le_trans hle (hm s)) (Nat.le_refl _)
    rw [hp, List.take_left, conclude_short hshort] at hpart
    rw [hp, List.take_length, conclude_arrived hlong, hsame s, hpart] at hall
    exact agreement_ne_truncated p aead _ _ hall.symm
  · intro hcond s
    have hall := hparts s (m ++ s).length (Nat.le_trans hle (hm s)) (Nat.le_refl _)
    have hpart := hparts s m.length hle (hm s)
    rw [List.take_length] at hall
    rw [List.take_left] at hpart
    rw [hall, hpart]
    rcases hcond with harrived | ⟨err, herr⟩
    · have hfits := harrived e he
      cases earlier m 0 {} with
      | error err => rfl
      | ok p =>
        rw [conclude_arrived (Nat.le_trans hfits (hm s)), conclude_arrived hfits]
    · rw [herr, conclude_error, conclude_error]

/-- The outcome of a stream is the same for all cuts if and only if no cut can come
between the header and the end of its end-of-message record in one case and not in
another. -/
theorem outcome_cut_iff {stream : List UInt8} (hmax : stream.length ≤ maxKeResponse) :
    (∀ address chunks chunks', CutOf stream chunks → CutOf stream chunks' →
      outcome address chunks = outcome address chunks') ↔ CutSafe stream := by
  constructor
  · intro hsame e he
    by_contra hnot
    rw [not_or, not_or, not_or] at hnot
    obtain ⟨hrefused, hbody, hsize, hfits⟩ := hnot
    obtain ⟨p, hp⟩ := earlier_ok_of_not_refused hrefused
    have hroom := (findEnd_bounds he).2
    -- one cut stops right behind the header, another behind the body
    obtain ⟨chunks, hcut, hread⟩ := exists_cut "" hmax he (Nat.le_refl _)
      (Nat.lt_add_of_pos_right (by decide)) hroom
    obtain ⟨chunks', hcut', hread'⟩ :=
      exists_cut "" hmax he (show e + 4 ≤ e + (4 + recordLength stream e) by omega)
        (by omega) (Nat.le_of_not_lt hfits)
    have hequal := hsame "" chunks chunks' hcut hcut'
    rw [outcome, outcome, readAgreement_of_readLoop hread (findEnd_take he (by omega)),
      readAgreement_of_readLoop hread' (findEnd_take he (by omega)),
      parseResponse_take he (by omega) hroom, parseResponse_take he (by omega) (by omega),
      hp, conclude_short (by omega), conclude_arrived (Nat.le_refl _)] at hequal
    exact agreement_ne_truncated p _ _ _ hequal.symm
  · intro hsafe address chunks chunks' hcut hcut'
    cases hfind : findEnd stream 0 with
    | none =>
      rw [outcome_of_none address hmax hcut hfind, outcome_of_none address hmax hcut' hfind]
    | some e =>
      obtain ⟨b, hb, hb₁, hb₂, hout⟩ := outcome_of_findEnd address hmax hcut hfind
      obtain ⟨b', hb', hb₁', hb₂', hout'⟩ := outcome_of_findEnd address hmax hcut' hfind
      rw [hout, hout', parseResponse_take hfind hb hb₂, parseResponse_take hfind hb' hb₂']
      rcases hsafe e hfind with ⟨err, herr⟩ | hside
      · rw [herr, conclude_error, conclude_error]
      · -- both cuts stop on the same side of the body's end
        cases earlier stream 0 {} with
        | error err => rfl
        | ok p =>
          rcases Nat.lt_or_ge b (e + (4 + recordLength stream e)) with hlt | hge
          · rw [conclude_short hlt, conclude_short (by omega)]
          · rw [conclude_arrived hge, conclude_arrived (by omega)]

/-- **Completeness detection and the parser agree exactly when**: for a complete
message, no suffix changes what the parser says if and only if the end-of-message
record has arrived with its body or an earlier record is refused; an incomplete
message is always refused; and a stream of at most `MAX_KE_RESPONSE` bytes has the
same outcome for every way it is cut into reads if and only if it is `CutSafe`. -/
theorem completeness_agrees_iff (aead : UInt16) :
    (∀ m, responseComplete m = true →
      ((∀ s, parseResponse (m ++ s) aead = parseResponse m aead) ↔
        EndArrived m ∨ RefusedEarlier m)) ∧
    (∀ m, responseComplete m = false → ∃ err, parseResponse m aead = .error err) ∧
    ∀ stream, stream.length ≤ maxKeResponse →
      ((∀ address chunks chunks', CutOf stream chunks → CutOf stream chunks' →
        outcome address chunks = outcome address chunks') ↔ CutSafe stream) := by
  refine ⟨fun m h => parseResponse_append_iff h aead, fun m h => ?_,
    fun stream hmax => outcome_cut_iff hmax⟩
  cases hfind : findEnd m 0 with
  | none => exact parseResponse_of_incomplete hfind aead
  | some e =>
    rw [responseComplete_iff.mpr ⟨e, hfind⟩] at h
    cases h

/-- NTPv4, AES-SIV-CMAC-256 and one cookie, with an end-of-message record of the
given length still to be followed by its body. -/
def sampleRecords (length : UInt8) : List UInt8 :=
  [0x80, 1, 0, 2, 0, 0, 0x80, 4, 0, 2, 0, 15, 0, 5, 0, 1, 7, 0x80, 0, 0, length]

theorem completeness_agrees_iff_sample :
    (∀ s, parseResponse (sampleRecords 0 ++ s) aeadAesSivCmac256
        = .ok { aead := 15, cookies := [[7]], server := none, port := none }) ∧
      ∀ address chunks chunks', CutOf (sampleRecords 0) chunks →
        CutOf (sampleRecords 0) chunks' → outcome address chunks = outcome address chunks' := by
  obtain ⟨hcomplete, -, hcut⟩ := completeness_agrees_iff aeadAesSivCmac256
  have hend : findEnd (sampleRecords 0) 0 = some 17 := by decide +kernel
  have hparse : parseResponse (sampleRecords 0) aeadAesSivCmac256
      = .ok { aead := 15, cookies := [[7]], server := none, port := none } := by
    decide +kernel
  constructor
  · intro s
    rw [← hparse]
    refine (hcomplete (sampleRecords 0) (by decide +kernel)).mpr (.inl fun e he => ?_) s
    rw [hend] at he
    cases he
    decide +kernel
  · refine (hcut (sampleRecords 0) (by decide)).mpr fun e he => .inr (.inl ?_)
    rw [hend] at he
    cases he
    decide +kernel

/-- An end-of-message record with a body of one byte: its header alone counts as
complete and is refused, with the body the same message is an agreement, and which of
the two comes out depends on whether that byte came with the last read. -/
theorem completeness_misses_end_body :
    responseComplete (sampleRecords 1) = true ∧
      parseResponse (sampleRecords 1 ++ [0]) aeadAesSivCmac256
        ≠ parseResponse (sampleRecords 1) aeadAesSivCmac256 ∧
      CutOf (sampleRecords 1 ++ [0]) [sampleRecords 1, [0]] ∧
      CutOf (sampleRecords 1 ++ [0]) [sampleRecords 1 ++ [0]] ∧
      outcome "192.0.2.1" [sampleRecords 1, [0]]
        ≠ outcome "192.0.2.1" [sampleRecords 1 ++ [0]] := by
  refine ⟨by decide +kernel, by decide +kernel, ⟨by decide, by decide⟩, ⟨by decide, by decide⟩,
    by decide +kernel⟩

end HostServices.TimeCorrection.Nts
