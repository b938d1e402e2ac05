import HostServices.Lib.Bytes
import HostServices.Lib.Fallible
import Mathlib.Algebra.Group.Int.Defs

/-!
# One authenticated NTP answer (`time-correction/src/ntp.rs`)

A response is a 48-byte header and a sequence of extension fields, one of which
authenticates everything in front of it. The fields are whatever a sender put
there; the code takes the first of each kind.

- `extensionFields`, `parseResponse`, `transmitTimestamp`: the source's functions,
  over an arbitrary `siv` in place of AES-SIV decryption;
- `Tiles`, `extensionFields_eq_ok`: what a sequence of fields is;
- `parseResponse_authentic`: what an accepted answer is backed by.
-/

namespace HostServices.TimeCorrection.Ntp

open HostServices.Lib

/-- Seconds between the NTP epoch (1900-01-01) and the Unix epoch. -/
def ntpToUnix : Int64 := 2208988800

def efUniqueIdentifier : UInt16 := 0x0104
def efAuthenticator : UInt16 := 0x0404

/-- `HEADER_LENGTH` -/
def headerLength : Nat := 48

/-- An extension field: its kind, and where its body starts and ends. -/
structure Field where
  kind : UInt16
  start : Nat
  stop : Nat
  deriving DecidableEq, Repr

/-- The walk over the extension fields, from an offset on. -/
def extensionFieldsFrom (packet : List UInt8) (offset : Nat) : Except String (List Field) :=
  if offset + 4 ≤ packet.length then
    let kind := u16At packet offset
    let length := (u16At packet (offset + 2)).toNat
    if _h : length < 4 ∨ length % 4 ≠ 0 then
      .error s!"extension field at {offset} has invalid length {length}"
    else if packet.length < offset + length then
      .error s!"extension field at {offset} runs past the packet"
    else
      match extensionFieldsFrom packet (offset + length) with
      | .error e => .error e
      | .ok found => .ok (⟨kind, offset + 4, offset + length⟩ :: found)
  else .ok []
termination_by packet.length - offset
decreasing_by
  have : length = (u16At packet (offset + 2)).toNat := rfl
  omega

/-- Walk the extension fields following the fixed header. -/
def extensionFields (packet : List UInt8) : Except String (List Field) :=
  extensionFieldsFrom packet headerLength

/-- The transmit timestamp from the fixed header, as Unix seconds: values below the
1968 pivot belong to the next era. -/
def transmitTimestamp (packet : List UInt8) : Except String Int64 :=
  match slice packet 40 44 with
  | none => .error "packet has no transmit timestamp"
  | some bytes =>
    let era0 := beNat bytes
    if era0 = 0 then .error "server sent a zero transmit timestamp"
    else if 2147483648 ≤ era0 then .ok (Int64.ofNat era0 - ntpToUnix)
    else .ok (Int64.ofNat era0 + 4294967296 - ntpToUnix)

/-- What is required of the fixed header. -/
def checkHeader (packet : List UInt8) : Except String Unit :=
  let mode := packet.getD 0 0 &&& 0x07
  if packet.length < headerLength then
    .error s!"response is {packet.length} bytes, shorter than a header"
  else if mode ≠ 4 then .error s!"response mode is {mode}, not server"
  else if packet.getD 0 0 >>> 6 = 3 then .error "server reports an unsynchronised clock"
  else if packet.getD 1 0 = 0 then .error "server returned a kiss-of-death packet"
  else .ok ()

/-- `div_ceil(4) * 4`. -/
def padded (n : Nat) : Nat := (n + 3) / 4 * 4

/-- The nonce and the ciphertext in the body of an authenticator. -/
def authenticatorParts (body : List UInt8) : Except String (List UInt8 × List UInt8) :=
  if body.length < 4 then .error "authenticator field is too short"
  else
    let nonceLength := (u16At body 0).toNat
    let cipherLength := (u16At body 2).toNat
    let cipherStart := 4 + padded nonceLength
    match slice body 4 (4 + nonceLength) with
    | none => .error "authenticator nonce runs past the field"
    | some nonce =>
      match slice body cipherStart (cipherStart + cipherLength) with
      | none => .error "authenticator ciphertext runs past the field"
      | some ciphertext => .ok (nonce, ciphertext)

/-- Verify a response and return the server's transmit timestamp as Unix seconds.
`siv key associated nonce ciphertext` says whether decryption succeeds. -/
def parseResponse (siv : List UInt8 → List UInt8 → List UInt8 → List UInt8 → Bool)
    (packet s2c expectedUniqueId : List UInt8) : Except String Int64 := do
  checkHeader packet
  let fields ← extensionFields packet
  match fields.find? (·.kind = efAuthenticator) with
  | none => .error "response is not authenticated"
  | some auth =>
    match fields.find? (·.kind = efUniqueIdentifier) with
    | none => .error "response carries no unique identifier"
    | some unique =>
      if auth.start < unique.stop then
        .error "response unique identifier is not covered by the authenticator"
      else if slice packet unique.start unique.stop ≠ some expectedUniqueId then
        .error "response unique identifier does not match the request"
      else do
        let (nonce, ciphertext) ←
          authenticatorParts ((packet.drop auth.start).take (auth.stop - auth.start))
        if s2c.length ≠ 32 then .error s!"S2C key is {s2c.length} bytes, not 32"
        else if siv s2c (packet.take (auth.start - 4)) nonce ciphertext then
          transmitTimestamp packet
        else .error "the response failed authentication"

/-! ## What a sequence of fields is -/

/-- The field `f` stands at `offset`: a header of four bytes with a length that is
a multiple of four, and all of the body inside the packet. -/
structure FieldAt (packet : List UInt8) (offset : Nat) (f : Field) : Prop where
  kind : f.kind = u16At packet offset
  start : f.start = offset + 4
  stop : f.stop = offset + (u16At packet (offset + 2)).toNat
  start_le_stop : f.start ≤ f.stop
  aligned : (u16At packet (offset + 2)).toNat % 4 = 0
  fits : f.stop ≤ packet.length

/-- The fields follow each other from `offset` on until no header fits any more. -/
def Tiles (packet : List UInt8) : Nat → List Field → Prop
  | offset, [] => packet.length < offset + 4
  | offset, f :: fields => FieldAt packet offset f ∧ Tiles packet f.stop fields

/-- An accepted walk is a tiling, and every tiling is found. -/
theorem tiles_of_ok {packet : List UInt8} {offset : Nat} {fields : List Field}
    (h : extensionFieldsFrom packet offset = .ok fields) : Tiles packet offset fields := by
  fun_induction extensionFieldsFrom packet offset generalizing fields with
  | case1 => cases h
  | case2 => cases h
  | case3 => cases h
  | case4 offset hroom kind length hlen hfits found hfound =>
    rename_i ih
    cases h
    refine ⟨⟨rfl, rfl, rfl, ?_, ?_, ?_⟩, ih hfound⟩
    · show offset + 4 ≤ offset + length
      omega
    · show length % 4 = 0
      omega
    · show offset + length ≤ packet.length
      omega
  | case5 offset hroom =>
    cases h
    show packet.length < offset + 4
    omega

/-- A tiling is read as such. -/
theorem ok_of_tiles {packet : List UInt8} {offset : Nat} {fields : List Field}
    (h : Tiles packet offset fields) : extensionFieldsFrom packet offset = .ok fields := by
  induction fields generalizing offset with
  | nil =>
    rw [extensionFieldsFrom, if_neg (Nat.not_le_of_lt h)]
  | cons f fields ih =>
    obtain ⟨hf, hrest⟩ := h
    have hstart := hf.start
    have hstop := hf.stop
    have hle := hf.start_le_stop
    have hfits := hf.fits
    rw [extensionFieldsFrom, if_pos (by omega)]
    dsimp only
    rw [dif_neg (by have := hf.aligned; omega), if_neg (by omega), ← hstop, ih hrest]
    dsimp only
    rw [← hf.kind, ← hstart]

/-- What the source's loop returns is the tiling of the packet behind its header. -/
theorem extensionFields_eq_ok {packet : List UInt8} {fields : List Field} :
    extensionFields packet = .ok fields ↔ Tiles packet headerLength fields :=
  ⟨tiles_of_ok, ok_of_tiles⟩

/-- A field of a tiling begins behind its header. -/
theorem Tiles.le_start {packet : List UInt8} {offset : Nat} {fields : List Field}
    (h : Tiles packet offset fields) {f : Field} (hf : f ∈ fields) :
    offset + 4 ≤ f.start ∧ f.start ≤ f.stop := by
  induction fields generalizing offset with
  | nil => cases hf
  | cons g fields ih =>
    obtain ⟨hg, hrest⟩ := h
    have hstart := hg.start
    have hle := hg.start_le_stop
    rcases List.mem_cons.mp hf with rfl | hf
    · omega
    · obtain ⟨h₁, h₂⟩ := ih hrest hf
      omega

/-- A field of a packet ends within it. -/
theorem Tiles.stop_le {packet : List UInt8} {offset : Nat} {fields : List Field}
    (h : Tiles packet offset fields) {f : Field} (hf : f ∈ fields) :
    f.stop ≤ packet.length := by
  induction fields generalizing offset with
  | nil => cases hf
  | cons g fields ih =>
    rcases List.mem_cons.mp hf with rfl | hf
    · exact h.1.fits
    · exact ih h.2 hf

/-- **A tiling cut at a field**: the bytes in front of the field are tiled by the
fields in front of it. -/
theorem Tiles.split {packet : List UInt8} {offset : Nat} {pre post : List Field} {f : Field}
    (h : Tiles packet offset (pre ++ f :: post)) :
    ∃ at_, offset ≤ at_ ∧ FieldAt packet at_ f ∧ Tiles packet f.stop post ∧
      Tiles (packet.take at_) offset pre := by
  induction pre generalizing offset with
  | nil =>
    refine ⟨offset, Nat.le_refl _, h.1, h.2, ?_⟩
    show (packet.take offset).length < offset + 4
    rw [List.length_take]
    omega
  | cons g pre ih =>
    obtain ⟨hg, hrest⟩ := h
    obtain ⟨at_, hle, hf, hpost, hpre⟩ := ih hrest
    have hstart := hg.start
    have hstop := hg.stop
    have hgle := hg.start_le_stop
    have hroom : at_ ≤ packet.length := by
      have h₁ := hf.start
      have h₂ := hf.start_le_stop
      have h₃ := hf.fits
      omega
    refine ⟨at_, by omega, hf, hpost, ⟨?_, hstart, ?_, hgle, ?_, ?_⟩, hpre⟩
    · rw [u16At_take (by omega)]
      exact hg.kind
    · rw [u16At_take (by omega)]
      exact hstop
    · rw [u16At_take (by omega)]
      exact hg.aligned
    · rw [List.length_take]
      omega

/-! ## The timestamp -/

/-- The Unix second that a 32-bit NTP second of era 0 or 1 stands for. -/
def eraSeconds (era0 : Nat) : Int :=
  if 2 ^ 31 ≤ era0 then era0 - 2208988800 else era0 + 2 ^ 32 - 2208988800

/-- Where the timestamp stands, and the second it means. -/
theorem transmitTimestamp_ok {packet : List UInt8} {t : Int64}
    (h : transmitTimestamp packet = .ok t) :
    ∃ bytes, slice packet 40 44 = some bytes ∧ beNat bytes ≠ 0 ∧
      t.toInt = eraSeconds (beNat bytes) := by
  unfold transmitTimestamp at h
  cases hbytes : slice packet 40 44 with
  | none => rw [hbytes] at h; cases h
  | some bytes =>
    rw [hbytes] at h
    dsimp only at h
    have hlt : beNat bytes < 2 ^ 32 := by
      have := beNat_lt bytes
      rwa [length_of_slice hbytes] at this
    have hof : (Int64.ofNat (beNat bytes)).toInt = beNat bytes :=
      Int64.toInt_ofNat_of_lt (by omega)
    have hntp : ntpToUnix.toInt = 2208988800 := by decide
    refine ⟨bytes, rfl, ?_⟩
    split_ifs at h with hzero hera
    · obtain rfl := Except.ok.inj h
      refine ⟨hzero, ?_⟩
      rw [eraSeconds, if_pos (by omega), Int64.toInt_sub, hof, hntp]
      exact Int.bmod_eq_of_le (by omega) (by omega)
    · obtain rfl := Except.ok.inj h
      refine ⟨hzero, ?_⟩
      have hadd : (Int64.ofNat (beNat bytes) + 4294967296).toInt = beNat bytes + 4294967296 := by
        rw [Int64.toInt_add, hof]
        exact Int.bmod_eq_of_le (by show _ ≤ _ + (4294967296 : Int); omega)
          (by show _ + (4294967296 : Int) < _; omega)
      rw [eraSeconds, if_neg (by omega), Int64.toInt_sub, hadd, hntp]
      exact Int.bmod_eq_of_le (by omega) (by omega)

/-! ## What an accepted answer is backed by -/

/-- What the header says of a packet that passes. -/
theorem checkHeader_ok {packet : List UInt8} (h : checkHeader packet = .ok ()) :
    headerLength ≤ packet.length ∧ packet.getD 0 0 &&& 0x07 = 4 ∧
      packet.getD 0 0 >>> 6 ≠ 3 ∧ packet.getD 1 0 ≠ 0 := by
  unfold checkHeader at h
  dsimp only at h
  split_ifs at h with hlen hmode hleap hstratum
  exact ⟨Nat.le_of_not_lt hlen, not_not.mp hmode, hleap, hstratum⟩

/-- The body of an authenticator carries this nonce and this ciphertext: two 16-bit
lengths, the nonce with its padding, the ciphertext. -/
structure Carries (body nonce ciphertext : List UInt8) : Prop where
  lengths : 4 ≤ body.length
  nonce : slice body 4 (4 + (u16At body 0).toNat) = some nonce
  ciphertext : slice body (4 + padded (u16At body 0).toNat)
    (4 + padded (u16At body 0).toNat + (u16At body 2).toNat) = some ciphertext

/-- What the authenticator carries. -/
theorem authenticatorParts_ok {body nonce ciphertext : List UInt8}
    (h : authenticatorParts body = .ok (nonce, ciphertext)) :
    Carries body nonce ciphertext := by
  unfold authenticatorParts at h
  dsimp only at h
  split_ifs at h with hlen
  cases hnonce : slice body 4 (4 + (u16At body 0).toNat) with
  | none => rw [hnonce] at h; cases h
  | some n =>
    rw [hnonce] at h
    dsimp only at h
    split at h
    · cases h
    · rename_i hcipher
      cases h
      exact ⟨Nat.le_of_not_lt hlen, hnonce, hcipher⟩

/-- The steps of an accepting `parseResponse`. -/
structure Accepted (siv : List UInt8 → List UInt8 → List UInt8 → List UInt8 → Bool)
    (packet s2c expected : List UInt8) (t : Int64) (fields : List Field)
    (auth unique : Field) : Prop where
  header_ok : checkHeader packet = .ok ()
  fields_ok : extensionFields packet = .ok fields
  auth_found : fields.find? (·.kind = efAuthenticator) = some auth
  unique_found : fields.find? (·.kind = efUniqueIdentifier) = some unique
  covered : unique.stop ≤ auth.start
  matching : slice packet unique.start unique.stop = some expected
  decrypted : ∃ nonce ciphertext,
    Carries ((packet.drop auth.start).take (auth.stop - auth.start)) nonce ciphertext ∧
      siv s2c (packet.take (auth.start - 4)) nonce ciphertext = true
  timestamp : transmitTimestamp packet = .ok t

/-- **What stands behind a time that was accepted.** -/
theorem parseResponse_ok
    {siv : List UInt8 → List UInt8 → List UInt8 → List UInt8 → Bool}
    {packet s2c expected : List UInt8} {t : Int64}
    (h : parseResponse siv packet s2c expected = .ok t) :
    ∃ fields auth unique, Accepted siv packet s2c expected t fields auth unique := by
  obtain ⟨⟨⟩, hheader, h⟩ := bind_eq_ok.mp h
  obtain ⟨fields, hfields, h⟩ := bind_eq_ok.mp h
  cases hauth : fields.find? (·.kind = efAuthenticator) with
  | none => rw [hauth] at h; cases h
  | some auth =>
    cases hunique : fields.find? (·.kind = efUniqueIdentifier) with
    | none => rw [hauth, hunique] at h; cases h
    | some unique =>
      rw [hauth, hunique] at h
      dsimp only at h
      split at h
      · cases h
      · rename_i hcovered
        split at h
        · cases h
        · rename_i hmatch
          obtain ⟨⟨nonce, ciphertext⟩, hparts, h⟩ := bind_eq_ok.mp h
          dsimp only at h
          split_ifs at h with hkey hsiv
          exact ⟨fields, auth, unique, hheader, hfields, hauth, hunique,
            Nat.le_of_not_lt hcovered, not_not.mp hmatch,
            ⟨nonce, ciphertext, authenticatorParts_ok hparts, hsiv⟩, h⟩

/-- **Authenticity of an answer**: an accepted packet has a first authenticator
field; the bytes `covered` in front of its header, with the nonce and ciphertext it
carries, decrypt; they hold the header with its mode, leap indicator and stratum, a
complete unique identifier field with the expected body, and the timestamp that is
returned. Any other packet that agrees with this one up to the end of that field
and is accepted yields the same time. -/
theorem parseResponse_authentic
    {siv : List UInt8 → List UInt8 → List UInt8 → List UInt8 → Bool}
    {packet s2c expected : List UInt8} {t : Int64}
    (h : parseResponse siv packet s2c expected = .ok t) :
    ∃ pre auth post covered,
      extensionFields packet = .ok (pre ++ auth :: post) ∧
      auth.kind = efAuthenticator ∧ (∀ f ∈ pre, f.kind ≠ efAuthenticator) ∧
      covered = packet.take (auth.start - 4) ∧ covered.length + 4 = auth.start ∧
      48 ≤ covered.length ∧
      (∃ body nonce ciphertext, slice packet auth.start auth.stop = some body ∧
        Carries body nonce ciphertext ∧ siv s2c covered nonce ciphertext = true) ∧
      (∃ fields unique, extensionFields covered = .ok fields ∧ unique ∈ fields ∧
        unique.kind = efUniqueIdentifier ∧
        slice covered unique.start unique.stop = some expected) ∧
      (covered.getD 0 0 &&& 0x07 = 4 ∧ covered.getD 0 0 >>> 6 ≠ 3 ∧
        covered.getD 1 0 ≠ 0) ∧
      (∃ bytes, slice covered 40 44 = some bytes ∧ beNat bytes ≠ 0 ∧
        t.toInt = eraSeconds (beNat bytes)) ∧
      ∀ siv' packet' s2c' expected' t', packet'.take auth.stop = packet.take auth.stop →
        parseResponse siv' packet' s2c' expected' = .ok t' → t' = t := by
  obtain ⟨fields, auth, unique, hacc⟩ := parseResponse_ok h
  obtain ⟨hkind, pre, post, rfl, hfirst⟩ := List.find?_eq_some_iff_append.mp hacc.auth_found
  have htiles := extensionFields_eq_ok.mp hacc.fields_ok
  obtain ⟨at_, hat, hauth, hpost, hpre⟩ := htiles.split
  have hstart := hauth.start
  have hle := hauth.start_le_stop
  have hfits := hauth.fits
  have hat' : auth.start - 4 = at_ := by omega
  have hlen : (packet.take at_).length = at_ := by
    rw [List.length_take]
    omega
  have h48 : 48 ≤ at_ := hat
  refine ⟨pre, auth, post, packet.take at_, hacc.fields_ok, by simpa using hkind, ?_,
    by rw [hat'], by omega, by omega, ?_, ?_, ?_, ?_, ?_⟩
  · intro f hf
    simpa using hfirst f hf
  · obtain ⟨nonce, ciphertext, hcarries, hsiv⟩ := hacc.decrypted
    rw [hat'] at hsiv
    exact ⟨_, nonce, ciphertext, slice_of_le hle hfits, hcarries, hsiv⟩
  · -- the identifier is none of the authenticator and what follows it
    obtain ⟨hukind, upre, upost, husplit, -⟩ := List.find?_eq_some_iff_append.mp hacc.unique_found
    have humem : unique ∈ pre ++ auth :: post := by
      rw [husplit]
      exact List.mem_append_right _ List.mem_cons_self
    have hupre : unique ∈ pre := by
      rcases List.mem_append.mp humem with hmem | hmem
      · exact hmem
      · exfalso
        have hcov := hacc.covered
        rcases List.mem_cons.mp hmem with rfl | hmem
        · simp only [decide_eq_true_eq] at hkind hukind
          rw [hkind] at hukind
          exact absurd hukind (by decide)
        · have := hpost.le_start hmem
          omega
    refine ⟨pre, unique, extensionFields_eq_ok.mpr hpre, hupre, by simpa using hukind, ?_⟩
    have hstop : unique.stop ≤ at_ := hlen ▸ hpre.stop_le hupre
    rw [slice_take hstop]
    exact hacc.matching
  · obtain ⟨-, hmode, hleap, hstratum⟩ := checkHeader_ok hacc.header_ok
    rw [getD_take (by omega), getD_take (by omega)]
    exact ⟨hmode, hleap, hstratum⟩
  · rw [slice_take (by omega)]
    exact transmitTimestamp_ok hacc.timestamp
  · intro siv' packet' s2c' expected' t' hagree h'
    obtain ⟨_, _, _, hacc'⟩ := parseResponse_ok h'
    obtain ⟨bytes, hbytes, -, ht⟩ := transmitTimestamp_ok hacc.timestamp
    obtain ⟨bytes', hbytes', -, ht'⟩ := transmitTimestamp_ok hacc'.timestamp
    have h44 : 44 ≤ auth.stop := by omega
    rw [← slice_take h44, hagree, slice_take h44, hbytes] at hbytes'
    cases hbytes'
    rw [← Int64.toInt_inj, ht, ht']

/-- The header and the echoed identifier of an answer sent at second 1800000000. -/
def sampleCovered : List UInt8 :=
  [0x24, 3] ++ List.replicate 38 0 ++ [238, 244, 80, 128] ++ List.replicate 4 0 ++
    [1, 4, 0, 36] ++ List.replicate 32 3

/-- The tag AES-SIV-CMAC-256 gives it under the key of 32 nines and the nonce of 16
fives. -/
def sampleTag : List UInt8 :=
  [96, 78, 31, 218, 10, 106, 139, 17, 17, 89, 70, 135, 224, 76, 61, 207]

/-- Decryption, as far as that one ciphertext is concerned. -/
def sampleSiv (key associated nonce ciphertext : List UInt8) : Bool :=
  key == List.replicate 32 9 && associated == sampleCovered &&
    nonce == List.replicate 16 5 && ciphertext == sampleTag

/-- An answer with its identifier and its authenticator. -/
def samplePacket : List UInt8 :=
  sampleCovered ++ [4, 4, 0, 40, 0, 16, 0, 16] ++ List.replicate 16 5 ++ sampleTag

theorem parseResponse_authentic_sample :
    parseResponse sampleSiv samplePacket (List.replicate 32 9) (List.replicate 32 3)
        = .ok 1800000000 ∧
      ∀ appended t, parseResponse sampleSiv (samplePacket ++ appended) (List.replicate 32 9)
        (List.replicate 32 3) = .ok t → t = 1800000000 := by
  have hok : parseResponse sampleSiv samplePacket (List.replicate 32 9) (List.replicate 32 3)
      = .ok 1800000000 := by
    decide +kernel
  refine ⟨hok, fun appended t ht => ?_⟩
  obtain ⟨_, auth, _, _, -, -, -, -, -, -, ⟨_, _, _, hbody, -⟩, -, -, -, hsame⟩ :=
    parseResponse_authentic hok
  refine hsame _ _ _ _ _ ?_ ht
  exact List.take_append_of_le_length (slice_eq_some.mp hbody).2.1

end HostServices.TimeCorrection.Ntp
