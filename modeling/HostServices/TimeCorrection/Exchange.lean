import HostServices.TimeCorrection.Ntp
import HostServices.TimeCorrection.KeyExchange

/-!
# The packets of an NTP exchange (`time-correction/src/ntp.rs`)

The code writes extension fields for its request and walks over those of the answer.
Writing pads every body to four bytes and puts the padded length into 16 bits, which
wraps for bodies that are too long.

- `extensionField`, `buildRequest`: the source's functions, over an arbitrary `encrypt`
  in place of AES-SIV;
- `layout`, `tiles_encodeFields`: the walk over fields that were written finds each of
  them, as long as no length wrapped;
- `cookie_length_le`, `buildRequest_fields`: a cookie of an accepted key establishment
  response is short enough for that;
- `serverResponse`, `parseResponse_serverResponse`: what a server sends is what is read.
-/

namespace HostServices.TimeCorrection.Ntp

open HostServices.Lib

/-! ## The code -/

def efCookie : UInt16 := 0x0204

def uniqueIdLength : Nat := 32
def nonceLength : Nat := 16

/-- An extension field, padded to a four-byte boundary. -/
def extensionField (kind : UInt16) (body : List UInt8) : List UInt8 :=
  u16Bytes kind ++ u16Bytes (UInt16.ofNat (4 + padded body.length)) ++ body ++
    List.replicate (padded body.length - body.length) 0

/-- `Request`: the packet, and the identifier that the answer has to repeat. -/
structure Request where
  packet : List UInt8
  uniqueId : List UInt8
  deriving DecidableEq, Repr

/-- The body of the request's authenticator. The nonce has its full length, which is a
multiple of four, so there is nothing to pad between it and the ciphertext. -/
def requestAuthenticator (nonce ciphertext : List UInt8) : List UInt8 :=
  u16Bytes (UInt16.ofNat nonceLength) ++ u16Bytes (UInt16.ofNat ciphertext.length) ++ nonce ++
    ciphertext

/-- Build an authenticated client request for one cookie. `encrypt key associated nonce
plaintext` is the ciphertext, if there is one. -/
def buildRequest
    (encrypt : List UInt8 → List UInt8 → List UInt8 → List UInt8 → Option (List UInt8))
    (cookie c2s uniqueId nonce : List UInt8) : Except String Request :=
  -- LI = 0, VN = 4, Mode = 3 (client)
  let packet := (0x23 :: List.replicate (headerLength - 1) 0) ++
    extensionField efUniqueIdentifier uniqueId ++ extensionField efCookie cookie
  if c2s.length ≠ 32 then .error s!"C2S key is {c2s.length} bytes, not 32"
  else
    match encrypt c2s packet nonce [] with
    | none => .error "could not authenticate the request"
    | some ciphertext =>
      .ok { packet := packet ++
              extensionField efAuthenticator (requestAuthenticator nonce ciphertext)
            uniqueId := uniqueId }

/-! ## Fields that were written are found -/

/-- The 16-bit length of a field with this body does not wrap. -/
def FieldFits (body : List UInt8) : Prop := 4 + padded body.length < 2 ^ 16

instance decidableFieldFits (body : List UInt8) : Decidable (FieldFits body) :=
  inferInstanceAs (Decidable (4 + padded body.length < 2 ^ 16))

theorem le_padded (n : Nat) : n ≤ padded n := by
  rw [padded]
  omega

theorem padded_lt (n : Nat) : padded n < n + 4 := by
  rw [padded]
  omega

theorem padded_mod (n : Nat) : padded n % 4 = 0 := by
  rw [padded]
  omega

@[simp] theorem length_extensionField (kind : UInt16) (body : List UInt8) :
    (extensionField kind body).length = 4 + padded body.length := by
  have hle := le_padded body.length
  simp only [extensionField, List.length_append, length_u16Bytes, List.length_replicate]
  omega

/-- The body of a field as it stands in the packet, with its padding. -/
def paddedBody (body : List UInt8) : List UInt8 :=
  body ++ List.replicate (padded body.length - body.length) 0

theorem length_paddedBody (body : List UInt8) : (paddedBody body).length = padded body.length := by
  have hle := le_padded body.length
  rw [paddedBody, List.length_append, List.length_replicate]
  omega

theorem paddedBody_of_aligned {body : List UInt8} (h : body.length % 4 = 0) :
    paddedBody body = body := by
  have hzero : padded body.length - body.length = 0 := by
    rw [padded]
    omega
  rw [paddedBody, hzero, List.replicate_zero, List.append_nil]

theorem extensionField_eq (kind : UInt16) (body : List UInt8) :
    extensionField kind body =
      (u16Bytes kind ++ u16Bytes (UInt16.ofNat (4 + padded body.length))) ++ paddedBody body := by
  rw [extensionField, paddedBody, List.append_assoc]

/-- An extension field is found where it stands. -/
theorem fieldAt_extensionField (before rest : List UInt8) (kind : UInt16) {body : List UInt8}
    (hfits : FieldFits body) :
    FieldAt (before ++ (extensionField kind body ++ rest)) before.length
      ⟨kind, before.length + 4, before.length + (4 + padded body.length)⟩ := by
  have hkind : u16At (before ++ (extensionField kind body ++ rest)) before.length = kind := by
    have hread := u16At_append before (extensionField kind body ++ rest) 0
    rw [Nat.add_zero] at hread
    rw [hread, extensionField]
    simp only [List.append_assoc]
    exact u16At_u16Bytes _ _
  have hlength : (u16At (before ++ (extensionField kind body ++ rest))
      (before.length + 2)).toNat = 4 + padded body.length := by
    rw [u16At_append, extensionField]
    simp only [List.append_assoc]
    have hread := u16At_append (u16Bytes kind) (u16Bytes (UInt16.ofNat (4 + padded body.length)) ++
      (body ++ (List.replicate (padded body.length - body.length) 0 ++ rest))) 0
    rw [length_u16Bytes, u16At_u16Bytes] at hread
    rw [hread]
    exact UInt16.toNat_ofNat_of_lt' hfits
  refine ⟨hkind.symm, rfl, ?_, ?_, ?_, ?_⟩
  · show before.length + (4 + padded body.length) = _
    rw [hlength]
  · show before.length + 4 ≤ before.length + (4 + padded body.length)
    omega
  · rw [hlength]
    have hmod := padded_mod body.length
    omega
  · show before.length + (4 + padded body.length) ≤ _
    rw [List.length_append, List.length_append, length_extensionField]
    omega

/-- What stands between the start and the stop of a field that was written. -/
theorem slice_extensionField (before rest : List UInt8) (kind : UInt16) (body : List UInt8) :
    slice (before ++ (extensionField kind body ++ rest)) (before.length + 4)
      (before.length + (4 + padded body.length)) = some (paddedBody body) := by
  let front := before ++ (u16Bytes kind ++ u16Bytes (UInt16.ofNat (4 + padded body.length)))
  have hfront : front.length = before.length + 4 := by
    show (before ++ _).length = _
    rw [List.length_append]
    rfl
  have hsplit : before ++ (extensionField kind body ++ rest) =
      front ++ (paddedBody body ++ rest) := by
    rw [extensionField_eq]
    simp only [front, List.append_assoc]
  have hslice := slice_append_middle front (paddedBody body) rest
  rw [hfront, length_paddedBody] at hslice
  rw [hsplit, ← hslice, Nat.add_assoc]

/-- The fields with these kinds and bodies, one after the other. -/
def encodeFields : List (UInt16 × List UInt8) → List UInt8
  | [] => []
  | (kind, body) :: fields => extensionField kind body ++ encodeFields fields

/-- Where they stand when the first one is written at `offset`. -/
def layout : Nat → List (UInt16 × List UInt8) → List Field
  | _, [] => []
  | offset, (kind, body) :: fields =>
    ⟨kind, offset + 4, offset + (4 + padded body.length)⟩ ::
      layout (offset + (4 + padded body.length)) fields

theorem encodeFields_append (fields fields' : List (UInt16 × List UInt8)) :
    encodeFields (fields ++ fields') = encodeFields fields ++ encodeFields fields' := by
  induction fields with
  | nil => rfl
  | cons f fields ih => rw [List.cons_append, encodeFields, encodeFields, ih, List.append_assoc]

theorem layout_append (offset : Nat) (fields fields' : List (UInt16 × List UInt8)) :
    layout offset (fields ++ fields') =
      layout offset fields ++ layout (offset + (encodeFields fields).length) fields' := by
  induction fields generalizing offset with
  | nil => rfl
  | cons f fields ih =>
    rw [List.cons_append, layout, layout, ih, encodeFields, List.length_append,
      length_extensionField, List.cons_append, Nat.add_assoc offset]

theorem kind_of_mem_layout {offset : Nat} {fields : List (UInt16 × List UInt8)} {f : Field}
    (h : f ∈ layout offset fields) : ∃ g ∈ fields, g.1 = f.kind := by
  induction fields generalizing offset with
  | nil => cases h
  | cons g fields ih =>
    rcases List.mem_cons.mp h with rfl | h
    · exact ⟨g, List.mem_cons_self, rfl⟩
    · obtain ⟨g', hg', hkind⟩ := ih h
      exact ⟨g', List.mem_cons_of_mem g hg', hkind⟩

/-- **The walk over fields that were written** finds each of them and ends with the
packet. -/
theorem tiles_encodeFields (before : List UInt8) {fields : List (UInt16 × List UInt8)}
    (hfits : ∀ f ∈ fields, FieldFits f.2) :
    Tiles (before ++ encodeFields fields) before.length (layout before.length fields) := by
  induction fields generalizing before with
  | nil =>
    show (before ++ []).length < before.length + 4
    rw [List.append_nil]
    omega
  | cons f fields ih =>
    obtain ⟨kind, body⟩ := f
    rw [List.forall_mem_cons] at hfits
    refine ⟨fieldAt_extensionField before (encodeFields fields) kind hfits.1, ?_⟩
    -- the rest is written behind the first field
    have hrest := ih (before ++ extensionField kind body) hfits.2
    rw [List.length_append, length_extensionField, List.append_assoc] at hrest
    exact hrest

/-- What stands between the start and the stop of one of them. -/
theorem slice_encodeFields {before : List UInt8} (front : List (UInt16 × List UInt8))
    {offset : Nat} (hoffset : (before ++ encodeFields front).length = offset) (kind : UInt16)
    (body : List UInt8) (back : List (UInt16 × List UInt8)) :
    slice (before ++ encodeFields (front ++ (kind, body) :: back)) (offset + 4)
      (offset + (4 + padded body.length)) = some (paddedBody body) := by
  rw [encodeFields_append, encodeFields, ← List.append_assoc, ← hoffset]
  exact slice_extensionField _ _ _ _

/-! ## The request -/

/-- The fixed header of a request. -/
def requestHeader : List UInt8 := 0x23 :: List.replicate (headerLength - 1) 0

theorem length_requestHeader : requestHeader.length = headerLength := by
  rw [requestHeader, List.length_cons, List.length_replicate]
  rfl

/-- What `buildRequest` gives when the key has the right size. -/
theorem buildRequest_eq
    {encrypt : List UInt8 → List UInt8 → List UInt8 → List UInt8 → Option (List UInt8)}
    {cookie c2s uniqueId nonce tag : List UInt8} (hkey : c2s.length = 32)
    (htag : encrypt c2s (requestHeader ++ extensionField efUniqueIdentifier uniqueId ++
      extensionField efCookie cookie) nonce [] = some tag) :
    buildRequest encrypt cookie c2s uniqueId nonce =
      .ok { packet := requestHeader ++ encodeFields
              [(efUniqueIdentifier, uniqueId), (efCookie, cookie),
                (efAuthenticator, requestAuthenticator nonce tag)]
            uniqueId := uniqueId } := by
  rw [requestHeader] at htag
  rw [buildRequest, if_neg (not_not.mpr hkey), htag]
  simp only [encodeFields, requestHeader, List.append_assoc, List.append_nil]

theorem length_requestAuthenticator (nonce ciphertext : List UInt8) :
    (requestAuthenticator nonce ciphertext).length = 4 + nonce.length + ciphertext.length := by
  simp only [requestAuthenticator, List.length_append, length_u16Bytes]

/-- **No length is cut off in a request**: for a cookie that a key establishment response
within the limit was accepted with, none of the three lengths wraps, and the walk over
the packet finds the three fields, one right after the other up to its end. Of AES-SIV
it is used that under a key of 32 bytes the ciphertext of nothing is the 16-byte tag. -/
theorem buildRequest_fields
    {encrypt : List UInt8 → List UInt8 → List UInt8 → List UInt8 → Option (List UInt8)}
    (hsiv : ∀ key associated nonce, key.length = 32 →
      ∃ tag, encrypt key associated nonce [] = some tag ∧ tag.length = 16)
    {message : List UInt8} {aead : UInt16} {agreement : Nts.Agreement}
    (hmax : message.length ≤ Nts.maxKeResponse)
    (hparse : Nts.parseResponse message aead = .ok agreement)
    {cookie c2s uniqueId nonce : List UInt8} (hcookie : cookie ∈ agreement.cookies)
    (hkey : c2s.length = 32) (hid : uniqueId.length = uniqueIdLength)
    (hnonce : nonce.length = nonceLength) :
    ∃ request tag unique given auth,
      buildRequest encrypt cookie c2s uniqueId nonce = .ok request ∧
      (∀ body ∈ [uniqueId, cookie, requestAuthenticator nonce tag],
        (UInt16.ofNat (4 + padded body.length)).toNat = 4 + padded body.length) ∧
      extensionFields request.packet = .ok [unique, given, auth] ∧
      (unique.kind = efUniqueIdentifier ∧ given.kind = efCookie ∧
        auth.kind = efAuthenticator) ∧
      (unique.start = headerLength + 4 ∧ given.start = unique.stop + 4 ∧
        auth.start = given.stop + 4 ∧ auth.stop = request.packet.length) ∧
      slice request.packet unique.start unique.stop = some uniqueId ∧
      (∃ zeros < 4, slice request.packet given.start given.stop
        = some (cookie ++ List.replicate zeros 0)) ∧
      slice request.packet auth.start auth.stop = some (requestAuthenticator nonce tag) := by
  obtain ⟨tag, htag, htaglen⟩ := hsiv c2s (requestHeader ++
    extensionField efUniqueIdentifier uniqueId ++ extensionField efCookie cookie) nonce hkey
  have hbound := Nts.cookie_length_le hparse hcookie
  have hmaxval : Nts.maxKeResponse = 65536 := rfl
  have hauthlen : (requestAuthenticator nonce tag).length = 36 := by
    rw [length_requestAuthenticator, hnonce, htaglen]
    rfl
  -- the cookie is the only body whose length is not fixed
  have hfits : ∀ body ∈ [uniqueId, cookie, requestAuthenticator nonce tag],
      FieldFits body := by
    simp only [List.forall_mem_cons, FieldFits, hid, hauthlen]
    refine ⟨by decide, ?_, by decide, List.forall_mem_nil _⟩
    rw [padded]
    omega
  let fields := [(efUniqueIdentifier, uniqueId), (efCookie, cookie),
    (efAuthenticator, requestAuthenticator nonce tag)]
  have htiles : Tiles (requestHeader ++ encodeFields fields) requestHeader.length
      (layout requestHeader.length fields) := by
    apply tiles_encodeFields
    intro f hf
    exact hfits f.2 (List.mem_map_of_mem (f := Prod.snd) hf)
  rw [length_requestHeader] at htiles
  refine ⟨_, tag, _, _, _, buildRequest_eq hkey htag, ?_, extensionFields_eq_ok.mpr htiles,
    ⟨rfl, rfl, rfl⟩, ⟨rfl, rfl, rfl, ?_⟩, ?_, ⟨padded cookie.length - cookie.length, ?_, ?_⟩, ?_⟩
  · intro body hbody
    exact UInt16.toNat_ofNat_of_lt' (hfits body hbody)
  · simp only [List.length_append, length_requestHeader, encodeFields, length_extensionField,
      List.length_nil]
    omega
  · refine (slice_encodeFields [] ?_ _ _ _).trans ?_
    · exact length_requestHeader
    · rw [paddedBody_of_aligned (by rw [hid]; rfl)]
  · have hlt := padded_lt cookie.length
    omega
  · refine slice_encodeFields (fields.take 1) ?_ _ _ _
    show (requestHeader ++ (extensionField _ _ ++ [])).length = _
    rw [List.length_append, List.append_nil, length_requestHeader, length_extensionField]
  · refine (slice_encodeFields (fields.take 2) ?_ _ _ _).trans ?_
    · show (requestHeader ++ (extensionField _ _ ++ (extensionField _ _ ++ []))).length = _
      rw [List.length_append, List.append_nil, List.length_append, length_requestHeader,
        length_extensionField, length_extensionField, Nat.add_assoc headerLength]
    · rw [paddedBody_of_aligned (by rw [hauthlen])]

/-- A response that agrees to what was asked for and brings one cookie, "cookie". -/
def sampleAgreement : List UInt8 :=
  [0x80, 1, 0, 2, 0, 0, 0x80, 4, 0, 2, 0, 15, 0, 5, 0, 6, 99, 111, 111, 107, 105, 101,
    0x80, 0, 0, 0]

/-- The tag AES-SIV-CMAC-256 gives the request for it, under the key of 32 sevens and the
nonce of 16 fives. -/
def sampleRequestTag : List UInt8 :=
  [217, 160, 11, 14, 39, 132, 85, 34, 113, 62, 94, 110, 118, 46, 230, 164]

/-- Encryption of nothing, as far as that one request is concerned. -/
def sampleRequestEncrypt (key associated nonce _plaintext : List UInt8) : Option (List UInt8) :=
  if key = List.replicate 32 7 ∧ nonce = List.replicate 16 5 ∧
      associated = requestHeader ++ ([1, 4, 0, 36] ++ List.replicate 32 3) ++
        [2, 4, 0, 12, 99, 111, 111, 107, 105, 101, 0, 0] then some sampleRequestTag
  else some (List.replicate 16 0)

theorem buildRequest_fields_sample :
    ∃ request unique given auth,
      buildRequest sampleRequestEncrypt [99, 111, 111, 107, 105, 101] (List.replicate 32 7)
        (List.replicate 32 3) (List.replicate 16 5) = .ok request ∧
      extensionFields request.packet = .ok [unique, given, auth] ∧
      auth.stop = request.packet.length ∧ request.packet.length = 136 := by
  have hsiv : ∀ key associated nonce : List UInt8, key.length = 32 →
      ∃ tag, sampleRequestEncrypt key associated nonce [] = some tag ∧ tag.length = 16 := by
    intro key associated nonce _
    rw [sampleRequestEncrypt]
    split_ifs
    · exact ⟨_, rfl, rfl⟩
    · exact ⟨_, rfl, List.length_replicate⟩
  have hparse : Nts.parseResponse sampleAgreement 15 =
      .ok { aead := 15, cookies := [[99, 111, 111, 107, 105, 101]], server := none,
            port := none } := by
    decide +kernel
  obtain ⟨request, tag, unique, given, auth, hbuild, -, hfields, -, ⟨-, -, -, hstop⟩, -⟩ :=
    buildRequest_fields hsiv (by decide) hparse List.mem_cons_self
      (List.length_replicate (n := 32) (a := 7)) (List.length_replicate (n := 32) (a := 3))
      (List.length_replicate (n := 16) (a := 5))
  have hlength : request.packet.length = 136 := by
    have hsame : buildRequest sampleRequestEncrypt [99, 111, 111, 107, 105, 101]
        (List.replicate 32 7) (List.replicate 32 3) (List.replicate 16 5) =
      .ok { packet := requestHeader ++ ([1, 4, 0, 36] ++ List.replicate 32 3) ++
              [2, 4, 0, 12, 99, 111, 111, 107, 105, 101, 0, 0] ++
              ([4, 4, 0, 40, 0, 16, 0, 16] ++ List.replicate 16 5 ++ sampleRequestTag)
            uniqueId := List.replicate 32 3 } := by
      decide +kernel
    rw [hsame] at hbuild
    cases hbuild
    rfl
  exact ⟨request, unique, given, auth, hbuild, hfields, hstop, hlength⟩

/-! ## The answer -/

/-- The body of a server's authenticator: the two lengths, the nonce with its padding,
the ciphertext. -/
def serverAuthenticator (nonce ciphertext : List UInt8) : List UInt8 :=
  u16Bytes (UInt16.ofNat nonce.length) ++ u16Bytes (UInt16.ofNat ciphertext.length) ++
    (paddedBody nonce ++ ciphertext)

/-- The answer of a server: the header, some fields, and an authenticator over all of
that, as `server_response` of the tests puts it together. There is none for a key that
is not one of AES-SIV-CMAC-256. -/
def serverResponse
    (encrypt : List UInt8 → List UInt8 → List UInt8 → List UInt8 → Option (List UInt8))
    (header : List UInt8) (fields : List (UInt16 × List UInt8))
    (key nonce plaintext : List UInt8) : Option (List UInt8) :=
  if key.length ≠ 32 then none
  else
    (encrypt key (header ++ encodeFields fields) nonce plaintext).map fun ciphertext =>
      header ++ encodeFields (fields ++ [(efAuthenticator, serverAuthenticator nonce ciphertext)])

theorem length_serverAuthenticator (nonce ciphertext : List UInt8) :
    (serverAuthenticator nonce ciphertext).length =
      4 + (padded nonce.length + ciphertext.length) := by
  simp only [serverAuthenticator, List.length_append, length_u16Bytes, length_paddedBody]

/-- What is read from the body of an authenticator, whatever padding stands behind it. -/
theorem carries_serverAuthenticator {nonce ciphertext : List UInt8}
    (hfits : FieldFits (serverAuthenticator nonce ciphertext)) (rest : List UInt8) :
    Carries (serverAuthenticator nonce ciphertext ++ rest) nonce ciphertext := by
  have hlen := length_serverAuthenticator nonce ciphertext
  have hle := le_padded (serverAuthenticator nonce ciphertext).length
  have hnle := le_padded nonce.length
  unfold FieldFits at hfits
  have hnonce : (u16At (serverAuthenticator nonce ciphertext ++ rest) 0).toNat
      = nonce.length := by
    rw [serverAuthenticator]
    simp only [List.append_assoc]
    rw [u16At_u16Bytes]
    exact UInt16.toNat_ofNat_of_lt' (by show _ < 65536; omega)
  have hcipher : (u16At (serverAuthenticator nonce ciphertext ++ rest) 2).toNat
      = ciphertext.length := by
    rw [serverAuthenticator]
    simp only [List.append_assoc]
    have hread := u16At_append (u16Bytes (UInt16.ofNat nonce.length))
      (u16Bytes (UInt16.ofNat ciphertext.length) ++ (paddedBody nonce ++ (ciphertext ++ rest))) 0
    rw [length_u16Bytes, u16At_u16Bytes] at hread
    rw [hread]
    exact UInt16.toNat_ofNat_of_lt' (by show _ < 65536; omega)
  let front := u16Bytes (UInt16.ofNat nonce.length) ++ u16Bytes (UInt16.ofNat ciphertext.length)
  refine ⟨?_, ?_, ?_⟩
  · rw [List.length_append, hlen]
    omega
  · rw [hnonce]
    have hslice := slice_append_middle front nonce
      (List.replicate (padded nonce.length - nonce.length) 0 ++ (ciphertext ++ rest))
    rw [serverAuthenticator, paddedBody]
    simp only [List.append_assoc]
    exact hslice
  · rw [hnonce, hcipher]
    have hslice := slice_append_middle (front ++ paddedBody nonce) ciphertext rest
    rw [List.length_append, length_paddedBody] at hslice
    rw [serverAuthenticator]
    simp only [List.append_assoc] at hslice ⊢
    exact hslice

/-- The parts of the authenticator are read back. -/
theorem authenticatorParts_of_carries {body nonce ciphertext : List UInt8}
    (h : Carries body nonce ciphertext) :
    authenticatorParts body = .ok (nonce, ciphertext) := by
  rw [authenticatorParts, if_neg (Nat.not_lt_of_le h.lengths)]
  dsimp only
  rw [h.nonce]
  dsimp only
  rw [h.ciphertext]

/-- The steps of `parseResponse` that accept, put together. -/
theorem parseResponse_of_accepted
    {siv : List UInt8 → List UInt8 → List UInt8 → List UInt8 → Bool}
    {packet s2c expected : List UInt8} {t : Int64} {fields : List Field} {auth unique : Field}
    (hkey : s2c.length = 32) (h : Accepted siv packet s2c expected t fields auth unique) :
    parseResponse siv packet s2c expected = .ok t := by
  obtain ⟨nonce, ciphertext, hcarries, hsiv⟩ := h.decrypted
  refine bind_eq_ok.mpr ⟨(), h.header_ok, bind_eq_ok.mpr ⟨fields, h.fields_ok, ?_⟩⟩
  rw [h.auth_found, h.unique_found]
  dsimp only
  rw [if_neg (Nat.not_lt_of_le h.covered), if_neg (not_not.mpr h.matching)]
  refine bind_eq_ok.mpr ⟨_, authenticatorParts_of_carries hcarries, ?_⟩
  dsimp only
  rw [if_neg (not_not.mpr hkey), if_pos hsiv]
  exact h.timestamp

/-- The timestamp of a Unix second in the range of the two eras. -/
theorem transmitTimestamp_of_carries {packet bytes : List UInt8} {s : Int64}
    (hslice : slice packet 40 44 = some bytes)
    (hs : -61505152 ≤ s.toInt ∧ s.toInt ≤ 4233462143)
    (hzero : (s.toInt + 2208988800) % 2 ^ 32 ≠ 0)
    (hbytes : (beNat bytes : Int) = (s.toInt + 2208988800) % 2 ^ 32) :
    transmitTimestamp packet = .ok s := by
  have hne : beNat bytes ≠ 0 := by omega
  obtain ⟨t, ht⟩ : ∃ t, transmitTimestamp packet = .ok t := by
    rw [transmitTimestamp, hslice]
    dsimp only
    rw [if_neg hne]
    split_ifs
    · exact ⟨_, rfl⟩
    · exact ⟨_, rfl⟩
  obtain ⟨bytes', hslice', -, hera⟩ := transmitTimestamp_ok ht
  rw [hslice] at hslice'
  cases hslice'
  have hts : t = s := by
    rw [← Int64.toInt_inj, hera, eraSeconds]
    split_ifs <;> omega
  rw [ht, hts]

/-- Where a field stands that is written behind the others. -/
def fieldBehind (front : List (UInt16 × List UInt8)) (kind : UInt16) (body : List UInt8) :
    Field :=
  ⟨kind, headerLength + (encodeFields front).length + 4,
    headerLength + (encodeFields front).length + (4 + padded body.length)⟩

/-- The first field of a kind is the one that was written first. -/
theorem find?_layout {front : List (UInt16 × List UInt8)} {kind : UInt16}
    (h : ∀ f ∈ front, f.1 ≠ kind) (body : List UInt8) (back : List (UInt16 × List UInt8)) :
    (layout headerLength (front ++ (kind, body) :: back)).find? (·.kind = kind) =
      some (fieldBehind front kind body) := by
  have hnone : (layout headerLength front).find? (·.kind = kind) = none := by
    rw [List.find?_eq_none]
    intro f hf hkind
    obtain ⟨g, hg, hgf⟩ := kind_of_mem_layout hf
    exact h g hg (hgf.trans (of_decide_eq_true hkind))
  rw [layout_append, List.find?_append, hnone, Option.none_or, layout]
  exact List.find?_cons_of_pos (decide_eq_true rfl)

/-- A server's header with this second in its transmit timestamp: mode 4, a clock that is
synchronised, and a stratum other than 0. -/
structure HeaderOf (s : Int64) (header : List UInt8) : Prop where
  length : header.length = headerLength
  mode : header.getD 0 0 &&& 0x07 = 4
  leap : header.getD 0 0 >>> 6 ≠ 3
  stratum : header.getD 1 0 ≠ 0
  seconds : (beNat ((header.drop 40).take 4) : Int) = (s.toInt + 2208988800) % 2 ^ 32

/-- The header of an answer passes its checks. -/
theorem HeaderOf.checkHeader {s : Int64} {header : List UInt8} (h : HeaderOf s header)
    (rest : List UInt8) : checkHeader (header ++ rest) = .ok () := by
  have hlen : header.length = 48 := h.length
  have hget : ∀ i < 48, (header ++ rest).getD i 0 = header.getD i 0 := by
    intro i hi
    rw [List.getD_eq_getElem?_getD, List.getD_eq_getElem?_getD,
      List.getElem?_append_left (by omega)]
  unfold Ntp.checkHeader
  dsimp only
  rw [hget 0 (by omega), hget 1 (by omega), if_neg, if_neg (not_not.mpr h.mode), if_neg h.leap,
    if_neg h.stratum]
  rw [List.length_append, h.length]
  omega

/-- The timestamp written in a header is read back. -/
theorem HeaderOf.timestamp {s : Int64} {header : List UInt8} (h : HeaderOf s header)
    (hs : -61505152 ≤ s.toInt ∧ s.toInt ≤ 4233462143)
    (hzero : (s.toInt + 2208988800) % 2 ^ 32 ≠ 0) (rest : List UInt8) :
    transmitTimestamp (header ++ rest) = .ok s := by
  have hlen : header.length = 48 := h.length
  have hslice : slice (header ++ rest) 40 44 = some ((header.drop 40).take 4) := by
    rw [slice_eq_some]
    refine ⟨by omega, ?_, ?_⟩
    · rw [List.length_append]
      omega
    · rw [List.drop_append_of_le_length (by omega), List.take_append_of_le_length]
      rw [List.length_drop]
      omega
  exact transmitTimestamp_of_carries hslice hs hzero h.seconds

/-- A packet whose last field is the only authenticator, and which carries the identifier
once, is read as it was written. -/
theorem accepted_of_fields {siv : List UInt8 → List UInt8 → List UInt8 → List UInt8 → Bool}
    {s : Int64} (hs : -61505152 ≤ s.toInt ∧ s.toInt ≤ 4233462143)
    (hzero : (s.toInt + 2208988800) % 2 ^ 32 ≠ 0)
    {header : List UInt8} (hheader : HeaderOf s header)
    {before after : List (UInt16 × List UInt8)} {uniqueId key nonce ciphertext : List UInt8}
    (hid : uniqueId.length = uniqueIdLength)
    (hfirst : ∀ f ∈ before, f.1 ≠ efUniqueIdentifier)
    (hauth : ∀ f ∈ before ++ (efUniqueIdentifier, uniqueId) :: after, f.1 ≠ efAuthenticator)
    (hfits : ∀ f ∈ before ++ (efUniqueIdentifier, uniqueId) :: after, FieldFits f.2)
    (hbody : FieldFits (serverAuthenticator nonce ciphertext))
    (hsiv : siv key (header ++ encodeFields (before ++ (efUniqueIdentifier, uniqueId) :: after))
      nonce ciphertext = true) :
    ∃ fields auth unique, Accepted siv
      (header ++ encodeFields (before ++ (efUniqueIdentifier, uniqueId) :: after ++
        [(efAuthenticator, serverAuthenticator nonce ciphertext)]))
      key uniqueId s fields auth unique := by
  let covered := before ++ (efUniqueIdentifier, uniqueId) :: after
  let body := serverAuthenticator nonce ciphertext
  have hlength : (header ++ encodeFields covered).length
      = headerLength + (encodeFields covered).length := by
    rw [List.length_append, hheader.length]
  have hbefore : (header ++ encodeFields before).length
      = headerLength + (encodeFields before).length := by
    rw [List.length_append, hheader.length]
  have hle : (encodeFields before).length + (4 + padded uniqueId.length)
      ≤ (encodeFields covered).length := by
    show _ ≤ (encodeFields (before ++ (efUniqueIdentifier, uniqueId) :: after)).length
    rw [encodeFields_append, encodeFields, List.length_append, List.length_append,
      length_extensionField]
    omega
  refine ⟨_, fieldBehind covered efAuthenticator body,
    fieldBehind before efUniqueIdentifier uniqueId, ⟨hheader.checkHeader _, ?_,
    find?_layout hauth body [], ?_, ?_, ?_, ⟨nonce, ciphertext, ?_, ?_⟩,
    hheader.timestamp hs hzero _⟩⟩
  · rw [extensionFields_eq_ok, ← hheader.length]
    apply tiles_encodeFields
    rw [List.forall_mem_append, List.forall_mem_singleton]
    exact ⟨hfits, hbody⟩
  · rw [List.append_assoc, List.cons_append]
    exact find?_layout hfirst uniqueId _
  · show headerLength + (encodeFields before).length + (4 + padded uniqueId.length)
      ≤ headerLength + (encodeFields covered).length + 4
    omega
  · rw [List.append_assoc, List.cons_append]
    refine (slice_encodeFields before hbefore _ _ _).trans ?_
    rw [paddedBody_of_aligned (by rw [hid]; rfl)]
  · -- the body that is looked at is the one that was written, with its padding
    have hslice := slice_encodeFields covered hlength efAuthenticator body []
    obtain ⟨-, -, hdrop⟩ := slice_eq_some.mp hslice
    show Carries ((List.drop (headerLength + (encodeFields covered).length + 4) _).take
      (headerLength + (encodeFields covered).length + (4 + padded body.length) -
        (headerLength + (encodeFields covered).length + 4))) nonce ciphertext
    rw [← hdrop]
    exact carries_serverAuthenticator hbody _
  · have htake : (header ++ encodeFields (covered ++ [(efAuthenticator, body)])).take
        (headerLength + (encodeFields covered).length + 4 - 4) =
          header ++ encodeFields covered := by
      rw [Nat.add_sub_cancel, ← hlength, encodeFields_append covered, ← List.append_assoc,
        List.take_left]
    exact htake ▸ hsiv

/-- **Round trip of an answer**: what a server sends for a second in the range of the two
eras, with any fields around the identifier and any nonce, is accepted under the same
key and identifier and gives that second. Of AES-SIV it is used that decryption accepts
what encryption gave for the same key and associated data. -/
theorem parseResponse_serverResponse
    {encrypt : List UInt8 → List UInt8 → List UInt8 → List UInt8 → Option (List UInt8)}
    {siv : List UInt8 → List UInt8 → List UInt8 → List UInt8 → Bool}
    (hsiv : ∀ key associated nonce plaintext ciphertext,
      encrypt key associated nonce plaintext = some ciphertext →
        siv key associated nonce ciphertext = true)
    {s : Int64} (hs : -61505152 ≤ s.toInt ∧ s.toInt ≤ 4233462143)
    (hzero : (s.toInt + 2208988800) % 2 ^ 32 ≠ 0)
    {header : List UInt8} (hheader : HeaderOf s header)
    {before after : List (UInt16 × List UInt8)}
    (hothers : ∀ f ∈ before ++ after,
      f.1 ≠ efUniqueIdentifier ∧ f.1 ≠ efAuthenticator ∧ FieldFits f.2)
    {uniqueId : List UInt8} (hid : uniqueId.length = uniqueIdLength)
    {key nonce plaintext packet : List UInt8}
    (hpacket : serverResponse encrypt header
      (before ++ (efUniqueIdentifier, uniqueId) :: after) key nonce plaintext = some packet)
    (hfits : ∀ ciphertext, encrypt key (header ++ encodeFields
        (before ++ (efUniqueIdentifier, uniqueId) :: after)) nonce plaintext = some ciphertext →
      FieldFits (serverAuthenticator nonce ciphertext)) :
    parseResponse siv packet key uniqueId = .ok s := by
  rw [serverResponse] at hpacket
  split_ifs at hpacket with hkey
  obtain ⟨ciphertext, henc, rfl⟩ := Option.map_eq_some_iff.mp hpacket
  rw [List.forall_mem_append] at hothers
  obtain ⟨hbefore, hafter⟩ := hothers
  have hauth : ∀ f ∈ before ++ (efUniqueIdentifier, uniqueId) :: after,
      f.1 ≠ efAuthenticator := by
    rw [List.forall_mem_append, List.forall_mem_cons]
    refine ⟨fun f hf => (hbefore f hf).2.1, ?_, fun f hf => (hafter f hf).2.1⟩
    show efUniqueIdentifier ≠ efAuthenticator
    decide
  have hall : ∀ f ∈ before ++ (efUniqueIdentifier, uniqueId) :: after, FieldFits f.2 := by
    rw [List.forall_mem_append, List.forall_mem_cons]
    refine ⟨fun f hf => (hbefore f hf).2.2, ?_, fun f hf => (hafter f hf).2.2⟩
    show 4 + padded uniqueId.length < 2 ^ 16
    rw [hid]
    decide
  obtain ⟨fields, auth, unique, haccepted⟩ :=
    accepted_of_fields hs hzero hheader hid (fun f hf => (hbefore f hf).1) hauth hall
      (hfits ciphertext henc) (hsiv _ _ _ _ _ henc)
  exact parseResponse_of_accepted (not_not.mp hkey) haccepted

/-- The header of an answer sent at second 1800000000. -/
def sampleHeader : List UInt8 :=
  [0x24, 3] ++ List.replicate 38 0 ++ [238, 244, 80, 128] ++ List.replicate 4 0

/-- Cookie placeholders of three bytes before the identifier, and a cookie behind it; both
need padding. -/
def furtherFields : List (UInt16 × List UInt8) × List (UInt16 × List UInt8) :=
  ([(0x0304, [1, 2, 3])], [(efCookie, [99, 111, 111, 107, 105, 101])])

/-- The header and the fields in front of the authenticator. -/
def furtherCovered : List UInt8 :=
  sampleHeader ++ encodeFields (furtherFields.1 ++
    (efUniqueIdentifier, List.replicate 32 3) :: furtherFields.2)

/-- The tag AES-SIV-CMAC-256 gives all this under the key of 32 nines and the nonce of 16
fives. -/
def furtherTag : List UInt8 :=
  [121, 178, 119, 243, 227, 248, 9, 176, 210, 174, 253, 29, 68, 50, 53, 214]

/-- Encryption of nothing, as far as that answer is concerned. -/
def sampleEncrypt (key associated nonce plaintext : List UInt8) : Option (List UInt8) :=
  if key = List.replicate 32 9 ∧ associated = furtherCovered ∧ nonce = List.replicate 16 5 ∧
      plaintext = [] then some furtherTag
  else none

/-- Decryption of what was encrypted so. -/
def sampleDecrypt (key associated nonce ciphertext : List UInt8) : Bool :=
  sampleEncrypt key associated nonce [] == some ciphertext

theorem parseResponse_serverResponse_sample :
    ∃ packet, serverResponse sampleEncrypt sampleHeader
        (furtherFields.1 ++ (efUniqueIdentifier, List.replicate 32 3) :: furtherFields.2)
        (List.replicate 32 9) (List.replicate 16 5) [] = some packet ∧
      packet.length = 48 + (8 + (36 + 12)) + 40 ∧
      parseResponse sampleDecrypt packet (List.replicate 32 9) (List.replicate 32 3)
        = .ok 1800000000 := by
  have hencrypt : ∀ {key associated nonce plaintext ciphertext},
      sampleEncrypt key associated nonce plaintext = some ciphertext →
        plaintext = [] ∧ ciphertext = furtherTag := by
    intro key associated nonce plaintext ciphertext h
    rw [sampleEncrypt] at h
    split_ifs at h with hinput
    exact ⟨hinput.2.2.2, (Option.some_inj.mp h).symm⟩
  have hsiv : ∀ key associated nonce plaintext ciphertext,
      sampleEncrypt key associated nonce plaintext = some ciphertext →
        sampleDecrypt key associated nonce ciphertext = true := by
    intro key associated nonce plaintext ciphertext h
    obtain ⟨rfl, -⟩ := hencrypt h
    exact beq_iff_eq.mpr h
  have hheader : HeaderOf 1800000000 sampleHeader :=
    ⟨by decide, by decide, by decide, by decide, by decide +kernel⟩
  have hothers : ∀ f ∈ furtherFields.1 ++ furtherFields.2,
      f.1 ≠ efUniqueIdentifier ∧ f.1 ≠ efAuthenticator ∧ FieldFits f.2 := by
    decide
  have hpacket : (serverResponse sampleEncrypt sampleHeader
      (furtherFields.1 ++ (efUniqueIdentifier, List.replicate 32 3) :: furtherFields.2)
      (List.replicate 32 9) (List.replicate 16 5) []).map List.length
        = some (48 + (8 + (36 + 12)) + 40) := by
    decide +kernel
  obtain ⟨packet, hpacket, hlength⟩ := Option.map_eq_some_iff.mp hpacket
  refine ⟨packet, hpacket, hlength, parseResponse_serverResponse hsiv (by decide) (by decide)
    hheader hothers List.length_replicate hpacket ?_⟩
  intro ciphertext h
  obtain ⟨-, rfl⟩ := hencrypt h
  decide +kernel

end HostServices.TimeCorrection.Ntp
