import HostServices.Lib.Bits
import HostServices.Lib.Text
import HostServices.Doh.StampEncode

/-!
# What a stamp says

The format of the stamps of DoH servers, as the comment of the encoder gives it, read the way
the resolver reads it that is given the stamps.

- `DohStamp`, `readPayload`, `readStamp`: the format;
- `readPayload_payloadBytes`, `mkDohStamp_eq`: the bytes of a stamp, and what they are read as;
- `stamp_decodes`: a stamp says what it was made of.
-/

namespace HostServices.Doh

open HostServices.Lib

/-! ## The format -/

/-- `LP`: a length, and that many bytes. -/
def readPrefixed : List UInt8 → Option (List UInt8 × List UInt8)
  | [] => none
  | len :: rest =>
    if len.toNat ≤ rest.length then some (rest.take len.toNat, rest.drop len.toNat) else none

/-- `VLP`: the high bit of the length is set on every part except the last. -/
def readParts : List UInt8 → Option (List (List UInt8) × List UInt8)
  | [] => none
  | len :: rest =>
    let size := len.toNat % 128
    if size ≤ rest.length then
      if 128 ≤ len.toNat then
        (readParts (rest.drop size)).map fun (parts, rest') => (rest.take size :: parts, rest')
      else some ([rest.take size], rest.drop size)
    else none
  termination_by bytes => bytes.length
  decreasing_by
    rw [List.length_drop, List.length_cons]
    omega

/-- A length-prefixed text. -/
def readText (bytes : List UInt8) : Option (String × List UInt8) := do
  let (field, rest) ← readPrefixed bytes
  let text ← fromUtf8 field
  some (text, rest)

/-- What the stamp of a DoH server says. -/
structure DohStamp where
  props : Nat
  addr : String
  hashes : List (List UInt8)
  hostname : String
  path : String
  deriving DecidableEq

/-- `0x02 | props (u64 LE) | LP(addr) | VLP(hashes) | LP(hostname) | LP(path)` -/
def readPayload : List UInt8 → Option DohStamp
  | [] => none
  | protocol :: bytes =>
    if protocol = 0x02 ∧ 8 ≤ bytes.length then do
      let (addr, bytes') ← readText (bytes.drop 8)
      let (hashes, bytes') ← readParts bytes'
      let (hostname, bytes') ← readText bytes'
      let (path, bytes') ← readText bytes'
      if bytes' = [] then some ⟨leNat (bytes.take 8), addr, hashes, hostname, path⟩ else none
    else none

/-- An independent reader of a stamp: the scheme, the encoding, and the payload. -/
def readStamp (stamp : String) : Option DohStamp := do
  let payload ← stripPrefix "sdns://".toList stamp.toList
  let bytes ← decodeBase64url payload
  readPayload bytes

/-! ## The bytes of a stamp -/

/-- What a stamp can be made of. -/
structure StampArgs.IsValid (args : StampArgs) : Prop where
  addr : IsField args.addr
  hostname : IsField args.hostname
  path : IsField args.path
  props_lt : args.props < 256

/-- What a stamp has to say. -/
def StampArgs.stamp (args : StampArgs) : DohStamp :=
  ⟨args.props, args.addr, [[]], args.hostname, args.path⟩

/-- The payload of a DNS-over-HTTPS stamp with these fields and no certificate hashes. -/
def payloadBytes (args : StampArgs) : List UInt8 :=
  0x02 :: ([UInt8.ofNat args.props, 0, 0, 0, 0, 0, 0, 0]
    ++ (fieldBytes args.addr ++ 0x00 :: (fieldBytes args.hostname ++ fieldBytes args.path)))

/-- The bytes of valid fields are their payload. -/
theorem stampBytes_of_valid {args : StampArgs} (h : args.IsValid) :
    stampBytes args = .ok ((payloadBytes args).map UInt8.toNat) := by
  refine bind_eq_ok.mpr ⟨_, lengthPrefixed_eq_ok.mpr ⟨h.addr, rfl⟩, ?_⟩
  refine bind_eq_ok.mpr ⟨_, lengthPrefixed_eq_ok.mpr ⟨h.hostname, rfl⟩, ?_⟩
  refine bind_eq_ok.mpr ⟨_, lengthPrefixed_eq_ok.mpr ⟨h.path, rfl⟩, congrArg Except.ok ?_⟩
  have hprops : args.props % 256 = (UInt8.ofNat args.props).toNat := by
    rw [UInt8.toNat_ofNat']
  rw [propsBytes, hprops, payloadBytes]
  simp

/-- The stamp of valid fields. -/
theorem mkDohStamp_eq {args : StampArgs} (h : args.IsValid) :
    mkDohStamp args
      = .ok ("sdns://" ++ String.ofList (encodeBase64url (payloadBytes args))) := by
  rw [mkDohStamp, stampBytes_of_valid h, ok_bind, base64urlUnpadded_eq, ok_bind]

/-! ## Reading them -/

/-- A field is read back, and what follows is left. -/
theorem readText_fieldBytes {s : String} (h : IsField s) (rest : List UInt8) :
    readText (fieldBytes s ++ rest) = some (s, rest) := by
  have hle := h.length_le
  have hbytes := length_utf8Bytes_of_printable h.printable
  have hlen : (UInt8.ofNat s.length).toNat = (utf8Bytes s).length := by
    rw [UInt8.toNat_ofNat', Nat.mod_eq_of_lt (by omega), hbytes]
  have hprefixed : readPrefixed (fieldBytes s ++ rest) = some (utf8Bytes s, rest) := by
    rw [fieldBytes, List.cons_append, readPrefixed, hlen, if_pos (by simp), List.take_left,
      List.drop_left]
  rw [readText, hprefixed]
  simp only [Option.bind_eq_bind, Option.bind_some, fromUtf8_utf8Bytes]

theorem readParts_empty (rest : List UInt8) : readParts (0x00 :: rest) = some ([[]], rest) := by
  rw [readParts]
  rfl

/-- A payload is read back. -/
theorem readPayload_payloadBytes {args : StampArgs} (h : args.IsValid) :
    readPayload (payloadBytes args) = some args.stamp := by
  have hfront : ∀ rest : List UInt8,
      leNat (([UInt8.ofNat args.props, 0, 0, 0, 0, 0, 0, 0] ++ rest).take 8) = args.props
        ∧ ([UInt8.ofNat args.props, 0, 0, 0, 0, 0, 0, 0] ++ rest).drop 8 = rest := by
    intro rest
    refine ⟨?_, rfl⟩
    simp only [List.cons_append, List.nil_append, List.take_succ_cons, List.take_zero, leNat,
      List.foldr_cons, List.foldr_nil, UInt8.toNat_zero, Nat.mul_zero, Nat.add_zero]
    rw [UInt8.toNat_ofNat', Nat.mod_eq_of_lt h.props_lt]
  have hpath : readText (fieldBytes args.path) = some (args.path, []) := by
    have := readText_fieldBytes h.path []
    rwa [List.append_nil] at this
  rw [payloadBytes, readPayload, if_pos ⟨rfl, by simp⟩]
  rw [(hfront _).1, (hfront _).2, readText_fieldBytes h.addr]
  simp only [Option.bind_eq_bind, Option.bind_some, readParts_empty,
    readText_fieldBytes h.hostname, hpath, if_true]
  rfl

theorem readStamp_append (text : List Char) :
    readStamp ("sdns://" ++ String.ofList text) = (decodeBase64url text).bind readPayload := by
  have hstrip : stripPrefix "sdns://".toList ("sdns://" ++ String.ofList text).toList
      = some text := by
    rw [stripPrefix_eq_some, String.toList_append]
    exact congrArg _ String.toList_ofList
  rw [readStamp, hstrip]
  rfl

/-- What was made is read. -/
theorem readStamp_mkDohStamp {args : StampArgs} (h : args.IsValid) :
    ∃ stamp, mkDohStamp args = .ok stamp ∧ readStamp stamp = some args.stamp := by
  refine ⟨_, mkDohStamp_eq h, ?_⟩
  rw [readStamp_append, decode_encode, Option.bind_some, readPayload_payloadBytes h]

/-- Nothing that a stamp is made of is lost. -/
theorem StampArgs.stamp_injective : Function.Injective StampArgs.stamp := by
  rintro ⟨addr, hostname, path, props⟩ ⟨addr', hostname', path', props'⟩ heq
  cases heq
  rfl

/-- Different fields have different stamps. -/
theorem eq_of_mkDohStamp_eq {args other : StampArgs} (h : args.IsValid) (h' : other.IsValid)
    (heq : mkDohStamp args = mkDohStamp other) : args = other := by
  obtain ⟨stamp, hstamp, hread⟩ := readStamp_mkDohStamp h
  obtain ⟨stamp', hstamp', hread'⟩ := readStamp_mkDohStamp h'
  rw [hstamp, hstamp'] at heq
  cases heq
  rw [hread, Option.some_inj] at hread'
  exact StampArgs.stamp_injective hread'

/-- **A stamp decodes to what was encoded**, byte by byte and field by field. -/
theorem stamp_decodes :
    (∀ bytes : List UInt8, ∃ text, base64urlUnpadded (bytes.map UInt8.toNat) = .ok text
        ∧ decodeBase64url text = some bytes)
      ∧ (∀ args : StampArgs, args.IsValid → ∃ stamp, mkDohStamp args = .ok stamp
        ∧ readStamp stamp = some ⟨args.props, args.addr, [[]], args.hostname, args.path⟩)
      ∧ ∀ args other : StampArgs, args.IsValid → other.IsValid →
        mkDohStamp args = mkDohStamp other → args = other := by
  refine ⟨fun bytes => ?_, fun args h => ?_, fun args other h h' heq => ?_⟩
  · exact ⟨encodeBase64url bytes, base64urlUnpadded_eq bytes, decode_encode bytes⟩
  · exact readStamp_mkDohStamp h
  · exact eq_of_mkDohStamp_eq h h' heq

/-- The first of the stamps that are in use. -/
theorem stamp_decodes_cloudflare :
    ∃ stamp, mkDohStamp ⟨"1.1.1.1", "cloudflare-dns.com", "/dns-query", 4⟩ = .ok stamp
      ∧ readStamp stamp
        = some ⟨4, "1.1.1.1", [[]], "cloudflare-dns.com", "/dns-query"⟩ :=
  stamp_decodes.2.1 _ ⟨by decide +kernel, by decide +kernel, by decide +kernel, by decide⟩

example : mkDohStamp { addr := "1.1.1.1", hostname := "cloudflare-dns.com" }
    = .ok "sdns://AgQAAAAAAAAABzEuMS4xLjEAEmNsb3VkZmxhcmUtZG5zLmNvbQovZG5zLXF1ZXJ5" := by
  decide +kernel

end HostServices.Doh
