import HostServices.Lib.Bytes
import HostServices.Lib.FromStr
import HostServices.Lib.Utf8

/-!
# The encoded values of the udev database (`system-metrics/src/block.rs`)

udev writes a byte that it does not want to show as `\xNN`, a backslash always and
others as it likes. The decoder goes over the bytes once and puts the characters
together only at the end, so that it does not matter which bytes of a character were
written which way.

- `decodeUdevEnc`: the source's function;
- `Encodes`: any way to encode a byte string;
- `decodeUdevEnc_encodes`: what was encoded is decoded.
-/

namespace HostServices.SystemMetrics

open HostServices.Lib

/-! ## The code -/

/-- The loop of `decode_udev_enc`, over what is left of the bytes. -/
def decodeUdevBytes : List UInt8 → List UInt8
  | [] => []
  | b :: rest =>
    -- `\` and `x`, and two digits behind them
    if b = 0x5C ∧ rest[0]? = some 0x78 then
      match ((slice rest 1 3).bind fromUtf8).bind (fromStrRadix 16 256) with
      | some byte => UInt8.ofNat byte :: decodeUdevBytes (rest.drop 3)
      | none => b :: decodeUdevBytes rest
    else b :: decodeUdevBytes rest
termination_by bytes => bytes.length

/-- `decode_udev_enc` -/
def decodeUdevEnc (encoded : String) : String :=
  fromUtf8Lossy (decodeUdevBytes (utf8Bytes encoded))

/-! ## What an encoder may write -/

/-- The byte is a hexadecimal digit of this value, in either case. -/
def HexDigit (digit : UInt8) (value : Nat) : Prop :=
  (value < 10 ∧ digit.toNat = 0x30 + value) ∨
    (10 ≤ value ∧ value < 16 ∧
      (digit.toNat = 0x61 + (value - 10) ∨ digit.toNat = 0x41 + (value - 10)))

/-- The second byte string encodes the first: a byte is copied, unless it is a backslash,
or is written as a backslash, an `x` and its two digits. -/
inductive Encodes : List UInt8 → List UInt8 → Prop
  | nil : Encodes [] []
  | copied {b : UInt8} {bytes out : List UInt8} : b ≠ 0x5C → Encodes bytes out →
      Encodes (b :: bytes) (b :: out)
  | escaped {b hi lo : UInt8} {bytes out : List UInt8} : HexDigit hi (b.toNat / 16) →
      HexDigit lo (b.toNat % 16) → Encodes bytes out →
      Encodes (b :: bytes) ([0x5C, 0x78, hi, lo] ++ out)

/-! ## The round trip -/

theorem HexDigit.lt {digit : UInt8} {value : Nat} (h : HexDigit digit value) :
    digit.toNat < 128 := by
  unfold HexDigit at h
  omega

theorem HexDigit.value_lt {digit : UInt8} {value : Nat} (h : HexDigit digit value) :
    value < 16 := by
  unfold HexDigit at h
  omega

/-- A digit is read as its value; it is no sign. -/
theorem HexDigit.toDigit {digit : UInt8} {value : Nat} (h : HexDigit digit value) :
    toDigit 16 (Char.ofNat digit.toNat) = some value ∧ Char.ofNat digit.toNat ≠ '+' := by
  have hall : ∀ v : Fin 16, ∀ n : Fin 128,
      ((v.val < 10 ∧ n.val = 0x30 + v.val) ∨ (10 ≤ v.val ∧ v.val < 16 ∧
        (n.val = 0x61 + (v.val - 10) ∨ n.val = 0x41 + (v.val - 10)))) →
      Lib.toDigit 16 (Char.ofNat n.val) = some v.val ∧ Char.ofNat n.val ≠ '+' := by
    decide +kernel
  exact hall ⟨value, h.value_lt⟩ ⟨digit.toNat, h.lt⟩ h

/-- The two digits of a byte are read as it. -/
theorem fromStrRadix_hexDigits {b hi lo : UInt8} (hhi : HexDigit hi (b.toNat / 16))
    (hlo : HexDigit lo (b.toNat % 16)) :
    (fromUtf8 [hi, lo]).bind (fromStrRadix 16 256) = some b.toNat := by
  have hascii : ∀ d ∈ [hi, lo], d.toNat < 128 := by
    rw [List.forall_mem_cons, List.forall_mem_singleton]
    exact ⟨hhi.lt, hlo.lt⟩
  obtain ⟨hhi', hsign⟩ := hhi.toDigit
  have hdigits : radixDigits 16 [Char.ofNat hi.toNat, Char.ofNat lo.toNat] = some b.toNat := by
    simp only [radixDigits, List.foldlM_cons, List.foldlM_nil, hhi', hlo.toDigit.1]
    show some (16 * (16 * 0 + b.toNat / 16) + b.toNat % 16) = some b.toNat
    congr 1
    omega
  rw [fromUtf8_of_ascii hascii, Option.bind_some]
  show fromStrRadix 16 256 (String.ofList [Char.ofNat hi.toNat, Char.ofNat lo.toNat]) = _
  rw [fromStrRadix_of_unsigned hsign, hdigits]
  exact Option.filter_some_pos (decide_eq_true b.toNat_lt)

/-- One pass undoes the encoding. -/
theorem decodeUdevBytes_encodes {bytes out : List UInt8} (h : Encodes bytes out) :
    decodeUdevBytes out = bytes := by
  induction h with
  | nil => rw [decodeUdevBytes]
  | copied hne _ ih => rw [decodeUdevBytes, if_neg fun h => hne h.1, ih]
  | @escaped b hi lo bytes out hhi hlo _ ih =>
    show decodeUdevBytes (0x5C :: 0x78 :: hi :: lo :: out) = b :: bytes
    have hslice : slice (0x78 :: hi :: lo :: out) 1 3 = some [hi, lo] :=
      slice_append_middle [0x78] [hi, lo] out
    rw [decodeUdevBytes, if_pos ⟨rfl, rfl⟩, hslice, Option.bind_some,
      fromStrRadix_hexDigits hhi hlo]
    show UInt8.ofNat b.toNat :: decodeUdevBytes out = b :: bytes
    rw [ih, UInt8.ofNat_toNat]

/-- **Decoding undoes the encoding**: whichever bytes of a string were escaped, in either
case of the digits, as long as every backslash was, the string is decoded. -/
theorem decodeUdevEnc_encodes {s encoded : String}
    (h : Encodes (utf8Bytes s) (utf8Bytes encoded)) : decodeUdevEnc encoded = s := by
  rw [decodeUdevEnc, decodeUdevBytes_encodes h, fromUtf8Lossy_utf8Bytes]

/-- A character of two bytes that are both escaped, and a backslash in front of what then
looks like an escape. -/
theorem decodeUdevEnc_encodes_split :
    decodeUdevEnc "\\xc5\\x91\\x5Cx41" = "ő\\x41" := by
  refine decodeUdevEnc_encodes ?_
  show Encodes [0xC5, 0x91, 0x5C, 0x78, 0x34, 0x31] ([0x5C, 0x78, 0x63, 0x35] ++
    ([0x5C, 0x78, 0x39, 0x31] ++ ([0x5C, 0x78, 0x35, 0x43] ++ [0x78, 0x34, 0x31])))
  refine .escaped ?_ ?_ (.escaped ?_ ?_ (.escaped ?_ ?_
    (.copied (by decide) (.copied (by decide) (.copied (by decide) .nil)))))
  all_goals
    unfold HexDigit
    decide

end HostServices.SystemMetrics
