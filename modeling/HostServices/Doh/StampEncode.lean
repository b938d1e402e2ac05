import HostServices.Lib.Base64
import HostServices.Lib.Fallible
import HostServices.Lib.Utf8

/-!
# The encoder of DNS stamps (`lib/doh-stamp-encode.nix`)

The encoder works on lists of numbers, since a string of the language cannot hold a zero byte.
An assertion that fails and an index that is too large end the evaluation.

- `base64urlUnpadded`, `lengthPrefixed`, `mkDohStamp`: the functions of the source;
- `base64urlUnpadded_eq`: the groups and the tail are the URL-safe code of the bytes;
- `IsField`, `lengthPrefixed_eq_ok`: what a field of a stamp has to be.
-/

namespace HostServices.Doh

open HostServices.Lib

/-- Why an evaluation ends without a value. -/
inductive EvalError
  | thrown (message : String)
  | outOfBounds (index size : Nat)
  deriving DecidableEq, Repr

/-! ## Base 64 -/

/-- `alphabet`: the characters of base64url. -/
def alphabet : String := "ABCDEFGHIJKLMNOPQRSTUVWXYZabcdefghijklmnopqrstuvwxyz0123456789-_"

/-- `builtins.substring i 1 alphabet` -/
def sextetToChar (i : Nat) : List Char := (alphabet.toList.drop i).take 1

/-- `builtins.elemAt` -/
def elemAt (list : List Nat) (i : Nat) : Except EvalError Nat :=
  match list[i]? with
  | some value => .ok value
  | none => .error (.outOfBounds i list.length)

/-- `encodeGroup`: three bytes are four characters. -/
def encodeGroup (bytes : List Nat) (i : Nat) : Except EvalError (List Char) := do
  let b0 ← elemAt bytes (i * 3)
  let b1 ← elemAt bytes (i * 3 + 1)
  let b2 ← elemAt bytes (i * 3 + 2)
  let n := b0 * 65536 + b1 * 256 + b2
  .ok ([n / 262144, n / 4096 % 64, n / 64 % 64, n % 64].flatMap sextetToChar)

/-- The characters of the one or two bytes behind the last group. -/
def tail (bytes : List Nat) (fullGroups rem : Nat) : Except EvalError (List Char) := do
  let b0 ← elemAt bytes (fullGroups * 3)
  let b1 ← (if rem = 2 then elemAt bytes (fullGroups * 3 + 1) else .ok 0)
  let n := b0 * 65536 + b1 * 256
  let sextets := [n / 262144, n / 4096 % 64, n / 64 % 64]
  .ok ((sextets.take (rem + 1)).flatMap sextetToChar)

/-- `base64urlUnpadded`: the full groups, and what is left over. -/
def base64urlUnpadded (bytes : List Nat) : Except EvalError (List Char) := do
  let len := bytes.length
  let fullGroups := len / 3
  let rem := len - fullGroups * 3
  let groups ← (List.range fullGroups).mapM (encodeGroup bytes)
  let last ← (if rem ≠ 0 then tail bytes fullGroups rem else .ok [])
  .ok (groups.flatten ++ last)

/-! ## Stamps -/

/-- `[!-~]*` -/
def isPrintable (s : String) : Bool := s.toList.all fun c => '!' ≤ c ∧ c ≤ '~'

/-- `stringToBytes`: a field must be printable ASCII without spaces. -/
def stringToBytes (s : String) : Except EvalError (List Nat) :=
  if isPrintable s then .ok (s.toList.map Char.toNat)
  else .error (.thrown
    s!"doh-stamp-encode: field must be printable ASCII without spaces, got {s}")

/-- `lengthPrefixed`: the length in one byte, and the field. -/
def lengthPrefixed (s : String) : Except EvalError (List Nat) := do
  let bytes ← stringToBytes s
  let len := bytes.length
  if len ≤ 127 then .ok (len :: bytes)
  else .error (.thrown s!"doh-stamp-encode: field too long ({len} > 127): {s}")

/-- `propsNoFilter` -/
def propsNoFilter : Nat := 4

/-- "Does not filter", and nothing else. -/
def defaultProps : Nat := propsNoFilter

/-- What a stamp is made of. -/
structure StampArgs where
  addr : String
  hostname : String
  path : String := "/dns-query"
  props : Nat := defaultProps
  deriving DecidableEq, Repr

/-- `propsBytes`: the properties, which fit into the first of eight bytes. -/
def propsBytes (props : Nat) : List Nat := [props % 256, 0, 0, 0, 0, 0, 0, 0]

/-- `stampBytes`: the protocol, the properties and the three fields. -/
def stampBytes (args : StampArgs) : Except EvalError (List Nat) := do
  let addr ← lengthPrefixed args.addr
  let hostname ← lengthPrefixed args.hostname
  let path ← lengthPrefixed args.path
  .ok ([2] ++ propsBytes args.props ++ addr ++ [0] ++ hostname ++ path)

/-- `mkDohStamp`: the stamp of a resolver. -/
def mkDohStamp (args : StampArgs) : Except EvalError String := do
  let bytes ← stampBytes args
  let payload ← base64urlUnpadded bytes
  .ok ("sdns://" ++ String.ofList payload)

/-! ## Groups -/

theorem sextetToChar_eq {i : Nat} (h : i < 64) : sextetToChar i = [charOfSextet i] := by
  have hall : ∀ j : Fin 64, sextetToChar j = [charOfSextet j] := by decide +kernel
  exact hall ⟨i, h⟩

theorem elemAt_eq_ok {list : List Nat} {i value : Nat} :
    elemAt list i = .ok value ↔ list[i]? = some value := by
  rw [elemAt]
  cases list[i]? with
  | none =>
    constructor <;>
    · intro h
      cases h
  | some found =>
    constructor <;>
    · intro h
      cases h
      rfl

/-- Each sextet is one character. -/
theorem flatMap_sextetToChar {sextets : List Nat} (h : ∀ i ∈ sextets, i < 64) :
    sextets.flatMap sextetToChar = sextets.map charOfSextet := by
  induction sextets with
  | nil => rfl
  | cons i sextets ih =>
    rw [List.forall_mem_cons] at h
    rw [List.flatMap_cons, List.map_cons, sextetToChar_eq h.1, ih h.2, List.singleton_append]

/-- The six bits at each place of a group. -/
theorem sextets_eq (a b c : UInt8) (n : Nat)
    (hn : n = a.toNat * 65536 + b.toNat * 256 + c.toNat) :
    [n / 262144, n / 4096 % 64, n / 64 % 64, n % 64]
      = [a.toNat / 4, a.toNat % 4 * 16 + b.toNat / 16, b.toNat % 16 * 4 + c.toNat / 64,
        c.toNat % 64] := by
  have ha := a.toNat_lt
  have hb := b.toNat_lt
  have hc := c.toNat_lt
  have h0 : n / 262144 = a.toNat / 4 := by omega
  have h1 : n / 4096 % 64 = a.toNat % 4 * 16 + b.toNat / 16 := by omega
  have h2 : n / 64 % 64 = b.toNat % 16 * 4 + c.toNat / 64 := by omega
  have h3 : n % 64 = c.toNat % 64 := by omega
  rw [h0, h1, h2, h3]

theorem sextets_lt (a b c : UInt8) :
    ∀ i ∈ [a.toNat / 4, a.toNat % 4 * 16 + b.toNat / 16, b.toNat % 16 * 4 + c.toNat / 64,
      c.toNat % 64], i < 64 := by
  have ha := a.toNat_lt
  have hb := b.toNat_lt
  have hc := c.toNat_lt
  simp only [List.forall_mem_cons, List.not_mem_nil, false_imp_iff, implies_true, and_true]
  omega

/-- The first characters of a group: all four of a whole group, fewer of a tail. -/
theorem flatMap_take (a b c : UInt8) (n count : Nat)
    (hn : n = a.toNat * 65536 + b.toNat * 256 + c.toNat) :
    ([n / 262144, n / 4096 % 64, n / 64 % 64, n % 64].take count).flatMap sextetToChar
      = [charOfSextet (a.toNat / 4), charOfSextet (a.toNat % 4 * 16 + b.toNat / 16),
        charOfSextet (b.toNat % 16 * 4 + c.toNat / 64),
        charOfSextet (c.toNat % 64)].take count := by
  have hlt : ∀ i ∈ [n / 262144, n / 4096 % 64, n / 64 % 64, n % 64].take count, i < 64 := by
    intro i hi
    rw [sextets_eq a b c n hn] at hi
    exact sextets_lt a b c i (List.mem_of_mem_take hi)
  rw [flatMap_sextetToChar hlt, sextets_eq a b c n hn, List.map_take]
  rfl

/-! ## The whole list -/

/-- A group does not depend on the group before it. -/
theorem encodeGroup_succ {bytes : List Nat} {i : Nat} {chars : List Char} (a b c : Nat)
    (h : encodeGroup bytes i = .ok chars) :
    encodeGroup (a :: b :: c :: bytes) (i + 1) = .ok chars := by
  obtain ⟨b0, h0, h⟩ := bind_eq_ok.mp h
  obtain ⟨b1, h1, h⟩ := bind_eq_ok.mp h
  obtain ⟨b2, h2, h⟩ := bind_eq_ok.mp h
  have hindex : (i + 1) * 3 = i * 3 + 3 := by omega
  rw [elemAt_eq_ok] at h0 h1 h2
  rw [encodeGroup, hindex]
  refine bind_eq_ok.mpr ⟨b0, elemAt_eq_ok.mpr h0, ?_⟩
  refine bind_eq_ok.mpr ⟨b1, elemAt_eq_ok.mpr ?_, ?_⟩
  · exact h1
  · exact bind_eq_ok.mpr ⟨b2, elemAt_eq_ok.mpr h2, h⟩

/-- The tail of the text does not change with a group in front. -/
theorem tail_succ {bytes : List Nat} {fullGroups rem : Nat} {chars : List Char} (a b c : Nat)
    (h : tail bytes fullGroups rem = .ok chars) :
    tail (a :: b :: c :: bytes) (fullGroups + 1) rem = .ok chars := by
  obtain ⟨b0, h0, h⟩ := bind_eq_ok.mp h
  obtain ⟨b1, h1, h⟩ := bind_eq_ok.mp h
  have hindex : (fullGroups + 1) * 3 = fullGroups * 3 + 3 := by omega
  rw [elemAt_eq_ok] at h0
  rw [tail, hindex]
  refine bind_eq_ok.mpr ⟨b0, elemAt_eq_ok.mpr h0, bind_eq_ok.mpr ⟨b1, ?_, h⟩⟩
  by_cases hrem : rem = 2
  · rw [if_pos hrem, elemAt_eq_ok] at h1
    rw [if_pos hrem, elemAt_eq_ok]
    exact h1
  · rw [if_neg hrem] at h1 ⊢
    exact h1

/-- One more group in front. -/
theorem base64urlUnpadded_cons {bytes : List Nat} {text : List Char} (a b c : UInt8)
    (h : base64urlUnpadded bytes = .ok text) :
    base64urlUnpadded (a.toNat :: b.toNat :: c.toNat :: bytes)
      = .ok (charOfSextet (a.toNat / 4) :: charOfSextet (a.toNat % 4 * 16 + b.toNat / 16)
        :: charOfSextet (b.toNat % 16 * 4 + c.toNat / 64) :: charOfSextet (c.toNat % 64)
        :: text) := by
  obtain ⟨groups, hgroups, h⟩ := bind_eq_ok.mp h
  obtain ⟨last, hlast, h⟩ := bind_eq_ok.mp h
  cases h
  have hfull : (a.toNat :: b.toNat :: c.toNat :: bytes).length / 3 = bytes.length / 3 + 1 := by
    rw [List.length_cons, List.length_cons, List.length_cons]
    omega
  have hrem : (a.toNat :: b.toNat :: c.toNat :: bytes).length - (bytes.length / 3 + 1) * 3
      = bytes.length - bytes.length / 3 * 3 := by
    rw [List.length_cons, List.length_cons, List.length_cons]
    omega
  rw [base64urlUnpadded, hfull, hrem]
  refine bind_eq_ok.mpr ⟨[charOfSextet (a.toNat / 4),
    charOfSextet (a.toNat % 4 * 16 + b.toNat / 16),
    charOfSextet (b.toNat % 16 * 4 + c.toNat / 64), charOfSextet (c.toNat % 64)] :: groups,
    ?_, bind_eq_ok.mpr ⟨last, ?_, rfl⟩⟩
  · rw [List.range_succ_eq_map, mapM_eq_ok]
    refine .cons (congrArg Except.ok (flatMap_take a b c _ 4 rfl))
      (List.forall₂_map_left_iff.mpr ?_)
    exact (mapM_eq_ok.mp hgroups).imp fun _ _ => encodeGroup_succ _ _ _
  · by_cases hzero : bytes.length - bytes.length / 3 * 3 = 0
    · rw [if_neg (not_not.mpr hzero)] at hlast ⊢
      exact hlast
    · rw [if_pos hzero] at hlast ⊢
      exact tail_succ _ _ _ hlast

/-- Less than a group. -/
theorem base64urlUnpadded_tail {bytes : List Nat} {text : List Char} (hlt : bytes.length < 3)
    (hpos : bytes.length ≠ 0) (h : tail bytes 0 bytes.length = .ok text) :
    base64urlUnpadded bytes = .ok text := by
  have hfull : bytes.length / 3 = 0 := Nat.div_eq_of_lt hlt
  rw [base64urlUnpadded, hfull, List.range_zero, List.mapM_nil, Nat.zero_mul, Nat.sub_zero,
    if_pos hpos, h]
  rfl

/-- **The encoder writes the URL-safe code of the bytes.** -/
theorem base64urlUnpadded_eq (bytes : List UInt8) :
    base64urlUnpadded (bytes.map UInt8.toNat) = .ok (encodeBase64url bytes) := by
  induction bytes using encodeBase64url.induct with
  | case1 => rfl
  | case2 a =>
    have htail : tail [a.toNat] 0 1 = .ok (encodeBase64url [a]) :=
      congrArg Except.ok (flatMap_take a 0 0 (a.toNat * 65536 + 0 * 256) 2 (by simp))
    exact base64urlUnpadded_tail (show 1 < 3 by decide) Nat.one_ne_zero htail
  | case3 a b =>
    have htail : tail [a.toNat, b.toNat] 0 2 = .ok (encodeBase64url [a, b]) :=
      congrArg Except.ok (flatMap_take a b 0 (a.toNat * 65536 + b.toNat * 256) 3 (by simp))
    exact base64urlUnpadded_tail (show 2 < 3 by decide) (show 2 ≠ 0 by decide) htail
  | case4 a b c rest ih => exact base64urlUnpadded_cons a b c ih

/-! ## Fields -/

/-- A text that can stand in a stamp. -/
structure IsField (s : String) : Prop where
  printable : isPrintable s = true
  length_le : s.length ≤ 127

instance (s : String) : Decidable (IsField s) :=
  decidable_of_iff (isPrintable s = true ∧ s.length ≤ 127)
    ⟨fun h => ⟨h.1, h.2⟩, fun h => ⟨h.printable, h.length_le⟩⟩

/-- Printable text is ASCII. -/
theorem ascii_of_printable {s : String} (h : isPrintable s = true) :
    ∀ c ∈ s.toList, c.toNat < 128 := by
  intro c hc
  have hrange := of_decide_eq_true (List.all_eq_true.mp h c hc)
  have hle : c.toNat ≤ '~'.toNat := hrange.2
  have htilde : '~'.toNat = 126 := rfl
  omega

/-- The characters of a printable text are its bytes. -/
theorem toNat_utf8Bytes {s : String} (h : isPrintable s = true) :
    (utf8Bytes s).map UInt8.toNat = s.toList.map Char.toNat := by
  rw [utf8Bytes_of_ascii (ascii_of_printable h), List.map_map]
  refine List.map_congr_left fun c hc => ?_
  have hc := ascii_of_printable h c hc
  rw [Function.comp_apply, UInt8.toNat_ofNat', Nat.mod_eq_of_lt (by omega)]

theorem length_utf8Bytes_of_printable {s : String} (h : isPrintable s = true) :
    (utf8Bytes s).length = s.length := by
  rw [utf8Bytes_of_ascii (ascii_of_printable h), List.length_map, String.length_toList]

/-- The bytes of a field, with their number in front. -/
def fieldBytes (s : String) : List UInt8 := UInt8.ofNat s.length :: utf8Bytes s

theorem toNat_fieldBytes {s : String} (h : IsField s) :
    (fieldBytes s).map UInt8.toNat = s.length :: s.toList.map Char.toNat := by
  have hle := h.length_le
  rw [fieldBytes, List.map_cons, UInt8.toNat_ofNat', Nat.mod_eq_of_lt (by omega),
    toNat_utf8Bytes h.printable]

/-- Exactly the fields are encoded. -/
theorem lengthPrefixed_eq_ok {s : String} {bytes : List Nat} :
    lengthPrefixed s = .ok bytes ↔ IsField s ∧ (fieldBytes s).map UInt8.toNat = bytes := by
  rw [lengthPrefixed, bind_eq_ok]
  constructor
  · rintro ⟨chars, hchars, hlength⟩
    obtain ⟨hprintable, rfl⟩ := ite_eq_ok.mp hchars
    obtain ⟨hle, rfl⟩ := ite_eq_ok.mp hlength
    rw [List.length_map, String.length_toList] at hle ⊢
    exact ⟨⟨hprintable, hle⟩, toNat_fieldBytes ⟨hprintable, hle⟩⟩
  · rintro ⟨hfield, rfl⟩
    refine ⟨_, ite_eq_ok.mpr ⟨hfield.printable, rfl⟩, ite_eq_ok.mpr ?_⟩
    rw [List.length_map, String.length_toList]
    exact ⟨hfield.length_le, (toNat_fieldBytes hfield).symm⟩

end HostServices.Doh
