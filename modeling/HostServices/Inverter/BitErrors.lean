import HostServices.Inverter.Protocol

/-!
# Single-bit errors in a response frame

XMODEM catches every single-bit error, but what a frame carries is not the remainder:
three byte values are replaced by their successors, so an error whose syndrome exchanges
a byte for its substitute goes unseen. Over the frames the reader can take there is one
distance at which that happens.

- `xmodem_eq_remainder`: the source's loop is the shift register;
- `escape_eq_iff`: which check bytes look alike on the wire;
- `syndrome_not_small`: at every other distance the syndrome cannot hide behind them;
- `single_bit_error_refused_iff`: exactly which single-bit errors are refused.
-/

namespace HostServices.Inverter

open HostServices.Lib

/-! ## The check as a shift register -/

/-- The polynomial of CRC-16/XMODEM without its leading term. -/
def generator : BitVec 16 := 0x1021#16

/-- A byte as it is added to the register. -/
def symbol (byte : UInt8) : BitVec 16 := (byte.toUInt16 <<< (8 : UInt16)).toBitVec

/-- A step of the source's loop is a shift of the register. -/
theorem toBitVec_shift (acc : UInt16) :
    (if acc &&& 0x8000 ≠ 0 then (acc <<< 1) ^^^ 0x1021 else acc <<< 1).toBitVec
      = Crc.shift generator acc.toBitVec := by
  have hmsb : (acc &&& 0x8000 ≠ 0) ↔ acc.toBitVec.msb = true := by
    rw [ne_eq, ← UInt16.toBitVec_inj, UInt16.toBitVec_and]
    show ¬ acc.toBitVec &&& BitVec.twoPow 16 15 = 0#16 ↔ _
    rw [BitVec.and_twoPow, BitVec.msb_eq_getLsbD_last]
    cases acc.toBitVec.getLsbD 15 <;> simp
  unfold Crc.shift
  by_cases hacc : acc &&& 0x8000 ≠ 0
  · rw [if_pos hacc, if_pos (hmsb.mp hacc)]
    rfl
  · rw [if_neg hacc, if_neg (mt hmsb.mpr hacc)]
    rfl

/-- The eight rounds of the inner loop. -/
theorem toBitVec_rounds (n : Nat) (acc : UInt16) :
    ((List.range n).foldl (fun (acc : UInt16) _ =>
      if acc &&& 0x8000 ≠ 0 then (acc <<< 1) ^^^ 0x1021 else acc <<< 1) acc).toBitVec
      = (Crc.shift generator)^[n] acc.toBitVec := by
  induction n with
  | zero => rfl
  | succ n ih =>
    rw [List.range_succ, List.foldl_append, List.foldl_cons, List.foldl_nil, toBitVec_shift,
      ih, Function.iterate_succ_apply']

/-- The source's checksum is the remainder modulo the generator. -/
theorem xmodem_eq_remainder (data : List UInt8) :
    (xmodem data).toBitVec = Crc.remainder generator 8 (data.map symbol) 0 := by
  suffices h : ∀ c : UInt16, (data.foldl (fun (crc : UInt16) byte =>
      (List.range 8).foldl (fun (acc : UInt16) _ =>
        if acc &&& 0x8000 ≠ 0 then (acc <<< 1) ^^^ 0x1021 else acc <<< 1)
        (crc ^^^ (byte.toUInt16 <<< (8 : UInt16)))) c).toBitVec
        = Crc.remainder generator 8 (data.map symbol) c.toBitVec from h 0
  induction data with
  | nil => exact fun c => rfl
  | cons byte data ih =>
    intro c
    rw [List.foldl_cons, ih, toBitVec_rounds, UInt16.toBitVec_xor]
    rfl

/-! ## Flipping a bit -/

/-- The byte with only bit `j` set. -/
def bit (j : Nat) : UInt8 := 1 <<< UInt8.ofNat j

/-- A frame with bit `j` of byte `i` flipped. -/
def flipBit (frame : List UInt8) (i j : Nat) : List UInt8 := frame.modify i (· ^^^ bit j)

theorem symbol_xor (a b : UInt8) : symbol (a ^^^ b) = symbol a ^^^ symbol b := by
  rw [symbol, UInt8.toUInt16_xor, UInt16.shiftLeft_xor]
  rfl

/-- A set bit is the lowest bit of the symbol, shifted into its place. -/
theorem symbol_bit : ∀ j < 8, symbol (bit j) = (Crc.shift generator)^[j] 0x0100#16 := by
  decide

/-- The syndrome of a single bit with `m` bits behind it in what is checked. -/
def syndrome (m : Nat) : UInt16 := ⟨(Crc.shift generator)^[m] generator⟩

/-- A flipped bit changes the checksum by its syndrome, whatever the data. -/
theorem xmodem_flip (before after : List UInt8) (x : UInt8) {j : Nat} (hj : j < 8) :
    xmodem (before ++ (x ^^^ bit j) :: after)
      = xmodem (before ++ x :: after) ^^^ syndrome (8 * after.length + j) := by
  rw [← UInt16.toBitVec_inj, UInt16.toBitVec_xor, xmodem_eq_remainder, xmodem_eq_remainder,
    List.map_append, List.map_append, List.map_cons, List.map_cons, symbol_xor,
    Crc.remainder_error, symbol_bit j hj]
  have hgen : generator = (Crc.shift generator)^[8] 0x0100#16 := by decide
  congr 1
  rw [syndrome]
  nth_rewrite 4 [hgen]
  rw [← Function.iterate_add_apply, ← Function.iterate_add_apply, List.length_map]
  congr 1
  omega

/-! ## What the substitution hides -/

/-- The upper byte of the check, before substitution. -/
def upper (crc : UInt16) : UInt8 := (crc >>> 8).toUInt8

/-- The lower byte of the check, before substitution. -/
def lower (crc : UInt16) : UInt8 := (crc &&& 0xFF).toUInt8

theorem upper_xor (a b : UInt16) : upper (a ^^^ b) = upper a ^^^ upper b := by
  rw [upper, UInt16.shiftRight_xor, UInt16.toUInt8_xor]
  rfl

theorem lower_eq (crc : UInt16) : lower crc = crc.toUInt8 := by
  rw [lower, UInt16.toUInt8_and]
  exact UInt8.and_neg_one

theorem lower_xor (a b : UInt16) : lower (a ^^^ b) = lower a ^^^ lower b := by
  rw [lower_eq, lower_eq, lower_eq, UInt16.toUInt8_xor]

/-- The bytes that are sent alike. -/
theorem escape_eq_iff {a b : UInt8} : escape b = escape a ↔
    b = a ∨ (a, b) ∈ [(0x28, 0x29), (0x29, 0x28), (0x0A, 0x0B), (0x0B, 0x0A), (0x0D, 0x0E),
      ((0x0E, 0x0D) : UInt8 × UInt8)] := by
  constructor
  · intro h
    unfold escape at h
    split_ifs at h with hb ha ha
    · left
      rcases hb with rfl | rfl | rfl <;> rcases ha with rfl | rfl | rfl <;> revert h <;> decide
    · right
      rcases hb with rfl | rfl | rfl <;> subst h <;> decide
    · right
      rcases ha with rfl | rfl | rfl <;> subst h <;> decide
    · exact .inl h
  · rintro (rfl | h)
    · rfl
    · simp only [List.mem_cons, Prod.mk.injEq, List.not_mem_nil, or_false] at h
      rcases h with ⟨rfl, rfl⟩ | ⟨rfl, rfl⟩ | ⟨rfl, rfl⟩ | ⟨rfl, rfl⟩ | ⟨rfl, rfl⟩ | ⟨rfl, rfl⟩ <;>
        decide

theorem xor_eq_iff {a b x : UInt8} : a ^^^ x = b ↔ x = a ^^^ b := by
  constructor
  · rintro rfl
    rw [← UInt8.xor_assoc, UInt8.xor_self, UInt8.zero_xor]
  · rintro rfl
    rw [← UInt8.xor_assoc, UInt8.xor_self, UInt8.zero_xor]

/-- A change `x` of a check byte is hidden if there is none, or it exchanges a byte for
its substitute. -/
theorem escape_xor_eq_iff {a x : UInt8} : escape (a ^^^ x) = escape a ↔
    x = 0 ∨ (x = 1 ∧ a ∈ [0x0A, 0x0B, 0x28, (0x29 : UInt8)]) ∨
      (x = 3 ∧ a ∈ [0x0D, (0x0E : UInt8)]) := by
  rw [escape_eq_iff, xor_eq_iff, UInt8.xor_self]
  simp only [List.mem_cons, Prod.mk.injEq, List.not_mem_nil, or_false, xor_eq_iff]
  constructor
  · rintro (h | h)
    · exact .inl h
    · rcases h with ⟨rfl, rfl⟩ | ⟨rfl, rfl⟩ | ⟨rfl, rfl⟩ | ⟨rfl, rfl⟩ | ⟨rfl, rfl⟩ | ⟨rfl, rfl⟩ <;>
        decide
  · rintro (h | ⟨rfl, rfl | rfl | rfl | rfl⟩ | ⟨rfl, rfl | rfl⟩)
    · exact .inl h
    all_goals decide

/-- Both bytes of a change of the checksum are at most 3. -/
def small (s : BitVec 16) : Bool := Nat.ble (s.toNat / 256) 3 && Nat.ble (s.toNat % 256) 3

theorem small_of_le {s : UInt16} (hu : (upper s).toNat ≤ 3) (hl : (lower s).toNat ≤ 3) :
    small s.toBitVec = true := by
  have hlt := s.toNat_lt
  have hu' : (upper s).toNat = s.toNat / 256 := by
    simp only [upper, UInt16.toNat_toUInt8, UInt16.toNat_shiftRight]
    show s.toNat >>> 8 % 2 ^ 8 = _
    rw [Nat.shiftRight_eq_div_pow]
    omega
  have hl' : (lower s).toNat = s.toNat % 256 := by
    simp only [lower, UInt16.toNat_toUInt8, UInt16.toNat_and]
    show (s.toNat &&& (2 ^ 8 - 1)) % 2 ^ 8 = _
    rw [Nat.and_two_pow_sub_one_eq_mod]
    omega
  show (Nat.ble (s.toNat / 256) 3 && Nat.ble (s.toNat % 256) 3) = true
  rw [Bool.and_eq_true, Nat.ble_eq, Nat.ble_eq]
  omega

/-- The one distance at which a syndrome consists of such bytes. -/
@[irreducible] def blindDistance : Nat := 2182

/-- At no smaller distance are both bytes of the syndrome small. -/
theorem scan_near : Crc.scan generator small blindDistance generator = some 0x0301#16 := by
  decide +kernel

/-- The bytes are not small at any greater distance, up to the longest payload. -/
theorem scan_far : Crc.scan generator small 1881 0x0602#16 = some 0x6747#16 := by
  decide +kernel

/-- The syndrome at the blind distance. -/
theorem syndrome_blindDistance : syndrome blindDistance = 0x0301 := by
  rw [syndrome, (Crc.scan_eq_some scan_near).2]
  rfl

/-- **The syndromes within reach**: of the 4064 bits a payload can have, only the one at
`blindDistance` has a syndrome that can be hidden. -/
theorem syndrome_not_small {m : Nat} (hm : m < 4064) (hne : m ≠ blindDistance) :
    small (syndrome m).toBitVec = false := by
  obtain ⟨hnear, hblind⟩ := Crc.scan_eq_some scan_near
  have hnext : (Crc.shift generator)^[1 + blindDistance] generator = 0x0602#16 := by
    rw [Function.iterate_add_apply, hblind]
    decide
  rcases Nat.lt_or_gt_of_ne hne with hlt | hgt
  · exact hnear m hlt
  · obtain ⟨k, rfl⟩ : ∃ k, m = k + (1 + blindDistance) := ⟨m - (1 + blindDistance), by omega⟩
    have hk : k < 1881 := by
      unfold blindDistance at hm
      omega
    have hfar := (Crc.scan_eq_some scan_far).1 k hk
    rw [← hnext, ← Function.iterate_add_apply] at hfar
    exact hfar

/-- A change of the check shows on the wire unless its syndrome is the blind one and the
check consists of bytes that have, or are, a substitute. -/
theorem frameCrc_flip_eq_iff (before after : List UInt8) (x : UInt8) {j : Nat} (hj : j < 8)
    (hafter : after.length < 508) :
    frameCrc (before ++ (x ^^^ bit j) :: after) = frameCrc (before ++ x :: after) ↔
      8 * after.length + j = blindDistance ∧
        upper (xmodem (before ++ x :: after)) ∈ [0x0D, (0x0E : UInt8)] ∧
        lower (xmodem (before ++ x :: after)) ∈ [0x0A, 0x0B, 0x28, (0x29 : UInt8)] := by
  show (escape (upper _), escape (lower _)) = (escape (upper _), escape (lower _)) ↔ _
  rw [Prod.mk.injEq, xmodem_flip _ _ _ hj, upper_xor, lower_xor, escape_xor_eq_iff,
    escape_xor_eq_iff]
  by_cases hblind : 8 * after.length + j = blindDistance
  · have hu : upper (syndrome blindDistance) = 3 := by rw [syndrome_blindDistance]; decide
    have hl : lower (syndrome blindDistance) = 1 := by rw [syndrome_blindDistance]; decide
    rw [hblind, hu, hl]
    simp
  · -- neither byte of the syndrome is one the substitution hides
    have hsmall := syndrome_not_small (by omega) hblind
    constructor
    · rintro ⟨hu, hl⟩
      rw [small_of_le ?_ ?_] at hsmall
      · cases hsmall
      · rcases hu with h | ⟨h, -⟩ | ⟨h, -⟩ <;> rw [h] <;> decide
      · rcases hl with h | ⟨h, -⟩ | ⟨h, -⟩ <;> rw [h] <;> decide
    · exact fun h => absurd h.1 hblind

/-! ## The frame -/

theorem flipBit_append (before after : List UInt8) (x : UInt8) (j : Nat) :
    flipBit (before ++ x :: after) before.length j = before ++ (x ^^^ bit j) :: after := by
  induction before with
  | nil => rfl
  | cons b before ih => exact congrArg (b :: ·) ih

theorem xor_bit_ne (x : UInt8) {j : Nat} (hj : j < 8) : x ^^^ bit j ≠ x := by
  have hbit : ∀ j < 8, bit j ≠ 0 := by decide
  rw [ne_eq, xor_eq_iff, UInt8.xor_self]
  exact hbit j hj

/-- Bit `j` of byte `i` is where the check of a frame is blind: bit 6 of the payload byte
that 272 bytes of payload follow, in a frame whose check has one of eight values. -/
def Blind (payload : List UInt8) (i j : Nat) : Prop :=
  1 ≤ i ∧ i + 272 = payload.length ∧ j = 6 ∧
    upper (xmodem (leading :: payload)) ∈ [0x0D, (0x0E : UInt8)] ∧
    lower (xmodem (leading :: payload)) ∈ [0x0A, 0x0B, 0x28, (0x29 : UInt8)]

/-- A flipped bit of the payload is refused unless the check is blind there. -/
theorem payload_flip_refused_iff (before after : List UInt8) (x : UInt8) {j : Nat} (hj : j < 8)
    (hlen : (before ++ x :: after).length ≤ 508) :
    (∃ err, parseResponse (flipBit (buildResponse (before ++ x :: after))
        (before.length + 1) j) = .error err) ↔
      ¬ Blind (before ++ x :: after) (before.length + 1) j := by
  rw [List.length_append, List.length_cons] at hlen
  have hflip : flipBit (buildResponse (before ++ x :: after)) (before.length + 1) j
      = leading :: (before ++ (x ^^^ bit j) :: after) ++
        [(frameCrc (leading :: (before ++ x :: after))).1,
          (frameCrc (leading :: (before ++ x :: after))).2, cr] := by
    have := flipBit_append (leading :: before) (after ++
      [(frameCrc (leading :: (before ++ x :: after))).1,
        (frameCrc (leading :: (before ++ x :: after))).2, cr]) x j
    simpa [buildResponse] using this
  have hcrc := frameCrc_flip_eq_iff (leading :: before) after x hj (by omega)
  have hblind : Blind (before ++ x :: after) (before.length + 1) j ↔
      frameCrc (leading :: (before ++ (x ^^^ bit j) :: after))
        = frameCrc (leading :: (before ++ x :: after)) := by
    refine Iff.trans ?_ hcrc.symm
    unfold Blind blindDistance
    rw [List.length_append, List.length_cons]
    constructor
    · rintro ⟨-, hdist, rfl, hu, hl⟩
      exact ⟨by omega, hu, hl⟩
    · rintro ⟨hdist, hu, hl⟩
      exact ⟨by omega, by omega, by omega, hu, hl⟩
  rw [hflip, parseResponse_append, hblind, if_neg (not_not.mpr rfl), if_neg (not_not.mpr rfl)]
  split_ifs with hne
  · exact ⟨fun _ => hne, fun _ => ⟨_, rfl⟩⟩
  all_goals
    refine ⟨?_, fun h => absurd (not_not.mp hne) h⟩
    rintro ⟨err, herr⟩
    cases herr

/-- A flipped bit in front of the payload or behind it is refused: the frame no longer
starts or ends as it must, or carries another check than its own. -/
theorem frame_flip_refused (payload : List UInt8) {i : Nat}
    (hi : i < (buildResponse payload).length) (hout : i = 0 ∨ payload.length < i) {j : Nat}
    (hj : j < 8) :
    ∃ err, parseResponse (flipBit (buildResponse payload) i j) = .error err := by
  generalize hcrc : frameCrc (leading :: payload) = crc
  obtain ⟨hi₀, lo₀⟩ := crc
  have hframe : buildResponse payload = leading :: payload ++ [hi₀, lo₀, cr] := by
    simp [buildResponse, hcrc]
  have hsize : (buildResponse payload).length = payload.length + 4 := by
    rw [hframe]
    simp
  rw [hframe]
  have hcases : i = 0 ∨ i = payload.length + 1 ∨ i = payload.length + 2 ∨
      i = payload.length + 3 := by omega
  rcases hcases with rfl | rfl | rfl | rfl
  · refine ⟨.notAResponse (leading ^^^ bit j), ?_⟩
    show parseResponse ((leading ^^^ bit j) :: payload ++ [hi₀, lo₀, cr]) = _
    rw [parseResponse_append, if_pos (xor_bit_ne _ hj)]
  · have hflip := flipBit_append (leading :: payload) [lo₀, cr] hi₀ j
    rw [List.length_cons] at hflip
    rw [hflip, parseResponse_append, if_neg (not_not.mpr rfl), if_neg (not_not.mpr rfl), hcrc,
      if_pos fun h => xor_bit_ne hi₀ hj (Prod.mk.inj h).1.symm]
    exact ⟨_, rfl⟩
  · have hflip := flipBit_append (leading :: payload ++ [hi₀]) [cr] lo₀ j
    rw [List.length_append, List.length_cons, List.append_assoc, List.append_assoc] at hflip
    refine ⟨.crc (hi₀, lo₀) (hi₀, lo₀ ^^^ bit j), (congrArg parseResponse hflip).trans ?_⟩
    refine parseResponse_append.trans ?_
    rw [if_neg (not_not.mpr rfl), if_neg (not_not.mpr rfl), hcrc,
      if_pos fun h => xor_bit_ne lo₀ hj (Prod.mk.inj h).2.symm]
  · have hflip := flipBit_append (leading :: payload ++ [hi₀, lo₀]) [] cr j
    rw [List.length_append, List.length_cons, List.append_assoc, List.append_assoc] at hflip
    refine ⟨.unterminated, (congrArg parseResponse hflip).trans ?_⟩
    refine parseResponse_append.trans ?_
    rw [if_neg (not_not.mpr rfl), if_pos (xor_bit_ne cr hj)]

/-- **Single-bit errors**: of every frame with a payload of at most 508 bytes, a flip of
one bit is refused exactly where the check is not blind. -/
theorem single_bit_error_refused_iff {payload : List UInt8} (hlen : payload.length ≤ 508)
    {i : Nat} (hi : i < (buildResponse payload).length) {j : Nat} (hj : j < 8) :
    (∃ err, parseResponse (flipBit (buildResponse payload) i j) = .error err) ↔
      ¬ Blind payload i j := by
  by_cases hout : i = 0 ∨ payload.length < i
  · refine ⟨fun _ => ?_, fun _ => frame_flip_refused payload hi hout hj⟩
    rintro ⟨h₁, h₂, -⟩
    omega
  · obtain ⟨k, rfl⟩ : ∃ k, i = k + 1 := ⟨i - 1, by omega⟩
    have hk : k < payload.length := by omega
    have hsplit : payload = payload.take k ++ payload[k] :: payload.drop (k + 1) := by
      rw [List.getElem_cons_drop, List.take_append_drop]
    have hbefore : (payload.take k).length = k := List.length_take_of_le (by omega)
    have hpart := payload_flip_refused_iff (payload.take k) (payload.drop (k + 1)) payload[k] hj
      (by rwa [← hsplit])
    rwa [← hsplit, hbefore] at hpart

/-- The shortest payload with a blind spot: 273 bytes, whose check is `0D 0B`. -/
def blindPayload : List UInt8 := List.replicate 271 0x30 ++ [96, 105]

theorem length_blindPayload : blindPayload.length = 273 := by
  rw [blindPayload, List.length_append, List.length_replicate]
  rfl

theorem xmodem_blindPayload : xmodem (leading :: blindPayload) = 0x0D0B := by
  rw [← UInt16.toBitVec_inj, xmodem_eq_remainder, Crc.remainder_eq_byStep]
  decide +kernel

theorem single_bit_error_refused_iff_sample :
    ∃ err, parseResponse (flipBit (buildResponse blindPayload) 1 5) = .error err := by
  refine (single_bit_error_refused_iff (by rw [length_blindPayload]; decide)
    (by simp [buildResponse]) (by decide)).mpr ?_
  rintro ⟨-, -, h, -⟩
  exact absurd h (by decide)

/-- The first byte of this payload can turn from `0` to `p` without anyone noticing. -/
theorem single_bit_error_accepted :
    blindPayload.length ≤ 508 ∧
      ¬ ∃ err, parseResponse (flipBit (buildResponse blindPayload) 1 6) = .error err := by
  have hsplit : blindPayload = [] ++ 0x30 :: (List.replicate 270 0x30 ++ [96, 105]) := rfl
  have hlen : blindPayload.length ≤ 508 := by
    rw [length_blindPayload]
    decide
  refine ⟨hlen, fun h => ?_⟩
  rw [hsplit] at hlen h
  refine (payload_flip_refused_iff [] _ 0x30 (show 6 < 8 by decide) hlen).mp h ?_
  rw [← hsplit]
  refine ⟨by decide, by rw [length_blindPayload]; rfl, rfl, ?_⟩
  rw [xmodem_blindPayload]
  decide

end HostServices.Inverter
