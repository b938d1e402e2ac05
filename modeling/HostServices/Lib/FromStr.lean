import Mathlib.Algebra.Group.Nat.Defs
import Mathlib.Data.List.Basic
import Mathlib.Tactic.Common

/-!
# Reading values out of strings, as Rust's standard library does

What `str::parse` accepts for integers and addresses, and the few string
operations that command line code is written with.

- `parseUnsigned`, `parseI64`, `fromStrRadix`: integers with an optional sign,
  refused when they do not fit;
- `IpAddr`, `parseIpAddr`: the dotted and the colon form, in the order the
  standard library tries them;
- `splitOnce`, `splitBy`, `debugStr`: cutting at a character, and `{:?}`.
-/

namespace HostServices.Lib

/-! ## Characters and cuts -/

/-- `char::to_digit`. -/
def toDigit (radix : Nat) (c : Char) : Option Nat :=
  let value :=
    if '0' ≤ c ∧ c ≤ '9' then c.toNat - '0'.toNat
    else if 'a' ≤ c ∧ c ≤ 'z' then c.toNat - 'a'.toNat + 10
    else if 'A' ≤ c ∧ c ≤ 'Z' then c.toNat - 'A'.toNat + 10
    else radix
  if value < radix then some value else none

/-- `char::is_ascii_hexdigit`. -/
def isHexDigit (c : Char) : Bool :=
  c.isDigit || ('a' ≤ c && c ≤ 'f') || ('A' ≤ c && c ≤ 'F')

/-- `str::split_once` at a character: what stands before its first occurrence,
and what stands after it. -/
def splitOnce (c : Char) (s : String) : Option (String × String) :=
  match s.toList.dropWhile (· ≠ c) with
  | [] => none
  | _ :: rest => some (String.ofList (s.toList.takeWhile (· ≠ c)), String.ofList rest)

/-- The cut is made at the first place. -/
theorem splitOnce_of_not_mem {c : Char} {front back : List Char} (h : c ∉ front) :
    splitOnce c (String.ofList (front ++ c :: back))
      = some (String.ofList front, String.ofList back) := by
  have hfront : ∀ d ∈ front, decide (d ≠ c) = true := by
    intro d hd
    exact decide_eq_true fun heq => h (heq ▸ hd)
  rw [splitOnce, String.toList_ofList, List.dropWhile_append_of_pos hfront,
    List.takeWhile_append_of_pos hfront, List.dropWhile_cons_of_neg (by simp),
    List.takeWhile_cons_of_neg (by simp), List.append_nil]

/-- `str::split` at a character. -/
def splitBy (c : Char) (s : String) : List String :=
  (s.toList.splitOn c).map String.ofList

/-- One character of `{:?}`. The escapes of control characters are those of the
first two Latin blocks; the standard library's table of unprintable characters
beyond them is not reproduced. -/
def debugChar (c : Char) : List Char :=
  if c = '"' ∨ c = '\\' then ['\\', c]
  else if c = '\n' then ['\\', 'n']
  else if c = '\r' then ['\\', 'r']
  else if c = '\t' then ['\\', 't']
  else if c.toNat = 0 then ['\\', '0']
  else if c.toNat < 0x20 ∨ (0x7f ≤ c.toNat ∧ c.toNat < 0xa0) then
    ['\\', 'u', Char.ofNat 0x7b] ++ Nat.toDigits 16 c.toNat ++ [Char.ofNat 0x7d]
  else [c]

/-- `{:?}` of a string: quoted, and escaped inside. -/
def debugStr (s : String) : String :=
  String.ofList ('"' :: s.toList.flatMap debugChar ++ ['"'])

/-! ## Integers -/

/-- A non-empty run of decimal digits. -/
def digits : List Char → Option Nat
  | [] => none
  | cs => cs.foldlM (fun n c => (toDigit 10 c).map (10 * n + ·)) 0

/-- `parse` at an unsigned type of `bound` values. -/
def parseUnsigned (bound : Nat) (s : String) : Option Nat :=
  let value :=
    match s.toList with
    | '+' :: cs => digits cs
    | cs => digits cs
  value.filter (· < bound)

/-- `parse::<i64>`. -/
def parseI64 (s : String) : Option Int64 :=
  match s.toList with
  | '+' :: cs => ((digits cs).filter (· < 2 ^ 63)).map Int64.ofNat
  | '-' :: cs => ((digits cs).filter (· ≤ 2 ^ 63)).map fun n => Int64.ofInt (-n)
  | cs => ((digits cs).filter (· < 2 ^ 63)).map Int64.ofNat

/-- `to_string` of an `i64`. -/
def i64Chars (n : Int64) : List Char :=
  if n.toInt < 0 then '-' :: Nat.toDigits 10 n.toInt.natAbs
  else Nat.toDigits 10 n.toInt.natAbs

theorem toDigit_digitChar {n : Nat} (h : n < 10) : toDigit 10 n.digitChar = some n := by
  have hall : ∀ n : Fin 10, toDigit 10 n.val.digitChar = some n.val := by decide
  exact hall ⟨n, h⟩

/-- The digits of a number are read back. -/
theorem digits_toDigits (n : Nat) : digits (Nat.toDigits 10 n) = some n := by
  have hfold : (Nat.toDigits 10 n).foldlM (fun n c => (toDigit 10 c).map (10 * n + ·)) 0
      = some n := by
    induction n using Nat.strongRecOn with
    | ind n ih =>
      by_cases hn : n < 10
      · rw [Nat.toDigits_of_lt_base hn, List.foldlM_cons, toDigit_digitChar hn]
        simp
      · rw [Nat.toDigits_of_base_le (by omega) (by omega), List.foldlM_append,
          ih (n / 10) (by omega)]
        show ([(n % 10).digitChar].foldlM (fun n c => (toDigit 10 c).map (10 * n + ·)) (n / 10))
          = some n
        rw [List.foldlM_cons, toDigit_digitChar (by omega)]
        simp
        omega
  rw [digits]
  · exact hfold
  · exact Nat.toDigits_ne_nil

/-- The first digit of a number is no sign. -/
theorem toDigits_eq_cons (n : Nat) :
    ∃ c cs, Nat.toDigits 10 n = c :: cs ∧ c ≠ '+' ∧ c ≠ '-' := by
  cases hdigits : Nat.toDigits 10 n with
  | nil => exact absurd hdigits Nat.toDigits_ne_nil
  | cons c cs =>
    have hc : c.isDigit := Nat.isDigit_of_mem_toDigits (b := 10) (n := n) (by decide) (by decide)
      (hdigits ▸ List.mem_cons_self)
    refine ⟨c, cs, rfl, ?_, ?_⟩
    · rintro rfl
      exact absurd hc (by decide)
    · rintro rfl
      exact absurd hc (by decide)

theorem parseI64_of_unsigned {c : Char} {cs : List Char} (hplus : c ≠ '+') (hminus : c ≠ '-')
    {n : Nat} (h : digits (c :: cs) = some n) (hn : n < 2 ^ 63) :
    parseI64 (String.ofList (c :: cs)) = some (Int64.ofNat n) := by
  have hfits := Option.filter_some_pos (p := fun x : Nat => decide (x < 2 ^ 63)) (a := n)
    (decide_eq_true hn)
  rw [parseI64, String.toList_ofList]
  split
  · rename_i heq
    exact absurd (List.cons.inj heq).1 hplus
  · rename_i heq
    exact absurd (List.cons.inj heq).1 hminus
  · rw [h, hfits, Option.map_some]

/-- A printed number is read back. -/
theorem parseI64_i64Chars (n : Int64) : parseI64 (String.ofList (i64Chars n)) = some n := by
  have hlt := n.toInt_lt
  have hge := n.le_toInt
  rw [i64Chars]
  split_ifs with hneg
  · rw [parseI64, String.toList_ofList]
    show ((digits (Nat.toDigits 10 n.toInt.natAbs)).filter (· ≤ 2 ^ 63)).map
        (fun n => Int64.ofInt (-n)) = some n
    have hint : -(n.toInt.natAbs : Int) = n.toInt := by omega
    have hfits := Option.filter_some_pos (p := fun x : Nat => decide (x ≤ 2 ^ 63))
      (a := n.toInt.natAbs) (decide_eq_true (by omega))
    rw [digits_toDigits, hfits]
    show some (Int64.ofInt (-(n.toInt.natAbs : Int))) = some n
    rw [hint, Int64.ofInt_toInt]
  · obtain ⟨c, cs, hdigits, hplus, hminus⟩ := toDigits_eq_cons n.toInt.natAbs
    have hint : ((n.toInt.natAbs : Nat) : Int) = n.toInt := by omega
    have hread := digits_toDigits n.toInt.natAbs
    rw [hdigits] at hread ⊢
    rw [parseI64_of_unsigned hplus hminus hread (by omega), ← Int64.ofInt_eq_ofNat, hint,
      Int64.ofInt_toInt]

/-- A non-empty run of digits in any radix. -/
def radixDigits (radix : Nat) : List Char → Option Nat
  | [] => none
  | cs => cs.foldlM (fun n c => (toDigit radix c).map (radix * n + ·)) 0

/-- `from_str_radix` at an unsigned type of `bound` values. -/
def fromStrRadix (radix bound : Nat) (s : String) : Option Nat :=
  let value :=
    match s.toList with
    | '+' :: cs => radixDigits radix cs
    | cs => radixDigits radix cs
  value.filter (· < bound)

theorem fromStrRadix_of_unsigned {radix bound : Nat} {c : Char} {cs : List Char} (h : c ≠ '+') :
    fromStrRadix radix bound (String.ofList (c :: cs))
      = (radixDigits radix (c :: cs)).filter (· < bound) := by
  rw [fromStrRadix, String.toList_ofList]
  split
  · rename_i heq
    exact absurd (List.cons.inj heq).1 h
  · rfl

/-! ## Addresses -/

/-- `std::net::IpAddr`. -/
inductive IpAddr
  | v4 (bits : BitVec 32)
  | v6 (bits : BitVec 128)
  deriving DecidableEq, Repr

/-- `read_number`: digits up to the first character that is none, at most
`maxDigits` of them, and no leading zero unless it is allowed. -/
def readNumber (radix maxDigits : Nat) (zeroLead : Bool) (cs : List Char) :
    Option (Nat × List Char) :=
  let ds := (cs.takeWhile fun c => (toDigit radix c).isSome).filterMap (toDigit radix)
  if ds.length = 0 ∨ maxDigits < ds.length then none
  else if !zeroLead && cs.head? == some '0' && 1 < ds.length then none
  else some (ds.foldl (fun n d => radix * n + d) 0, cs.drop ds.length)

/-- `read_separator`: a separator in front of every part but the first. -/
def readSeparator {α : Type} (sep : Char) (i : Nat)
    (inner : List Char → Option (α × List Char)) (cs : List Char) :
    Option (α × List Char) :=
  if i = 0 then inner cs
  else
    match cs with
    | [] => none
    | c :: cs => if c = sep then inner cs else none

/-- `read_ipv4_addr`: four decimal octets. -/
def readIpv4 (cs : List Char) : Option (BitVec 32 × List Char) :=
  let octet (i : Nat) (cs : List Char) : Option (Nat × List Char) :=
    (readSeparator '.' i (readNumber 10 3 false) cs).filter (·.1 < 256)
  do
    let (a, cs) ← octet 0 cs
    let (b, cs) ← octet 1 cs
    let (c, cs) ← octet 2 cs
    let (d, cs) ← octet 3 cs
    pure (BitVec.ofNat 32 (((a * 256 + b) * 256 + c) * 256 + d), cs)

/-- `read_groups` with `left` slots to fill, of which the first is number `i`:
the groups read, and whether they end in an embedded dotted address. -/
def readGroups (i : Nat) : Nat → List Char → List Nat × Bool × List Char
  | 0, cs => ([], false, cs)
  | left + 1, cs =>
    -- an embedded address takes two slots
    match if 1 ≤ left then readSeparator ':' i readIpv4 cs else none with
    | some (v4, cs) => ([v4.toNat / 65536, v4.toNat % 65536], true, cs)
    | none =>
      match readSeparator ':' i (readNumber 16 4 true) cs with
      | some (group, cs) =>
        let rest := readGroups (i + 1) left cs
        (group :: rest.1, rest.2)
      | none => ([], false, cs)

/-- The eight groups of an address as one number. -/
def ofGroups (groups : List Nat) : BitVec 128 :=
  BitVec.ofNat 128 (groups.foldl (fun n g => 65536 * n + g) 0)

/-- `read_ipv6_addr`: eight groups, or `::` for the zeros that are missing. -/
def readIpv6 (cs : List Char) : Option (BitVec 128 × List Char) :=
  match readGroups 0 8 cs with
  | (head, headIpv4, cs) =>
    if head.length = 8 then some (ofGroups head, cs)
    else if headIpv4 then none
    else
      match cs with
      | ':' :: ':' :: cs =>
        let limit := 8 - (head.length + 1)
        match readGroups 0 limit cs with
        | (tail, _, cs) =>
          some (ofGroups (head ++ List.replicate (8 - head.length - tail.length) 0 ++ tail), cs)
      | _ => none

/-- `parse::<IpAddr>`: the dotted form is tried first, and nothing may follow. -/
def parseIpAddr (s : String) : Option IpAddr :=
  let read : Option (IpAddr × List Char) :=
    match readIpv4 s.toList with
    | some (bits, rest) => some (.v4 bits, rest)
    | none => (readIpv6 s.toList).map fun (bits, rest) => (.v6 bits, rest)
  match read with
  | some (address, []) => some address
  | _ => none

end HostServices.Lib
