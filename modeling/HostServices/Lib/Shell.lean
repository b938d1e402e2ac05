import Mathlib.Data.Nat.Digits.Lemmas
import Mathlib.Data.List.DropRight

/-!
# Numbers in shell scripts

A script keeps a number in a file: it prints the number and a newline, and later reads the
file into a variable and computes with it. Here is what the shell makes of the bytes.

- `substitute`: what `"$(cat file)"` expands to;
- `decimal`: a number as a program prints it;
- `wrap`, `constant`: the shell's 64-bit arithmetic and its integer constants;
- `Arithmetic`: what an arithmetic expansion makes of the text of a variable;
- `legalNumber`, `greater`: the operands of `[ .. -gt .. ]` and the comparison;
- `substitute_decimal`, `constant_decimal`, `legalNumber_decimalInt`: a number that was printed
  is read back.
-/

namespace HostServices.Lib.Shell

/-! ## Text -/

/-- `\n` -/
def newline : UInt8 := 0x0A

/-- Command substitution drops NUL bytes and the newlines at the end. -/
def substitute (output : List UInt8) : List UInt8 :=
  (output.filter (· ≠ 0)).rdropWhile (· = newline)

/-- The byte is a decimal digit. -/
def isDigit (byte : UInt8) : Bool := 0x30 ≤ byte && byte ≤ 0x39

/-- Neither empty nor matched by `*[!0-9]*`. -/
def isNumeric (text : List UInt8) : Bool := !text.isEmpty && text.all isDigit

/-- The byte of a decimal digit. -/
def digit (d : Nat) : UInt8 := UInt8.ofNat (0x30 + d)

/-- A number in decimal. -/
def decimal (n : Nat) : List UInt8 :=
  if n = 0 then [digit 0] else ((Nat.digits 10 n).map digit).reverse

theorem toNat_digit {d : Nat} (h : d < 10) : (digit d).toNat = 0x30 + d := by
  rw [digit, UInt8.toNat_ofNat']
  exact Nat.mod_eq_of_lt (by omega)

theorem isDigit_digit {d : Nat} (h : d < 10) : isDigit (digit d) = true := by
  rw [isDigit, Bool.and_eq_true, decide_eq_true_iff, decide_eq_true_iff, UInt8.le_iff_toNat_le,
    UInt8.le_iff_toNat_le, toNat_digit h]
  exact ⟨Nat.le_add_right _ _, by show 0x30 + d ≤ 0x39; omega⟩

theorem isDigit_of_mem_decimal {n : Nat} {byte : UInt8} (h : byte ∈ decimal n) :
    isDigit byte = true := by
  rw [decimal] at h
  split_ifs at h with hn
  · rw [List.mem_singleton.mp h]
    decide
  · rw [List.mem_reverse, List.mem_map] at h
    obtain ⟨d, hd, rfl⟩ := h
    exact isDigit_digit (Nat.digits_lt_base (by decide) hd)

theorem decimal_ne_nil (n : Nat) : decimal n ≠ [] := by
  rw [decimal]
  split_ifs with hn
  · exact List.cons_ne_nil _ _
  · rw [ne_eq, List.reverse_eq_nil_iff, List.map_eq_nil_iff]
    exact Nat.digits_ne_nil_iff_ne_zero.mpr hn

/-- A numeral has digits, and nothing else. -/
theorem isNumeric_iff {text : List UInt8} :
    isNumeric text = true ↔ text ≠ [] ∧ ∀ byte ∈ text, isDigit byte = true := by
  rw [isNumeric, Bool.and_eq_true, Bool.not_eq_true', List.isEmpty_eq_false_iff, List.all_eq_true]

theorem isNumeric_decimal (n : Nat) : isNumeric (decimal n) = true :=
  isNumeric_iff.mpr ⟨decimal_ne_nil n, fun _ hbyte => isDigit_of_mem_decimal hbyte⟩

/-- A line of text without NUL is read back. -/
theorem substitute_line {text : List UInt8} (h : ∀ byte ∈ text, byte ≠ 0 ∧ byte ≠ newline) :
    substitute (text ++ [newline]) = text := by
  have hzero : (text ++ [newline]).filter (· ≠ 0) = text ++ [newline] := by
    rw [List.filter_eq_self]
    intro byte hbyte
    rw [List.mem_append, List.mem_singleton] at hbyte
    rcases hbyte with hbyte | rfl
    · exact decide_eq_true (h byte hbyte).1
    · decide
  rw [substitute, hzero, List.rdropWhile_concat_pos _ _ _ (by decide), List.rdropWhile_eq_self_iff]
  intro hne hlast
  exact (h _ (List.getLast_mem hne)).2 (decide_eq_true_iff.mp hlast)

theorem substitute_cons_eq {byte : UInt8} (hzero : byte ≠ 0) (output : List UInt8) :
    substitute (byte :: output)
      = if substitute output = [] then (if byte = newline then [] else [byte])
        else byte :: substitute output := by
  have hfilter : (byte :: output).filter (· ≠ 0) = byte :: output.filter (· ≠ 0) :=
    List.filter_cons_of_pos (decide_eq_true hzero)
  rw [substitute, substitute, hfilter, List.rdropWhile, List.rdropWhile, List.reverse_cons,
    List.dropWhile_append]
  by_cases hempty : (output.filter (· ≠ 0)).reverse.dropWhile (fun b => decide (b = newline)) = []
  · rw [hempty, if_pos List.isEmpty_nil, if_pos List.reverse_nil]
    rw [List.dropWhile_cons, List.dropWhile_nil]
    by_cases hnewline : byte = newline
    · rw [if_pos hnewline, if_pos (decide_eq_true hnewline)]
      rfl
    · rw [if_neg hnewline, if_neg (by simpa using hnewline)]
      rfl
  · rw [if_neg (by simpa using hempty), if_neg (by simpa using hempty), List.reverse_append]
    rfl

/-- What is printed first stays first. -/
theorem substitute_cons {byte : UInt8} (hzero : byte ≠ 0) (hnewline : byte ≠ newline)
    (output : List UInt8) : ∃ rest, substitute (byte :: output) = byte :: rest := by
  rw [substitute_cons_eq hzero]
  by_cases hempty : substitute output = []
  · rw [if_pos hempty, if_neg hnewline]
    exact ⟨[], rfl⟩
  · rw [if_neg hempty]
    exact ⟨_, rfl⟩

/-- Only at the end are newlines dropped. -/
theorem substitute_append {text output : List UInt8} (hzero : ∀ byte ∈ text, byte ≠ 0)
    (hne : substitute output ≠ []) : substitute (text ++ output) = text ++ substitute output := by
  induction text with
  | nil => rfl
  | cons byte text ih =>
    rw [List.forall_mem_cons] at hzero
    have htail := ih hzero.2
    rw [List.cons_append, substitute_cons_eq hzero.1, htail, if_neg, List.cons_append]
    exact List.append_ne_nil_of_right_ne_nil _ hne

theorem ne_of_isDigit {byte : UInt8} (h : isDigit byte = true) : byte ≠ 0 ∧ byte ≠ newline := by
  constructor <;>
  · rintro rfl
    revert h
    decide

theorem plain_of_isNumeric {text : List UInt8} (h : isNumeric text = true) :
    ∀ byte ∈ text, byte ≠ 0 ∧ byte ≠ newline := fun byte hbyte =>
  ne_of_isDigit ((isNumeric_iff.mp h).2 byte hbyte)

/-- **A number that was printed on a line is read back.** -/
theorem substitute_decimal (n : Nat) : substitute (decimal n ++ [newline]) = decimal n :=
  substitute_line (plain_of_isNumeric (isNumeric_decimal n))

/-! ## Arithmetic -/

/-- The shell computes in 64 bits. -/
@[irreducible] def wrap (n : Int) : Int := n.bmod (2 ^ 64)

/-- In range nothing wraps around. -/
theorem wrap_of_lt {n : Int} (hlow : -2 ^ 63 ≤ n) (hhigh : n < 2 ^ 63) : wrap n = n := by
  rw [wrap]
  exact Int.bmod_eq_of_le (by omega) (by omega)

theorem wrap_zero : wrap 0 = 0 := wrap_of_lt (by omega) (by omega)

theorem wrap_le {n : Int} (h : 0 ≤ n) : wrap n ≤ n := by
  have hmod : wrap n ≤ n % ((2 ^ 64 : Nat) : Int) := by
    rw [wrap, Int.bmod]
    split_ifs <;> omega
  have hdiv : 0 ≤ n / ((2 ^ 64 : Nat) : Int) := Int.ediv_nonneg h (by omega)
  have hsplit := Int.mul_ediv_add_emod n ((2 ^ 64 : Nat) : Int)
  omega

theorem neg_two_pow_le_wrap (n : Int) : -2 ^ 63 ≤ wrap n := by
  rw [wrap]
  exact Int.le_bmod (by decide)

theorem wrap_lt_two_pow (n : Int) : wrap n < 2 ^ 63 := by
  rw [wrap]
  exact Int.bmod_lt (by decide)

/-- A sum may be wrapped around at any time. -/
theorem wrap_wrap_add (m n : Int) : wrap (wrap m + n) = wrap (m + n) := by
  rw [wrap, wrap, wrap, Int.bmod_add_bmod]

/-- The number that digits stand for. -/
def value (base : Nat) (text : List UInt8) : Nat :=
  text.foldl (fun acc byte => acc * base + (byte.toNat - 0x30)) 0

/-- Digits as a constant in an arithmetic expansion: octal after a zero, where 8 and 9 are an
error. -/
def constant (text : List UInt8) : Option Int :=
  if text.head? = some (digit 0) then
    if text.all (· < 0x38) then some (wrap (value 8 text)) else none
  else some (wrap (value 10 text))

theorem value_decimal (n : Nat) : value 10 (decimal n) = n := by
  rw [decimal]
  split_ifs with hn
  · rw [hn]
    decide
  · have hdigits : ∀ l : List Nat, (∀ d ∈ l, d < 10) →
        value 10 (l.map digit).reverse = Nat.ofDigits 10 l := by
      intro l
      induction l with
      | nil => exact fun _ => rfl
      | cons d l ih =>
        intro hl
        rw [List.forall_mem_cons] at hl
        rw [value, List.map_cons, List.reverse_cons, List.foldl_append,
          show List.foldl _ 0 (l.map digit).reverse = _ from ih hl.2, Nat.ofDigits_cons]
        simp only [List.foldl_cons, List.foldl_nil, toNat_digit hl.1]
        omega
    rw [hdigits _ fun d hd => Nat.digits_lt_base (by decide) hd, Nat.ofDigits_digits]

theorem head_decimal {n : Nat} (hn : n ≠ 0) : (decimal n).head? ≠ some (digit 0) := by
  have hne : Nat.digits 10 n ≠ [] := Nat.digits_ne_nil_iff_ne_zero.mpr hn
  rw [decimal, if_neg hn, List.head?_reverse, List.getLast?_map, List.getLast?_eq_some_getLast hne,
    Option.map_some, ne_eq, Option.some.injEq]
  intro hzero
  have hlt : (Nat.digits 10 n).getLast hne < 10 :=
    Nat.digits_lt_base (by decide) (List.getLast_mem hne)
  have htoNat := congrArg UInt8.toNat hzero
  rw [toNat_digit hlt, toNat_digit (by decide)] at htoNat
  exact Nat.getLast_digit_ne_zero 10 hn (by omega)

/-- **A number that was printed is the constant that is read.** -/
theorem constant_decimal {n : Nat} (h : n < 2 ^ 63) : constant (decimal n) = some (n : Int) := by
  by_cases hn : n = 0
  · rw [hn]
    decide +kernel
  · rw [constant, if_neg (head_decimal hn), value_decimal, wrap_of_lt (by omega) (by omega)]

/-- A factor of a product may be wrapped before. -/
theorem wrap_wrap_mul (m n : Int) : wrap (wrap m * n) = wrap (m * n) := by
  rw [wrap, wrap, wrap, Int.bmod_mul_bmod]

/-- Digits stand for less in octal than in decimal. -/
theorem value_octal_le (text : List UInt8) : value 8 text ≤ value 10 text := by
  have hfold : ∀ a b, a ≤ b →
      text.foldl (fun acc byte => acc * 8 + (byte.toNat - 0x30)) a
        ≤ text.foldl (fun acc byte => acc * 10 + (byte.toNat - 0x30)) b := by
    induction text with
    | nil => exact fun a b h => h
    | cons byte text ih =>
      intro a b h
      refine ih _ _ ?_
      show a * 8 + (byte.toNat - 0x30) ≤ b * 10 + (byte.toNat - 0x30)
      omega
  exact hfold 0 0 (Nat.le_refl 0)

/-- A constant of digits does not exceed what they stand for in decimal. -/
theorem constant_le {text : List UInt8} {n : Int} (h : constant text = some n) :
    ∃ v : Nat, n = wrap v ∧ v ≤ value 10 text := by
  rw [constant] at h
  split_ifs at h with hzero hoctal
  · exact ⟨value 8 text, (Option.some_inj.mp h).symm, value_octal_le text⟩
  · exact ⟨value 10 text, (Option.some_inj.mp h).symm, Nat.le_refl _⟩

/-! ## Signs -/

/-- `-` -/
def minus : UInt8 := 0x2D

/-- An integer as `%d` prints it. -/
def decimalInt (n : Int) : List UInt8 :=
  if n < 0 then minus :: decimal n.natAbs else decimal n.natAbs

/-- The line feed behind a number is taken off. -/
theorem substitute_decimalInt (n : Int) :
    substitute (decimalInt n ++ [newline]) = decimalInt n := by
  refine substitute_line fun byte hbyte => ?_
  rw [decimalInt] at hbyte
  split_ifs at hbyte with hneg
  · rcases List.mem_cons.mp hbyte with rfl | hdigit
    · decide
    · exact ne_of_isDigit (isDigit_of_mem_decimal hdigit)
  · exact ne_of_isDigit (isDigit_of_mem_decimal hbyte)

/-- What an arithmetic expansion makes of the text of a variable, at one place of a script. Names
and operators are left open: `none` where the text is no expression. -/
structure Arithmetic where
  eval : List UInt8 → Option Int
  empty : eval [] = some 0
  digits : ∀ text, isNumeric text = true → eval text = constant text
  negated : ∀ text, isNumeric text = true →
    eval (minus :: text) = (constant text).map fun n => wrap (-n)

/-- A number in range is read back. -/
theorem Arithmetic.eval_decimalInt (arith : Arithmetic) {n : Int} (hlow : -2 ^ 63 < n)
    (hhigh : n < 2 ^ 63) : arith.eval (decimalInt n) = some n := by
  have hconstant : constant (decimal n.natAbs) = some (n.natAbs : Int) :=
    constant_decimal (by omega)
  rw [decimalInt]
  split_ifs with hneg
  · rw [arith.negated _ (isNumeric_decimal _), hconstant, Option.map_some, Option.some_inj,
      wrap_of_lt (by omega) (by omega)]
    omega
  · rw [arith.digits _ (isNumeric_decimal _), hconstant, Option.some_inj]
    omega

/-! ## Comparison -/

/-- `isspace`. -/
def isSpace (byte : UInt8) : Bool := byte = 0x20 || (0x09 ≤ byte && byte ≤ 0x0D)

/-- A blank or a tab. -/
def isBlank (byte : UInt8) : Bool := byte = 0x20 || byte = 0x09

/-- A sign, and what is behind it. -/
def signed : List UInt8 → Bool × List UInt8
  | 0x2D :: rest => (true, rest)
  | 0x2B :: rest => (false, rest)
  | text => (false, text)

/-- Digits, and nothing but blanks behind them. -/
def unsigned (text : List UInt8) : Option Nat :=
  let digits := text.takeWhile isDigit
  if digits.isEmpty || !(text.dropWhile isDigit).all isBlank then none else some (value 10 digits)

/-- An operand of a comparison: a number in decimal that fits into 64 bits, with blanks around
it. -/
def legalNumber (text : List UInt8) : Option Int :=
  let (negative, body) := signed (text.dropWhile isSpace)
  (unsigned body).bind fun v =>
    let n : Int := if negative then -v else v
    if -2 ^ 63 ≤ n ∧ n < 2 ^ 63 then some n else none

/-- `[ left -gt right ]`: `none` is the status for an operand that is no number. -/
def greater (left right : List UInt8) : Option Bool :=
  match legalNumber left, legalNumber right with
  | some m, some n => some (n < m)
  | _, _ => none

theorem isSpace_of_isDigit {byte : UInt8} (h : isDigit byte = true) : isSpace byte = false := by
  rw [isDigit, Bool.and_eq_true, decide_eq_true_iff, decide_eq_true_iff, UInt8.le_iff_toNat_le,
    UInt8.le_iff_toNat_le] at h
  have hlow : 48 ≤ byte.toNat := h.1
  rw [isSpace, Bool.or_eq_false_iff, Bool.and_eq_false_iff, decide_eq_false_iff_not,
    decide_eq_false_iff_not, decide_eq_false_iff_not, UInt8.le_iff_toNat_le,
    UInt8.le_iff_toNat_le, UInt8.ext_iff]
  show ¬ byte.toNat = 32 ∧ (¬ 9 ≤ byte.toNat ∨ ¬ byte.toNat ≤ 13)
  omega

theorem signed_digit {byte : UInt8} (h : isDigit byte = true) (text : List UInt8) :
    signed (byte :: text) = (false, byte :: text) := by
  rw [signed]
  · intro rest heq
    rw [(List.cons.inj heq).1] at h
    revert h
    decide
  · intro rest heq
    rw [(List.cons.inj heq).1] at h
    revert h
    decide

/-- Digits are read as the number they write. -/
theorem unsigned_digits {text : List UInt8} (h : isNumeric text = true) :
    unsigned text = some (value 10 text) := by
  obtain ⟨hne, hall⟩ := isNumeric_iff.mp h
  have htake : text.takeWhile isDigit = text := List.takeWhile_eq_self_iff.mpr hall
  have hdrop : text.dropWhile isDigit = [] := List.dropWhile_eq_nil_iff.mpr hall
  rw [unsigned, htake, hdrop, List.isEmpty_eq_false_iff.mpr hne]
  rfl

/-- Digits first: there is no sign. -/
theorem legalNumber_digit {byte : UInt8} (h : isDigit byte = true) (text : List UInt8) :
    legalNumber (byte :: text) = (unsigned (byte :: text)).bind fun v =>
      if (v : Int) < 2 ^ 63 then some (v : Int) else none := by
  rw [legalNumber, List.dropWhile_cons_of_neg
    (by rw [isSpace_of_isDigit h]; exact Bool.false_ne_true), signed_digit h]
  refine congrArg (unsigned (byte :: text)).bind (funext fun v => ?_)
  have hlow : -2 ^ 63 ≤ (v : Int) := by omega
  show (if -2 ^ 63 ≤ (v : Int) ∧ (v : Int) < 2 ^ 63 then some (v : Int) else none) = _
  by_cases hfits : (v : Int) < 2 ^ 63
  · rw [if_pos ⟨hlow, hfits⟩, if_pos hfits]
  · rw [if_neg fun h => hfits h.2, if_neg hfits]

/-- What is no blank, no sign and no digit begins no number. -/
theorem legalNumber_cons_eq_none {byte : UInt8} {text : List UInt8} (hspace : isSpace byte = false)
    (hsigned : signed (byte :: text) = (false, byte :: text)) (hdigit : isDigit byte = false) :
    legalNumber (byte :: text) = none := by
  have hunsigned : unsigned (byte :: text) = none := by
    rw [unsigned, List.takeWhile_cons_of_neg (by rw [hdigit]; exact Bool.false_ne_true)]
    rfl
  rw [legalNumber, List.dropWhile_cons_of_neg (by rw [hspace]; exact Bool.false_ne_true), hsigned]
  show (unsigned (byte :: text)).bind _ = none
  rw [hunsigned, Option.bind_none]

/-- An operand of digits is legal up to 64 bits. -/
theorem legalNumber_digits {text : List UInt8} (h : isNumeric text = true) :
    legalNumber text
      = if (value 10 text : Int) < 2 ^ 63 then some (value 10 text : Int) else none := by
  have hunsigned := unsigned_digits h
  obtain ⟨hne, hall⟩ := isNumeric_iff.mp h
  obtain ⟨byte, rest, rfl⟩ := List.exists_cons_of_ne_nil hne
  rw [legalNumber_digit (hall byte List.mem_cons_self), hunsigned, Option.bind_some]

/-- Something else behind the digits. -/
theorem legalNumber_append_eq_none {text rest : List UInt8} {byte : UInt8}
    (h : isNumeric text = true) (hdigit : isDigit byte = false) (hblank : isBlank byte = false) :
    legalNumber (text ++ byte :: rest) = none := by
  obtain ⟨hne, hall⟩ := isNumeric_iff.mp h
  have hstop : ¬ isDigit byte = true := by
    rw [hdigit]
    exact Bool.false_ne_true
  have hunsigned : unsigned (text ++ byte :: rest) = none := by
    rw [unsigned, List.takeWhile_append_of_pos hall, List.dropWhile_append_of_pos hall,
      List.takeWhile_cons_of_neg hstop, List.dropWhile_cons_of_neg hstop, List.all_cons, hblank]
    simp
  obtain ⟨first, text, rfl⟩ := List.exists_cons_of_ne_nil hne
  rw [List.cons_append] at hunsigned ⊢
  rw [legalNumber_digit (hall first List.mem_cons_self), hunsigned, Option.bind_none]

/-- **A number that was printed is the operand that is read.** -/
theorem legalNumber_decimalInt {n : Int} (hlow : -2 ^ 63 ≤ n) (hhigh : n < 2 ^ 63) :
    legalNumber (decimalInt n) = some n := by
  rw [decimalInt]
  split_ifs with hneg
  · rw [legalNumber, List.dropWhile_cons_of_neg (by decide)]
    show (unsigned (decimal n.natAbs)).bind _ = _
    rw [unsigned_digits (isNumeric_decimal _), Option.bind_some, value_decimal]
    show (if -2 ^ 63 ≤ -(n.natAbs : Int) ∧ -(n.natAbs : Int) < 2 ^ 63 then
      some (-(n.natAbs : Int)) else none) = some n
    rw [show -(n.natAbs : Int) = n by omega, if_pos ⟨hlow, hhigh⟩]
  · rw [legalNumber_digits (isNumeric_decimal _), value_decimal,
      show (n.natAbs : Int) = n by omega, if_pos hhigh]

/-- Comparing a number in range with a text. -/
theorem greater_decimalInt {m : Int} (hlow : -2 ^ 63 ≤ m) (hhigh : m < 2 ^ 63)
    {right : List UInt8} :
    greater (decimalInt m) right = some true ↔ ∃ n, legalNumber right = some n ∧ n < m := by
  rw [greater, legalNumber_decimalInt hlow hhigh]
  cases legalNumber right with
  | none => simp
  | some n => simp

end HostServices.Lib.Shell
