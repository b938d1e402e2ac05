import HostServices.Lib.Lines
import HostServices.Lib.Utf8

/-!
# The plan of an upgrade (`lib/upgrade-plan-parse.nix`)

`nix build --dry-run` prints for people what it is going to build: a header with a number, and the
derivations. The script finds the derivations by their shape, and compares how many they are with
the number of the header. What nix prints is a `TextFile`: in a file with a null byte `grep` would
find nothing. A character of a pattern is a byte, as in the C locale.

- `isEntry`, `headerCount`: the patterns of the source;
- `parsePlan`: the script;
- `accepted_iff`: the texts that it accepts;
- `Plan`: a plan as nix prints it;
- `understood_iff`: the texts of which it accepts only what it has understood.
-/

namespace HostServices.Scripts.UpgradePlan

open HostServices.Lib HostServices.Lib.Shell

/-! ## Patterns -/

/-- A blank. -/
def space : UInt8 := 0x20

/-- `-` -/
def dash : UInt8 := 0x2D

/-- `[a-z0-9]` -/
def isHashByte (byte : UInt8) : Bool :=
  (0x61 ≤ byte && byte ≤ 0x7A) || (0x30 ≤ byte && byte ≤ 0x39)

/-- What a store path begins with. -/
def storePrefix : List UInt8 := utf8Bytes "/nix/store/"

/-- What a derivation's path ends with. -/
def drvSuffix : List UInt8 := utf8Bytes ".drv"

/-- `^  /nix/store/[a-z0-9]{32}-.*[.]drv$` -/
def isEntry (line : List UInt8) : Bool :=
  let behind := line.drop (2 + storePrefix.length)
  (space :: space :: storePrefix).isPrefixOf line
    && ((behind.take 32).length == 32 && (behind.take 32).all isHashByte)
    && (behind.drop 32).head? == some dash
    && drvSuffix.isSuffixOf (behind.drop 33)

/-- What stands in front of the number in a plural header. -/
def headerFront : List UInt8 := utf8Bytes "these "

/-- What stands behind the number in a plural header. -/
def headerBack : List UInt8 := utf8Bytes " derivations will be built:"

/-- The second word of a line `^these [0-9]+ derivations will be built:$`. -/
def headerCount (line : List UInt8) : Option (List UInt8) :=
  let number := (line.drop headerFront.length).take
    (line.length - headerFront.length - headerBack.length)
  if line = headerFront ++ number ++ headerBack ∧ isNumeric number = true then some number else none

/-- The header of a plan for one derivation. -/
def singularHeader : List UInt8 := utf8Bytes "this derivation will be built:"

/-! ## The script -/

/-- What the script prints and returns. -/
structure Result where
  status : Nat
  output : List (List UInt8) := []
  errors : List (List UInt8) := []

/-- `[ left -ne right ]`: `none` is the status for an operand that is no number. -/
def notEqual (left right : List UInt8) : Option Bool :=
  match legalNumber left, legalNumber right with
  | some m, some n => some (m ≠ n)
  | _, _ => none

/-- `grep | tr` -/
def entries (plan : TextFile) : List (List UInt8) :=
  (plan.lines.filter isEntry).map (List.filter (· ≠ space))

/-- `$todo` -/
def todo (collation : Collation (List UInt8)) (plan : TextFile) : List (List UInt8) :=
  sortUnique collation (entries plan)

/-- `$expected` -/
def expected (plan : TextFile) : List UInt8 :=
  let counts := substitute (unlines (plan.lines.filterMap headerCount))
  if counts = [] then
    if singularHeader ∈ plan.lines then utf8Bytes "1" else utf8Bytes "0"
  else counts

/-- The script: the entries are printed, unless their number is not the one announced. -/
def parsePlan (collation : Collation (List UInt8)) (plan : TextFile) : Result :=
  let count := decimal (todo collation plan).length
  -- an operand that is no number is an error, and an error is not true
  if notEqual count (expected plan) = some true then
    { status := 1
      errors := (utf8Bytes "nixos-upgrade-plan-parse: parsed " ++ count
        ++ utf8Bytes " derivations but nix planned " ++ expected plan
        ++ utf8Bytes "; refusing to continue") :: plan.lines.take 20 }
  else { status := 0, output := todo collation plan }

/-! ## What it is to accept -/

/-- The numbers of the plural headers. -/
def headers (plan : TextFile) : List (List UInt8) := plan.lines.filterMap headerCount

/-- What is accepted has been understood: every header is about the lines that are printed. -/
structure Understood (plan : TextFile) (output : List (List UInt8)) : Prop where
  plural : ∀ number ∈ headers plan, value 10 number = output.length
  singular : headers plan = [] → singularHeader ∈ plan.lines → output.length = 1
  none : headers plan = [] → singularHeader ∉ plan.lines → output = []

/-! ## Plans -/

/-- A derivation, by the hash and the name in its path. -/
structure Derivation where
  hash : List UInt8
  name : List UInt8
  hash_length : hash.length = 32
  hash_bytes : hash.all isHashByte = true
  name_plain : space ∉ name ∧ IsTextLine name

/-- The store path of the derivation. -/
def Derivation.path (d : Derivation) : List UInt8 :=
  storePrefix ++ d.hash ++ [dash] ++ d.name ++ drvSuffix

/-- A line that is neither a header nor a derivation. -/
structure IsNoise (line : List UInt8) : Prop where
  text : IsTextLine line
  not_entry : isEntry line = false
  not_plural : headerCount line = none
  not_singular : line ≠ singularHeader

/-- A line of a plan. -/
inductive PlanLine
  /-- how many derivations there are -/
  | header
  | derivation (d : Derivation)
  /-- a path to be fetched -/
  | fetched (path : List UInt8) (text : IsTextLine path) (not_drv : ¬ drvSuffix <:+ path)
  | noise (line : List UInt8) (h : IsNoise line)

namespace PlanLine

/-- The derivation that the line lists. -/
def derivation? : PlanLine → Option Derivation
  | derivation d => some d
  | _ => none

/-- The line announces how many derivations will be built. -/
def isHeader : PlanLine → Bool
  | header => true
  | _ => false

/-- The header of a plan of `n` derivations. -/
def headerLine (n : Nat) : List UInt8 :=
  if n = 1 then singularHeader else headerFront ++ decimal n ++ headerBack

/-- The text of the line, in a plan that announces `n`. -/
def content (n : Nat) : PlanLine → List UInt8
  | header => headerLine n
  | derivation d => space :: space :: d.path
  | fetched path _ _ => space :: space :: path
  | noise line _ => line

end PlanLine

/-- The lines of a plan in any order, with one header unless there is nothing to build. -/
structure Plan where
  lines : List PlanLine
  distinct : ((lines.filterMap PlanLine.derivation?).map Derivation.path).Nodup
  one_header : lines.countP PlanLine.isHeader
    = if lines.filterMap PlanLine.derivation? = [] then 0 else 1

namespace Plan

/-- The derivations that the plan lists. -/
def derivations (p : Plan) : List Derivation := p.lines.filterMap PlanLine.derivation?

end Plan

/-! ## The comparison -/

/-- `-ne` is true of two numbers that differ, and of nothing else. -/
theorem notEqual_eq_true {left right : List UInt8} :
    notEqual left right = some true ↔
      ∃ m n, legalNumber left = some m ∧ legalNumber right = some n ∧ m ≠ n := by
  rw [notEqual]
  cases legalNumber left with
  | none => simp
  | some m =>
    cases legalNumber right with
    | none => simp
    | some n => simp

theorem legalNumber_decimal (n : Nat) :
    legalNumber (decimal n) = if (n : Int) < 2 ^ 63 then some (n : Int) else none := by
  rw [legalNumber_digits (isNumeric_decimal n), value_decimal]

theorem isNumeric_of_headerCount {line number : List UInt8} (h : headerCount line = some number) :
    isNumeric number = true := by
  rw [headerCount] at h
  split_ifs at h with hboth
  rw [← Option.some_inj.mp h]
  exact hboth.2

theorem isNumeric_of_mem_headers {plan : TextFile} {number : List UInt8}
    (h : number ∈ headers plan) : isNumeric number = true := by
  obtain ⟨line, _, hcount⟩ := List.mem_filterMap.mp h
  exact isNumeric_of_headerCount hcount

theorem expected_nil {plan : TextFile} (h : headers plan = []) :
    expected plan = if singularHeader ∈ plan.lines then utf8Bytes "1" else utf8Bytes "0" := by
  have hcounts : plan.lines.filterMap headerCount = [] := h
  rw [expected, hcounts]
  rfl

theorem expected_singleton {plan : TextFile} {number : List UInt8} (h : headers plan = [number]) :
    expected plan = number := by
  have hnumeric : isNumeric number = true :=
    isNumeric_of_mem_headers (h ▸ List.mem_singleton.mpr rfl)
  have hcounts : substitute (unlines (plan.lines.filterMap headerCount)) = number := by
    rw [show plan.lines.filterMap headerCount = [number] from h]
    show substitute (number ++ [newline] ++ []) = number
    rw [List.append_nil, substitute_line (plain_of_isNumeric hnumeric)]
  rw [expected, hcounts, if_neg (isNumeric_iff.mp hnumeric).1]

/-- Several headers are no number. -/
theorem legalNumber_expected_cons {plan : TextFile} {number number' : List UInt8}
    {others : List (List UInt8)} (h : headers plan = number :: number' :: others) :
    legalNumber (expected plan) = none := by
  have hnumeric : isNumeric number = true := isNumeric_of_mem_headers (h ▸ List.mem_cons_self)
  have hnumeric' : isNumeric number' = true :=
    isNumeric_of_mem_headers (h ▸ List.mem_cons_of_mem _ List.mem_cons_self)
  obtain ⟨first, rest, rfl⟩ := List.exists_cons_of_ne_nil (isNumeric_iff.mp hnumeric').1
  obtain ⟨hzero, hnewline⟩ := plain_of_isNumeric hnumeric' first List.mem_cons_self
  obtain ⟨behind, hbehind⟩ := substitute_cons hzero hnewline (rest ++ [newline] ++ unlines others)
  have hcounts : substitute (unlines (plan.lines.filterMap headerCount))
      = number ++ newline :: first :: behind := by
    rw [show plan.lines.filterMap headerCount = number :: (first :: rest) :: others from h]
    show substitute (number ++ [newline] ++ (first :: (rest ++ [newline] ++ unlines others))) = _
    have hzeros : ∀ byte ∈ number ++ [newline], byte ≠ 0 := by
      intro byte hbyte
      rw [List.mem_append, List.mem_singleton] at hbyte
      rcases hbyte with hbyte | rfl
      · exact (plain_of_isNumeric hnumeric byte hbyte).1
      · decide
    rw [substitute_append hzeros (by rw [hbehind]; exact List.cons_ne_nil _ _), hbehind,
      List.append_assoc, List.singleton_append]
  rw [expected, hcounts, if_neg (List.append_ne_nil_of_left_ne_nil (isNumeric_iff.mp hnumeric).1 _)]
  exact legalNumber_append_eq_none hnumeric (by decide) (by decide)

/-! ## What is accepted -/

variable {collation : Collation (List UInt8)} {plan : TextFile}

/-- The order of what is printed does not matter. -/
theorem Understood.of_perm {output output' : List (List UInt8)} (h : Understood plan output)
    (hperm : output.Perm output') : Understood plan output' where
  plural number hnumber := (h.plural number hnumber).trans hperm.length_eq
  singular hnil hsingular := hperm.length_eq.symm.trans (h.singular hnil hsingular)
  none hnil hsingular := by
    rw [h.none hnil hsingular] at hperm
    exact hperm.nil_eq.symm

/-- How many derivations the text has. -/
def derivationCount (plan : TextFile) : Nat := (entries plan).dedup.length

/-- Each derivation is listed once. -/
theorem length_todo : (todo collation plan).length = derivationCount plan :=
  length_sortUnique collation (entries plan)

/-- The comparison does not find a difference. -/
def Accepted (plan : TextFile) : Prop :=
  notEqual (decimal (derivationCount plan)) (expected plan) ≠ some true

theorem parsePlan_of_accepted (h : Accepted plan) :
    parsePlan collation plan = { status := 0, output := todo collation plan } := by
  rw [parsePlan, length_todo]
  exact if_neg h

/-- **The texts that the script accepts.** -/
theorem accepted_iff : (parsePlan collation plan).status = 0 ↔ Accepted plan := by
  constructor
  · intro h hdifferent
    rw [parsePlan, length_todo] at h
    simp only [if_pos hdifferent] at h
    cases h
  · intro h
    rw [parsePlan_of_accepted h]

/-- A number that does not fit into 64 bits, or no number at all. -/
theorem accepted_of_none (h : legalNumber (decimal (derivationCount plan)) = none ∨
    legalNumber (expected plan) = none) : Accepted plan := by
  intro hdifferent
  obtain ⟨m, n, hm, hn, _⟩ := notEqual_eq_true.mp hdifferent
  rcases h with h | h
  · rw [h] at hm
    cases hm
  · rw [h] at hn
    cases hn

theorem eq_of_accepted (h : Accepted plan) (hcount : derivationCount plan < 2 ^ 63) {n : Nat}
    (hexpected : legalNumber (expected plan) = some (n : Int)) : n = derivationCount plan := by
  by_contra hne
  refine h (notEqual_eq_true.mpr ⟨derivationCount plan, n, ?_, hexpected, by omega⟩)
  rw [legalNumber_decimal, if_pos (by omega)]

/-- There is one number to compare with, and both fit into 64 bits; or what the headers say is
so. -/
def Headed (plan : TextFile) : Prop :=
  (derivationCount plan < 2 ^ 63 ∧
    (headers plan = [] ∨ ∃ number, headers plan = [number] ∧ value 10 number < 2 ^ 63)) ∨
  (headers plan ≠ [] ∧ ∀ number ∈ headers plan, value 10 number = derivationCount plan)

theorem legalNumber_header {number : List UInt8} (h : headers plan = [number]) :
    legalNumber (expected plan)
      = if (value 10 number : Int) < 2 ^ 63 then some (value 10 number : Int) else none := by
  rw [expected_singleton h]
  exact legalNumber_digits (isNumeric_of_mem_headers (h ▸ List.mem_singleton.mpr rfl))

/-- If what is accepted is understood, the headers are as they should be. -/
theorem Headed.of_understood (collation : Collation (List UInt8))
    (h : Accepted plan → Understood plan (todo collation plan)) : Headed plan := by
  have hplural : Accepted plan → ∀ number ∈ headers plan, value 10 number = derivationCount plan :=
    fun haccepted number hnumber => by
      rw [(h haccepted).plural number hnumber, length_todo]
  have hlarge : ¬ derivationCount plan < 2 ^ 63 → Accepted plan := by
    intro hcount
    refine accepted_of_none (.inl ?_)
    rw [legalNumber_decimal, if_neg (by omega)]
  cases hheaders : headers plan with
  | nil =>
    refine .inl ⟨?_, .inl hheaders⟩
    by_contra hcount
    have hunderstood := h (hlarge hcount)
    have hlength : (todo collation plan).length = derivationCount plan := length_todo
    by_cases hsingular : singularHeader ∈ plan.lines
    · have hone := hunderstood.singular hheaders hsingular
      omega
    · have hnone := congrArg List.length (hunderstood.none hheaders hsingular)
      rw [List.length_nil] at hnone
      omega
  | cons number others =>
    have hright : Accepted plan → Headed plan := fun haccepted =>
      .inr ⟨by rw [hheaders]; exact List.cons_ne_nil _ _, hplural haccepted⟩
    cases others with
    | cons number' others =>
      exact hright (accepted_of_none (.inr (legalNumber_expected_cons hheaders)))
    | nil =>
      by_cases hcount : derivationCount plan < 2 ^ 63
      · by_cases hfits : value 10 number < 2 ^ 63
        · exact .inl ⟨hcount, .inr ⟨number, hheaders, hfits⟩⟩
        · refine hright (accepted_of_none (.inr ?_))
          rw [legalNumber_header hheaders, if_neg (by omega)]
      · exact hright (hlarge hcount)

/-- A plan whose headers can be compared, or are right, is understood if it is accepted. -/
theorem Headed.understood (h : Headed plan) (haccepted : Accepted plan) :
    Understood plan (todo collation plan) := by
  rcases h with ⟨hcount, hnil | ⟨number, hone, hfits⟩⟩ | ⟨hne, hall⟩
  · have hexpected := expected_nil hnil
    refine ⟨fun number hnumber => ?_, fun _ hsingular => ?_, fun _ hsingular => ?_⟩
    · rw [hnil] at hnumber
      cases hnumber
    · rw [if_pos hsingular] at hexpected
      rw [length_todo]
      exact (eq_of_accepted haccepted hcount (n := 1) (by rw [hexpected]; rfl)).symm
    · rw [if_neg hsingular] at hexpected
      refine List.eq_nil_of_length_eq_zero ?_
      rw [length_todo]
      exact (eq_of_accepted haccepted hcount (n := 0) (by rw [hexpected]; rfl)).symm
  · have hlegal := legalNumber_header hone
    rw [if_pos (by omega)] at hlegal
    refine ⟨fun number' hnumber => ?_, fun hnil => ?_, fun hnil => ?_⟩
    · rw [hone, List.mem_singleton] at hnumber
      rw [hnumber, length_todo]
      exact eq_of_accepted haccepted hcount hlegal
    · rw [hone] at hnil
      cases hnil
    · rw [hone] at hnil
      cases hnil
  · refine ⟨fun number hnumber => ?_, fun hnil => absurd hnil hne, fun hnil => absurd hnil hne⟩
    rw [length_todo]
    exact hall number hnumber

/-- **What the script accepts it has understood, just for the texts with one header at most** (and
those whose headers are right anyway). -/
theorem accepted_understood_iff :
    ((parsePlan collation plan).status = 0 →
      Understood plan (parsePlan collation plan).output) ↔ Headed plan := by
  rw [accepted_iff]
  constructor
  · intro h
    refine Headed.of_understood collation fun haccepted => ?_
    have hunderstood := h haccepted
    rw [parsePlan_of_accepted haccepted] at hunderstood
    exact hunderstood
  · intro h haccepted
    rw [parsePlan_of_accepted haccepted]
    exact h.understood haccepted

/-! ## Lines of a plan -/

/-- Headers begin with a letter. -/
theorem head?_singularHeader : singularHeader.head? = some 0x74 := by decide +kernel

theorem head?_headerFront : headerFront.head? = some 0x74 := by decide +kernel

theorem isEntry_of_head? {line : List UInt8} (h : line.head? ≠ some space) :
    isEntry line = false := by
  rw [Bool.eq_false_iff]
  intro hentry
  rw [isEntry, Bool.and_eq_true, Bool.and_eq_true, Bool.and_eq_true,
    List.isPrefixOf_iff_prefix] at hentry
  obtain ⟨rest, rfl⟩ := hentry.1.1.1
  exact h rfl

theorem isEntry_append (rest : List UInt8) :
    isEntry (space :: space :: (storePrefix ++ rest))
      = (((rest.take 32).length == 32 && (rest.take 32).all isHashByte)
        && (rest.drop 32).head? == some dash && drvSuffix.isSuffixOf (rest.drop 33)) := by
  have hfront : (space :: space :: storePrefix).isPrefixOf (space :: space :: (storePrefix ++ rest))
      = true :=
    List.isPrefixOf_iff_prefix.mpr (List.prefix_append (space :: space :: storePrefix) rest)
  have hlength : (space :: space :: storePrefix).length = 2 + storePrefix.length :=
    Nat.add_comm _ _
  have hbehind : (space :: space :: (storePrefix ++ rest)).drop (2 + storePrefix.length)
      = rest := by
    rw [← List.cons_append, ← List.cons_append]
    exact List.drop_left' hlength
  rw [isEntry, hfront, hbehind, Bool.true_and]

/-- The line of a derivation is an entry. -/
theorem isEntry_derivation (d : Derivation) : isEntry (space :: space :: d.path) = true := by
  have htake : (d.hash ++ (dash :: (d.name ++ drvSuffix))).take 32 = d.hash :=
    List.take_left' d.hash_length
  have hdrop : (d.hash ++ (dash :: (d.name ++ drvSuffix))).drop 32
      = dash :: (d.name ++ drvSuffix) := List.drop_left' d.hash_length
  have hname : (d.hash ++ (dash :: (d.name ++ drvSuffix))).drop 33 = d.name ++ drvSuffix := by
    rw [show 33 = 32 + 1 from rfl, ← List.drop_drop, hdrop]
    rfl
  have hpath : d.path = storePrefix ++ (d.hash ++ (dash :: (d.name ++ drvSuffix))) := by
    rw [Derivation.path]
    simp only [List.append_assoc, List.cons_append, List.nil_append]
  rw [hpath, isEntry_append, htake, hdrop, hname, d.hash_length, d.hash_bytes,
    List.isSuffixOf_iff_suffix.mpr (List.suffix_append _ _)]
  rfl

theorem suffix_of_isEntry {line : List UInt8} (h : isEntry line = true) : drvSuffix <:+ line := by
  rw [isEntry, Bool.and_eq_true] at h
  refine (List.isSuffixOf_iff_suffix.mp h.2).trans ?_
  exact (List.drop_suffix _ _).trans (List.drop_suffix _ _)

/-- The line of a path to fetch is none. -/
theorem isEntry_fetched {path : List UInt8} (h : ¬ drvSuffix <:+ path) :
    isEntry (space :: space :: path) = false := by
  rw [Bool.eq_false_iff]
  intro hentry
  have hne : ∀ rest, drvSuffix ≠ space :: rest := by
    intro rest heq
    cases (List.cons.inj heq).1
  rcases List.suffix_cons_iff.mp (suffix_of_isEntry hentry) with heq | hsuffix
  · exact hne _ heq
  · rcases List.suffix_cons_iff.mp hsuffix with heq | hsuffix
    · exact hne _ heq
    · exact h hsuffix

theorem headerCount_space (line : List UInt8) : headerCount (space :: line) = none := by
  rw [headerCount]
  refine if_neg fun hboth => ?_
  cases (List.cons.inj hboth.1).1

/-- A header is read as the number in it. -/
theorem headerCount_header {number : List UInt8} (h : isNumeric number = true) :
    headerCount (headerFront ++ number ++ headerBack) = some number := by
  have hnumber : ((headerFront ++ number ++ headerBack).drop headerFront.length).take
      ((headerFront ++ number ++ headerBack).length - headerFront.length - headerBack.length)
        = number := by
    rw [List.append_assoc, List.drop_left, List.length_append, List.length_append,
      Nat.add_sub_cancel_left, Nat.add_sub_cancel, List.take_left]
  rw [headerCount, hnumber]
  exact if_pos ⟨rfl, h⟩

theorem headerCount_singular : headerCount singularHeader = none := by
  decide +kernel

theorem filter_path (d : Derivation) :
    (space :: space :: d.path).filter (· ≠ space) = d.path := by
  have hplain : ∀ byte ∈ d.path, byte ≠ space := by
    intro byte hbyte
    rw [Derivation.path] at hbyte
    simp only [List.mem_append, List.mem_singleton] at hbyte
    rcases hbyte with ((((hbyte | hbyte) | rfl) | hbyte) | hbyte)
    · rintro rfl
      revert hbyte
      decide +kernel
    · rintro rfl
      exact absurd (List.all_eq_true.mp d.hash_bytes _ hbyte) (by decide)
    · decide
    · exact fun heq => d.name_plain.1 (heq ▸ hbyte)
    · rintro rfl
      revert hbyte
      decide +kernel
  show d.path.filter (· ≠ space) = d.path
  rw [List.filter_eq_self]
  exact fun byte hbyte => decide_eq_true (hplain byte hbyte)

namespace PlanLine

theorem head?_headerLine (n : Nat) : (headerLine n).head? = some 0x74 := by
  rw [headerLine]
  by_cases hn : n = 1
  · rw [if_pos hn, head?_singularHeader]
  · rw [if_neg hn, List.append_assoc, List.head?_append, head?_headerFront, Option.some_or]

/-- The entries of a plan are the lines of its derivations. -/
theorem entry_content (n : Nat) (l : PlanLine) :
    (isEntry (l.content n) = false ∧ l.derivation? = none) ∨
      ∃ d, l.derivation? = some d ∧ isEntry (l.content n) = true ∧
        (l.content n).filter (· ≠ space) = d.path := by
  cases l with
  | header =>
    refine .inl ⟨isEntry_of_head? ?_, rfl⟩
    rw [content, head?_headerLine]
    decide
  | derivation d => exact .inr ⟨d, rfl, isEntry_derivation d, filter_path d⟩
  | fetched path text not_drv => exact .inl ⟨isEntry_fetched not_drv, rfl⟩
  | noise line h => exact .inl ⟨h.not_entry, rfl⟩

/-- The headers of a plan are its header lines. -/
theorem headerCount_content (n : Nat) (l : PlanLine) :
    headerCount (l.content n) = if l.isHeader = true ∧ n ≠ 1 then some (decimal n) else none := by
  cases l with
  | header =>
    show headerCount (headerLine n) = _
    by_cases hn : n = 1
    · rw [headerLine, if_pos hn, if_neg fun h => h.2 hn, headerCount_singular]
    · rw [headerLine, if_neg hn, if_pos ⟨rfl, hn⟩, headerCount_header (isNumeric_decimal n)]
  | derivation d =>
    rw [if_neg fun h => Bool.false_ne_true h.1]
    exact headerCount_space _
  | fetched path text not_drv =>
    rw [if_neg fun h => Bool.false_ne_true h.1]
    exact headerCount_space _
  | noise line h =>
    rw [if_neg fun h => Bool.false_ne_true h.1]
    exact h.not_plural

theorem indented_ne_singularHeader (line : List UInt8) : space :: line ≠ singularHeader := by
  intro h
  have hhead := head?_singularHeader
  rw [← h, List.head?_cons, Option.some_inj] at hhead
  exact absurd hhead (by decide)

theorem singular_content {n : Nat} {l : PlanLine} :
    l.content n = singularHeader ↔ l.isHeader = true ∧ n = 1 := by
  cases l with
  | header =>
    show headerLine n = singularHeader ↔ _
    by_cases hn : n = 1
    · rw [headerLine, if_pos hn]
      exact iff_of_true rfl ⟨rfl, hn⟩
    · refine iff_of_false ?_ fun h => hn h.2
      intro h
      -- the plural header is read as one
      have hcount := headerCount_content n header
      rw [show header.content n = headerLine n from rfl, h, headerCount_singular,
        if_pos ⟨rfl, hn⟩] at hcount
      cases hcount
  | derivation d => exact iff_of_false (indented_ne_singularHeader _) fun h => nomatch h.1
  | fetched path text not_drv =>
    exact iff_of_false (indented_ne_singularHeader _) fun h => nomatch h.1
  | noise line h => exact iff_of_false h.not_singular fun h => nomatch h.1

end PlanLine

/-! ## Plans are accepted -/

theorem isTextLine_headerLine (n : Nat) : IsTextLine (PlanLine.headerLine n) := by
  rw [PlanLine.headerLine]
  by_cases hn : n = 1
  · rw [if_pos hn]
    decide +kernel
  · rw [if_neg hn]
    have hnumber : IsTextLine (decimal n) := fun byte hbyte =>
      (plain_of_isNumeric (isNumeric_decimal n) byte hbyte).symm
    exact (IsTextLine.append (by decide +kernel) hnumber).append (by decide +kernel)

theorem isTextLine_path (d : Derivation) : IsTextLine d.path := by
  have hhash : IsTextLine d.hash := by
    intro byte hbyte
    have hhash := List.all_eq_true.mp d.hash_bytes byte hbyte
    constructor <;> rintro rfl <;> exact absurd hhash (by decide)
  exact (((IsTextLine.append (by decide +kernel) hhash).append (by decide)).append
    d.name_plain.2).append (by decide +kernel)

/-- A line behind two blanks. -/
theorem isTextLine_indented {line : List UInt8} (h : IsTextLine line) :
    IsTextLine (space :: space :: line) := by
  have hblanks : IsTextLine [space, space] := by decide
  exact hblanks.append h

/-- Every line of a plan is one line. -/
theorem isTextLine_content (n : Nat) (l : PlanLine) : IsTextLine (l.content n) := by
  cases l with
  | header => exact isTextLine_headerLine n
  | derivation d => exact isTextLine_indented (isTextLine_path d)
  | fetched path text not_drv => exact isTextLine_indented text
  | noise line h => exact h.text

/-- The derivations of some lines, as they are found. -/
theorem entries_content (n : Nat) (lines : List PlanLine) :
    ((lines.map (PlanLine.content n)).filter isEntry).map (List.filter (· ≠ space))
      = (lines.filterMap PlanLine.derivation?).map Derivation.path := by
  induction lines with
  | nil => rfl
  | cons l lines ih =>
    rw [List.map_cons]
    rcases l.entry_content n with ⟨hnone, hderivation⟩ | ⟨d, hderivation, hentry, hpath⟩
    · rw [List.filter_cons_of_neg (by rw [hnone]; exact Bool.false_ne_true),
        List.filterMap_cons_none hderivation, ih]
    · rw [List.filter_cons_of_pos hentry, List.filterMap_cons_some hderivation, List.map_cons,
        List.map_cons, hpath, ih]

/-- The numbers of the headers among some lines. -/
theorem headers_content (n : Nat) (lines : List PlanLine) :
    (lines.map (PlanLine.content n)).filterMap headerCount
      = if n = 1 then [] else List.replicate (lines.countP PlanLine.isHeader) (decimal n) := by
  induction lines with
  | nil => split_ifs <;> rfl
  | cons l lines ih =>
    have hcount := l.headerCount_content n
    rw [List.map_cons]
    by_cases hn : n = 1
    · rw [if_pos hn] at ih ⊢
      rw [if_neg fun h => h.2 hn] at hcount
      rw [List.filterMap_cons_none hcount, ih]
    · rw [if_neg hn] at ih ⊢
      by_cases hheader : l.isHeader = true
      · rw [if_pos ⟨hheader, hn⟩] at hcount
        rw [List.filterMap_cons_some hcount, ih, List.countP_cons_of_pos hheader,
          List.replicate_succ]
      · rw [if_neg fun h => hheader h.1] at hcount
        rw [List.filterMap_cons_none hcount, ih, List.countP_cons_of_neg hheader]

namespace Plan

/-- What nix prints. -/
def text (p : Plan) : TextFile :=
  .ofLines (p.lines.map (PlanLine.content p.derivations.length)) fun line hline => by
    obtain ⟨l, _, rfl⟩ := List.mem_map.mp hline
    exact isTextLine_content _ l

/-- The lines of a plan are read back. -/
theorem lines_text (p : Plan) :
    p.text.lines = p.lines.map (PlanLine.content p.derivations.length) :=
  TextFile.lines_ofLines _

/-- The entries of a plan are its derivations. -/
theorem entries_text (p : Plan) : entries p.text = p.derivations.map Derivation.path := by
  rw [entries, lines_text, entries_content, derivations]

theorem derivationCount_text (p : Plan) : derivationCount p.text = p.derivations.length := by
  have hdistinct : (p.derivations.map Derivation.path).Nodup := p.distinct
  rw [derivationCount, entries_text, hdistinct.dedup, List.length_map]

/-- A plan has one header, unless it is empty. -/
theorem countP_isHeader (p : Plan) :
    p.lines.countP PlanLine.isHeader = if p.derivations = [] then 0 else 1 := p.one_header

theorem singular_mem_text {p : Plan} :
    singularHeader ∈ p.text.lines ↔ p.derivations.length = 1 := by
  rw [lines_text, List.mem_map]
  constructor
  · rintro ⟨l, _, hl⟩
    exact (PlanLine.singular_content.mp hl).2
  · intro hone
    have hne : p.derivations ≠ [] := List.ne_nil_of_length_eq_add_one hone
    have hcount := p.countP_isHeader
    rw [if_neg hne] at hcount
    obtain ⟨l, hl, hheader⟩ := List.countP_pos_iff.mp (by rw [hcount]; exact Nat.one_pos)
    exact ⟨l, hl, PlanLine.singular_content.mpr ⟨hheader, hone⟩⟩

/-- The number that the script expects is that of the derivations. -/
theorem expected_text (p : Plan) : expected p.text = decimal p.derivations.length := by
  have hheaders : headers p.text = if p.derivations.length = 1 then []
      else List.replicate (p.lines.countP PlanLine.isHeader) (decimal p.derivations.length) := by
    rw [headers, lines_text, headers_content]
  have hcount := p.countP_isHeader
  by_cases hone : p.derivations.length = 1
  · rw [if_pos hone] at hheaders
    rw [expected_nil hheaders, if_pos (singular_mem_text.mpr hone), hone]
    decide +kernel
  · rw [if_neg hone] at hheaders
    by_cases hnone : p.derivations = []
    · rw [if_pos hnone] at hcount
      rw [hcount] at hheaders
      rw [expected_nil hheaders, if_neg fun h => hone (singular_mem_text.mp h), hnone]
      decide +kernel
    · rw [if_neg hnone] at hcount
      rw [hcount] at hheaders
      exact expected_singleton hheaders

/-- Every plan is accepted. -/
theorem accepted_text (p : Plan) : Accepted p.text := by
  rw [Accepted, derivationCount_text, expected_text]
  intro hdifferent
  obtain ⟨m, n, hm, hn, hne⟩ := notEqual_eq_true.mp hdifferent
  rw [hm, Option.some_inj] at hn
  exact hne hn

/-- **A plan is accepted, and its derivations are printed in order.** -/
theorem parsePlan_text (collation : Collation (List UInt8)) (p : Plan) :
    ∃ output, parsePlan collation p.text = { status := 0, output := output } ∧
      output.Perm (p.derivations.map Derivation.path) ∧
      output.Pairwise fun path path' => collation.le path path' = true := by
  refine ⟨todo collation p.text, parsePlan_of_accepted p.accepted_text, ?_, ?_⟩
  · rw [todo, entries_text]
    exact perm_sortUnique collation p.distinct
  · exact pairwise_sortUnique collation _

end Plan

/-- **The script accepts only what it has understood, just for the texts with one header at most**
(and those whose headers are right anyway), **and it accepts every plan.** -/
theorem understood_iff (collation : Collation (List UInt8)) (plan : TextFile) :
    (((parsePlan collation plan).status = 0 →
      Understood plan (parsePlan collation plan).output) ↔ Headed plan) ∧
    ∀ p : Plan, ∃ output, parsePlan collation p.text = { status := 0, output := output } ∧
      output.Perm (p.derivations.map Derivation.path) ∧
      output.Pairwise fun path path' => collation.le path path' = true :=
  ⟨accepted_understood_iff, Plan.parsePlan_text collation⟩

/-- A derivation with one byte for its hash. -/
def sampleDerivation (hash : UInt8) (hhash : isHashByte hash = true) : Derivation where
  hash := List.replicate 32 hash
  name := utf8Bytes "linux"
  hash_length := List.length_replicate
  hash_bytes := List.all_eq_true.mpr fun _ h => List.eq_of_mem_replicate h ▸ hhash
  name_plain := by decide +kernel

/-- Two derivations, a warning and a path to be fetched. -/
def mixedPlan : Plan where
  lines := [
    .noise (utf8Bytes "warning: Git tree '/etc/nixos' is dirty")
      ⟨by decide +kernel, by decide +kernel, by decide +kernel, by decide +kernel⟩,
    .header, .derivation (sampleDerivation 0x61 (by decide)),
    .derivation (sampleDerivation 0x62 (by decide)),
    .fetched (utf8Bytes "/nix/store/cccc-fetched-output") (by decide +kernel)
      (by decide +kernel)]
  distinct := by decide +kernel
  one_header := by decide +kernel

/-- The sample: both derivations are read, and nothing else. -/
theorem understood_iff_mixed :
    (parsePlan byteOrder mixedPlan.text).status = 0 ∧
      (parsePlan byteOrder mixedPlan.text).output.Perm
        (mixedPlan.derivations.map Derivation.path) := by
  obtain ⟨output, hparsed, hperm, -⟩ :=
    (understood_iff byteOrder mixedPlan.text).2 mixedPlan
  rw [hparsed]
  exact ⟨rfl, hperm⟩

/-- Two headers, and no derivation in a shape that is known. -/
def reworded : TextFile :=
  .ofLines [headerFront ++ decimal 2 ++ headerBack, headerFront ++ decimal 3 ++ headerBack] <| by
    intro line hline
    rcases List.mem_pair.mp hline with rfl | rfl
    · exact isTextLine_content 2 .header
    · exact isTextLine_content 3 .header

theorem lines_reworded : reworded.lines
    = [headerFront ++ decimal 2 ++ headerBack, headerFront ++ decimal 3 ++ headerBack] :=
  TextFile.lines_ofLines _

/-- Nothing is found, and that is accepted. -/
theorem not_understood_reworded :
    (parsePlan byteOrder reworded).status = 0 ∧ (parsePlan byteOrder reworded).output = [] ∧
      ¬ Understood reworded (parsePlan byteOrder reworded).output := by
  have hheaders : headers reworded = [decimal 2, decimal 3] := by
    rw [headers, lines_reworded,
      List.filterMap_cons_some (headerCount_header (isNumeric_decimal 2)),
      List.filterMap_cons_some (headerCount_header (isNumeric_decimal 3)), List.filterMap_nil]
  have haccepted : Accepted reworded :=
    accepted_of_none (.inr (legalNumber_expected_cons hheaders))
  have htodo : todo byteOrder reworded = [] := by
    rw [todo, entries, lines_reworded]
    exact List.mergeSort_nil
  rw [parsePlan_of_accepted haccepted, htodo]
  refine ⟨rfl, rfl, fun h => ?_⟩
  have htwo := h.plural (decimal 2) (by rw [hheaders]; exact List.mem_cons_self)
  rw [value_decimal] at htwo
  cases htwo

end HostServices.Scripts.UpgradePlan
