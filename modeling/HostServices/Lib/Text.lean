import Mathlib.Data.List.Basic
import Mathlib.Data.List.DropRight
import Mathlib.Data.List.TakeWhile
import Mathlib.Tactic.Common

/-!
# Lines, words and blanks

Text cut up as Rust's standard library does it, over the characters of a string.

- `isWhitespace`: `char::is_whitespace`, which is more than the blanks of ASCII;
- `lines`: `str::lines`;
- `words`: `str::split_whitespace`;
- `trim`, `stripPrefix`, `stripSuffix`, `cutAt`, `firstPiece`, `cutAtLast`: what stands around
  a part.
-/

namespace HostServices.Lib

/-- `char::is_whitespace`: the Unicode property `White_Space`. -/
def isWhitespace (c : Char) : Bool :=
  let n := c.toNat
  (9 ≤ n && n ≤ 13) || n == 0x20 || n == 0x85 || n == 0xA0 || n == 0x1680 ||
    (0x2000 ≤ n && n ≤ 0x200A) || n == 0x2028 || n == 0x2029 || n == 0x202F || n == 0x205F ||
    n == 0x3000

theorem isWhitespace_space : isWhitespace ' ' = true := by decide

/-! ## Pieces -/

/-- What a list is cut at stands in none of the pieces. -/
theorem not_mem_of_mem_splitOn {α : Type} [BEq α] [LawfulBEq α] {sep : α} {l piece : List α}
    (h : piece ∈ l.splitOn sep) : sep ∉ piece := by
  induction l generalizing piece with
  | nil =>
    rw [List.splitOn_nil, List.mem_singleton] at h
    rw [h]
    exact List.not_mem_nil
  | cons x l ih =>
    rw [List.splitOn_cons_eq_if_modifyHead] at h
    split_ifs at h with hx
    · rcases List.mem_cons.mp h with rfl | h
      · exact List.not_mem_nil
      · exact ih h
    · obtain ⟨first, rest, hsplit⟩ := List.exists_cons_of_ne_nil (List.splitOn_ne_nil sep l)
      rw [hsplit] at h ih
      rcases List.mem_cons.mp h with rfl | h
      · intro hmem
        rcases List.mem_cons.mp hmem with rfl | hmem
        · exact hx (BEq.refl _)
        · exact ih List.mem_cons_self hmem
      · exact ih (List.mem_cons_of_mem _ h)

/-! ## Lines -/

/-- The carriage return in front of a line feed is not part of the line. -/
def stripCarriageReturn (line : List Char) : List Char :=
  if line.getLast? = some '\r' then line.dropLast else line

/-- The lines of what is left of a text, of which `line` has been read. -/
def linesFrom (line : List Char) : List Char → List (List Char)
  | [] => if line = [] then [] else [line]
  | c :: text =>
    if c = '\n' then stripCarriageReturn line :: linesFrom [] text
    else linesFrom (line ++ [c]) text

/-- `str::lines`. -/
def lines (text : List Char) : List (List Char) := linesFrom [] text

theorem linesFrom_append {line : List Char} (h : '\n' ∉ line) (before text : List Char) :
    linesFrom before (line ++ '\n' :: text)
      = stripCarriageReturn (before ++ line) :: lines text := by
  induction line generalizing before with
  | nil => rw [List.nil_append, linesFrom, if_pos rfl, List.append_nil, lines]
  | cons c line ih =>
    have hc : c ≠ '\n' := by
      rintro rfl
      exact h List.mem_cons_self
    rw [List.cons_append, linesFrom, if_neg hc, ih fun hmem => h (List.mem_cons_of_mem c hmem),
      List.append_assoc, List.singleton_append]

/-- A text whose lines all end in a line feed, and none in a carriage return before it. -/
theorem lines_flatMap {α : Type} {f : α → List Char} {l : List α}
    (h : ∀ a ∈ l, '\n' ∉ f a ∧ (f a).getLast? ≠ some '\r') :
    lines (l.flatMap fun a => f a ++ ['\n']) = l.map f := by
  induction l with
  | nil => rfl
  | cons a l ih =>
    obtain ⟨⟨hfeed, hreturn⟩, hrest⟩ := List.forall_mem_cons.mp h
    rw [List.flatMap_cons, List.append_assoc, List.singleton_append, lines,
      linesFrom_append hfeed, ih hrest, List.nil_append, stripCarriageReturn, if_neg hreturn,
      List.map_cons]

/-! ## Words -/

/-- `str::split_whitespace`. -/
def words (text : List Char) : List (List Char) :=
  (text.splitOnP isWhitespace).filter (· ≠ [])

theorem words_blank {c : Char} (h : isWhitespace c) (text : List Char) :
    words (c :: text) = words text := by
  have hsplit := List.splitOnP_append_cons [] text h
  rw [List.nil_append, List.splitOnP_nil] at hsplit
  rw [words, hsplit, List.singleton_append, List.filter_cons_of_neg (by simp), words]

/-- A word is what stands in front of the first blank. -/
theorem words_append {word : List Char} (hne : word ≠ [])
    (hword : ∀ c ∈ word, isWhitespace c = false) {sep : Char} (hsep : isWhitespace sep)
    (text : List Char) : words (word ++ sep :: text) = word :: words text := by
  rw [words, List.splitOnP_append_cons_of_forall_mem hword sep hsep,
    List.filter_cons_of_pos (by simpa using hne), words]

theorem words_of_word {word : List Char} (hne : word ≠ [])
    (hword : ∀ c ∈ word, isWhitespace c = false) : words word = [word] := by
  rw [words, List.splitOnP_eq_singleton hword, List.filter_cons_of_pos (by simpa using hne),
    List.filter_nil]

/-- A word that begins the text goes on to the next blank. -/
theorem words_nonblank {c : Char} (h : isWhitespace c = false) (text : List Char) :
    words (c :: text) = ((c :: text).takeWhile fun c => !isWhitespace c) ::
      words ((c :: text).dropWhile fun c => !isWhitespace c) := by
  have hne : ((c :: text).takeWhile fun c => !isWhitespace c) ≠ [] := by
    rw [List.takeWhile_cons_of_pos (by simpa using h)]
    exact List.cons_ne_nil _ _
  generalize c :: text = whole at hne
  have hword : ∀ d ∈ whole.takeWhile (fun c => !isWhitespace c), isWhitespace d = false := by
    intro d hd
    simpa using List.mem_takeWhile_imp hd
  have happend := List.takeWhile_append_dropWhile (p := fun c => !isWhitespace c) (l := whole)
  cases hrest : whole.dropWhile fun c => !isWhitespace c with
  | nil =>
    rw [hrest, List.append_nil] at happend
    nth_rewrite 1 [← happend]
    exact words_of_word hne hword
  | cons sep rest =>
    have hsep : isWhitespace sep := by
      have hhead := List.head?_dropWhile_not (fun c => !isWhitespace c) whole
      rw [hrest] at hhead
      simpa using hhead
    rw [hrest] at happend
    nth_rewrite 1 [← happend]
    rw [words_append hne hword hsep, words_blank hsep]

/-- The first word is found behind the blanks. -/
theorem head_words {text word : List Char} {others : List (List Char)}
    (h : words text = word :: others) :
    word = (text.dropWhile isWhitespace).takeWhile fun c => !isWhitespace c := by
  induction text with
  | nil => cases h
  | cons c text ih =>
    by_cases hc : isWhitespace c
    · rw [words_blank hc] at h
      rw [List.dropWhile_cons_of_pos hc]
      exact ih h
    · rw [words_nonblank (Bool.eq_false_iff.mpr hc)] at h
      rw [List.dropWhile_cons_of_neg hc]
      exact (List.cons.inj h).1.symm

theorem words_ne_nil {text : List Char} {c : Char} (hmem : c ∈ text)
    (hc : isWhitespace c = false) : words text ≠ [] := by
  induction text with
  | nil => cases hmem
  | cons d text ih =>
    by_cases hd : isWhitespace d
    · rw [words_blank hd]
      refine ih ((List.mem_cons.mp hmem).resolve_left ?_)
      rintro rfl
      rw [hc] at hd
      cases hd
    · rw [words_nonblank (Bool.eq_false_iff.mpr hd)]
      exact List.cons_ne_nil _ _

theorem word_of_all {word : List Char} (h : (word.all fun c => !isWhitespace c) = true) :
    ∀ c ∈ word, isWhitespace c = false := by
  intro c hc
  rw [← Bool.not_eq_true']
  exact List.all_eq_true.mp h c hc

/-! ## Parts -/

/-- `str::trim_start`. -/
def trimStart (text : List Char) : List Char := text.dropWhile isWhitespace

/-- `str::trim_end`. -/
def trimEnd (text : List Char) : List Char := text.rdropWhile isWhitespace

/-- `str::trim`. -/
def trim (text : List Char) : List Char := trimEnd (trimStart text)

/-- `str::strip_prefix`. -/
def stripPrefix (front text : List Char) : Option (List Char) :=
  if front <+: text then some (text.drop front.length) else none

/-- `str::starts_with`. -/
def startsWith (front : String) (text : List Char) : Bool := front.toList.isPrefixOf text

/-- The text behind a label. -/
def labelled (label : String) (text : List Char) : Option (List Char) :=
  stripPrefix label.toList text

/-- `str::strip_suffix`. -/
def stripSuffix (back text : List Char) : Option (List Char) :=
  if back <:+ text then some (text.take (text.length - back.length)) else none

/-- `str::trim_end_matches` at a string, so many times at most. -/
def trimEndTimes (back : List Char) : Nat → List Char → List Char
  | 0, text => text
  | times + 1, text =>
    match stripSuffix back text with
    | some rest => trimEndTimes back times rest
    | none => text

/-- `str::trim_end_matches` at a string. -/
def trimEndMatches (back : String) (text : List Char) : List Char :=
  trimEndTimes back.toList text.length text

/-- `str::split_once` at a string: what stands before its first occurrence, and behind it. -/
def cutAt (mark : List Char) : List Char → Option (List Char × List Char)
  | [] => if mark = [] then some ([], []) else none
  | c :: text =>
    match stripPrefix mark (c :: text) with
    | some rest => some ([], rest)
    | none => (cutAt mark text).map fun (before, rest) => (c :: before, rest)

/-- `str::split` at a string, of which the first piece is taken. -/
def firstPiece (mark text : List Char) : List Char := (cutAt mark text).elim text Prod.fst

/-- `str::split` at a string, of which the second piece is taken. -/
def secondPiece (mark text : List Char) : Option (List Char) :=
  (cutAt mark text).map fun (_, rest) => firstPiece mark rest

/-- `str::rsplit_once` at a string: what stands before its last occurrence, and behind it. -/
def cutAtLast (mark text : List Char) : Option (List Char × List Char) :=
  (cutAt mark.reverse text.reverse).map fun (rest, before) => (before.reverse, rest.reverse)

theorem trimStart_nonblank {c : Char} (h : isWhitespace c = false) (text : List Char) :
    trimStart (c :: text) = c :: text :=
  List.dropWhile_cons_of_neg (by simp [h])

theorem trimStart_blank {c : Char} (h : isWhitespace c = true) (text : List Char) :
    trimStart (c :: text) = trimStart text :=
  List.dropWhile_cons_of_pos h

theorem trim_blank {c : Char} (h : isWhitespace c = true) (text : List Char) :
    trim (c :: text) = trim text := by
  rw [trim, trimStart_blank h, trim]

/-- A text that neither begins nor ends with a blank is left as it is. -/
theorem trim_of_nonblank {text : List Char} (h : ∀ c ∈ text, isWhitespace c = false) :
    trim text = text := by
  have hstart : trimStart text = text := by
    cases text with
    | nil => rfl
    | cons c text => exact trimStart_nonblank (h c List.mem_cons_self) text
  rw [trim, hstart, trimEnd, List.rdropWhile_eq_self_iff]
  intro hne hlast
  rw [h _ (List.getLast_mem hne)] at hlast
  cases hlast

/-- A text with this front has it, and the rest behind it. -/
theorem stripPrefix_eq_some {front text rest : List Char} :
    stripPrefix front text = some rest ↔ text = front ++ rest := by
  unfold stripPrefix
  split_ifs with h
  · obtain ⟨tail, rfl⟩ := h
    rw [List.drop_left, Option.some_inj, List.append_cancel_left_eq]
  · constructor
    · intro hnone
      cases hnone
    · rintro rfl
      exact absurd (List.prefix_append front rest) h

theorem startsWith_of_not_prefix {front : String} {text : List Char}
    (h : ¬ front.toList <+: text) : startsWith front text = false := by
  rw [startsWith, Bool.eq_false_iff, Ne, List.isPrefixOf_iff_prefix]
  exact h

theorem labelled_of_not_prefix {label : String} {text : List Char}
    (h : ¬ label.toList <+: text) : labelled label text = none := if_neg h

/-- A text has no label just if it does not begin with it. -/
theorem labelled_eq_none_iff {label : String} {text : List Char} :
    labelled label text = none ↔ startsWith label text = false := by
  have hprefix : startsWith label text = true ↔ label.toList <+: text :=
    List.isPrefixOf_iff_prefix
  rw [labelled, stripPrefix, Bool.eq_false_iff, Ne, hprefix]
  split_ifs with h
  · simp [h]
  · simp [h]

/-- A text with this back has it, and the rest in front of it. -/
theorem stripSuffix_eq_some {back text rest : List Char} :
    stripSuffix back text = some rest ↔ text = rest ++ back := by
  unfold stripSuffix
  split_ifs with h
  · obtain ⟨front, rfl⟩ := h
    rw [List.length_append, Nat.add_sub_cancel, List.take_left, Option.some_inj,
      List.append_cancel_right_eq]
  · constructor
    · intro hnone
      cases hnone
    · rintro rfl
      exact absurd (List.suffix_append rest back) h

theorem stripSuffix_append (text back : List Char) :
    stripSuffix back (text ++ back) = some text := by
  rw [stripSuffix, if_pos (List.suffix_append text back), List.length_append,
    Nat.add_sub_cancel, List.take_left]

/-- The first occurrence of the mark is the one behind `before`. -/
theorem cutAt_append {mark before : List Char} (rest : List Char) (hmark : mark ≠ [])
    (h : ∀ i < before.length, ¬ mark <+: (before ++ (mark ++ rest)).drop i) :
    cutAt mark (before ++ (mark ++ rest)) = some (before, rest) := by
  induction before with
  | nil =>
    have hstrip : stripPrefix mark (mark ++ rest) = some rest := stripPrefix_eq_some.mpr rfl
    rw [List.nil_append]
    cases hwhole : mark ++ rest with
    | nil => exact absurd (List.append_eq_nil_iff.mp hwhole).1 hmark
    | cons c text =>
      rw [hwhole] at hstrip
      rw [cutAt, hstrip]
  | cons c before ih =>
    have hnone : stripPrefix mark (c :: (before ++ (mark ++ rest))) = none :=
      if_neg (h 0 (Nat.zero_lt_succ _))
    rw [List.cons_append, cutAt, hnone]
    rw [ih fun i hi => h (i + 1) (Nat.succ_lt_succ hi)]
    rfl

theorem stripPrefix_cons_of_ne {c d : Char} (h : c ≠ d) (front text : List Char) :
    stripPrefix (c :: front) (d :: text) = none :=
  if_neg fun hfront => h (List.cons_prefix_cons.mp hfront).1

/-- The mark does not begin in a part without its second character. -/
theorem cutAt_mark {m n : Char} {mark part : List Char} (hmn : m ≠ n) (h : n ∉ part)
    (rest : List Char) :
    cutAt (m :: n :: mark) (part ++ (m :: n :: mark ++ rest)) = some (part, rest) := by
  refine cutAt_append rest (List.cons_ne_nil _ _) ?_
  intro i hi hfront
  have hsecond : (part ++ (m :: n :: mark ++ rest))[i + 1]? = some n := by
    obtain ⟨tail, htail⟩ := hfront
    have hget := congrArg (fun l => l[1]?) htail
    rw [List.getElem?_drop] at hget
    exact hget.symm
  by_cases hlast : i + 1 < part.length
  · rw [List.getElem?_append_left hlast] at hsecond
    exact h (List.mem_of_getElem? hsecond)
  · rw [show i + 1 = part.length by omega, List.getElem?_append_right (le_refl _),
      Nat.sub_self] at hsecond
    exact hmn (Option.some_inj.mp hsecond)

/-- The mark does not begin in a part without its first character. -/
theorem cutAt_first {m : Char} {mark part : List Char} (h : m ∉ part) (rest : List Char) :
    cutAt (m :: mark) (part ++ (m :: mark ++ rest)) = some (part, rest) := by
  refine cutAt_append rest (List.cons_ne_nil _ _) ?_
  intro i hi hfront
  have hfirst : (part ++ (m :: mark ++ rest))[i]? = some m := by
    obtain ⟨tail, htail⟩ := hfront
    have hget := congrArg (fun l => l[0]?) htail
    rw [List.getElem?_drop] at hget
    exact hget.symm
  rw [List.getElem?_append_left hi] at hfirst
  exact h (List.mem_of_getElem? hfirst)

/-- A cut at the first occurrence of a character. -/
theorem cutAt_singleton {c : Char} {before : List Char} (h : c ∉ before) (rest : List Char) :
    cutAt [c] (before ++ c :: rest) = some (before, rest) := cutAt_first h rest

/-- The parts of a cut stand in the text. -/
theorem eq_of_cutAt {mark text before rest : List Char}
    (h : cutAt mark text = some (before, rest)) : text = before ++ (mark ++ rest) := by
  induction text generalizing before with
  | nil =>
    rw [cutAt] at h
    split_ifs at h with hmark
    cases h
    rw [hmark]
    rfl
  | cons c text ih =>
    rw [cutAt] at h
    split at h
    · rename_i rest' hstrip
      cases h
      rw [List.nil_append]
      exact stripPrefix_eq_some.mp hstrip
    · obtain ⟨⟨before', rest'⟩, hcut, heq⟩ := Option.map_eq_some_iff.mp h
      cases heq
      rw [ih hcut]
      rfl

theorem cutAt_eq_none {mark text : List Char} {c : Char} (hc : c ∈ mark) (h : c ∉ text) :
    cutAt mark text = none := by
  induction text with
  | nil => exact if_neg (List.ne_nil_of_mem hc)
  | cons d text ih =>
    have hstrip : stripPrefix mark (d :: text) = none := if_neg fun hfront => h (hfront.mem hc)
    rw [cutAt, hstrip, ih fun hmem => h (List.mem_cons_of_mem d hmem)]
    rfl

/-- Where a text is cut at a character, and that it is cut there. -/
theorem cutAt_singleton_iff {c : Char} {text before rest : List Char} :
    cutAt [c] text = some (before, rest) ↔ c ∉ before ∧ text = before ++ c :: rest := by
  constructor
  · intro h
    have htext : text = before ++ c :: rest := eq_of_cutAt h
    refine ⟨fun hmem => ?_, htext⟩
    obtain ⟨front, back, rfl, hfront⟩ := List.eq_append_cons_of_mem hmem
    rw [htext, List.append_assoc, List.cons_append, cutAt_singleton hfront] at h
    have hlength := congrArg List.length (Prod.mk.inj (Option.some_inj.mp h)).1
    rw [List.length_append, List.length_cons] at hlength
    omega
  · rintro ⟨hbefore, rfl⟩
    exact cutAt_singleton hbefore rest

/-- The cut loses nothing. -/
theorem eq_of_cutAtLast {mark text before rest : List Char}
    (h : cutAtLast mark text = some (before, rest)) : text = before ++ (mark ++ rest) := by
  obtain ⟨⟨back, front⟩, hcut, heq⟩ := Option.map_eq_some_iff.mp h
  cases heq
  rw [← List.reverse_reverse text, eq_of_cutAt hcut]
  simp

/-- The mark does not end in a part without its last character. -/
theorem cutAtLast_last {m : Char} {mark part : List Char} (h : m ∉ part) (before : List Char) :
    cutAtLast (mark ++ [m]) (before ++ (mark ++ [m] ++ part)) = some (before, part) := by
  have hreverse : (before ++ (mark ++ [m] ++ part)).reverse
      = part.reverse ++ (m :: mark.reverse ++ before.reverse) := by
    simp
  have hpart : m ∉ part.reverse := by rwa [List.mem_reverse]
  rw [cutAtLast, hreverse, List.reverse_append, List.reverse_singleton, List.singleton_append,
    cutAt_first hpart]
  simp

/-- A cut at the last occurrence of a character. -/
theorem cutAtLast_singleton_iff {c : Char} {text before rest : List Char} :
    cutAtLast [c] text = some (before, rest) ↔ c ∉ rest ∧ text = before ++ c :: rest := by
  have hcut : cutAtLast [c] text = some (before, rest) ↔
      cutAt [c] text.reverse = some (rest.reverse, before.reverse) := by
    rw [cutAtLast, Option.map_eq_some_iff]
    constructor
    · rintro ⟨⟨back, front⟩, h, heq⟩
      cases heq
      rw [List.reverse_reverse, List.reverse_reverse]
      exact h
    · intro h
      exact ⟨(rest.reverse, before.reverse), h, by simp⟩
  rw [hcut, cutAt_singleton_iff, List.mem_reverse, ← @List.reverse_inj _ text]
  simp

theorem cutAtLast_eq_none {c : Char} {text : List Char} (h : c ∉ text) :
    cutAtLast [c] text = none := by
  have hnone : cutAt [c] text.reverse = none :=
    cutAt_eq_none List.mem_cons_self (by rwa [List.mem_reverse])
  rw [cutAtLast, List.reverse_singleton, hnone]
  rfl

/-- No mark begins here. -/
theorem firstPiece_cons {mark : List Char} {c : Char} {text : List Char}
    (h : stripPrefix mark (c :: text) = none) :
    firstPiece mark (c :: text) = c :: firstPiece mark text := by
  rw [firstPiece, cutAt, h, firstPiece]
  cases cutAt mark text <;> rfl

/-- The mark does not begin in this part of the text. -/
theorem firstPiece_append {m : Char} {mark part : List Char} (h : m ∉ part) (text : List Char) :
    firstPiece (m :: mark) (part ++ text) = part ++ firstPiece (m :: mark) text := by
  induction part with
  | nil => rfl
  | cons c part ih =>
    have hc : m ≠ c := fun heq => h (heq ▸ List.mem_cons_self)
    have hpart : m ∉ part := fun hmem => h (List.mem_cons_of_mem c hmem)
    rw [List.cons_append, firstPiece_cons (stripPrefix_cons_of_ne hc mark _), ih hpart,
      List.cons_append]

/-- The piece in front of a mark. -/
theorem firstPiece_mark {m : Char} {mark part : List Char} (h : m ∉ part) (rest : List Char) :
    firstPiece (m :: mark) (part ++ (m :: mark ++ rest)) = part := by
  have hstrip : stripPrefix (m :: mark) (m :: mark ++ rest) = some rest :=
    stripPrefix_eq_some.mpr rfl
  have hempty : firstPiece (m :: mark) (m :: mark ++ rest) = [] := by
    rw [List.cons_append] at hstrip ⊢
    rw [firstPiece, cutAt, hstrip]
    rfl
  rw [firstPiece_append h, hempty, List.append_nil]

/-! ## Printing lines -/

theorem trimEnd_isPrefix (text : List Char) : trimEnd text <+: text := List.rdropWhile_prefix _ _

/-- The blanks are gone after the first time. -/
theorem trim_trim (text : List Char) : trim (trim text) = trim text := by
  have hstart : trimStart (trim text) = trim text := by
    cases htrim : trim text with
    | nil => rfl
    | cons c rest =>
      obtain ⟨tail, htail⟩ := trimEnd_isPrefix (trimStart text)
      rw [show trimEnd (trimStart text) = c :: rest from htrim] at htail
      have hhead := List.head?_dropWhile_not isWhitespace text
      rw [show text.dropWhile isWhitespace = c :: (rest ++ tail) from htail.symm] at hhead
      exact trimStart_nonblank (by simpa using hhead) rest
  rw [trim, hstart]
  exact List.rdropWhile_idempotent _ _

/-- The text consists of these lines, each with any blanks around it. -/
def Prints (text : String) (contents : List (List Char)) : Prop :=
  (lines text.toList).map trim = contents

/-- A line as it stands without the blanks around it. -/
structure IsTrimmedLine (line : List Char) : Prop where
  trimmed : trim line = line
  one_line : '\n' ∉ line

theorem not_mem_linesFrom {before text : List Char} (h : '\n' ∉ before) :
    ∀ line ∈ linesFrom before text, '\n' ∉ line := by
  induction text generalizing before with
  | nil =>
    rw [linesFrom]
    split_ifs
    · simp
    · simpa using h
  | cons c text ih =>
    rw [linesFrom]
    split_ifs with hc
    · refine List.forall_mem_cons.mpr ⟨?_, ih List.not_mem_nil⟩
      rw [stripCarriageReturn]
      split_ifs
      · exact fun hmem => h ((List.dropLast_prefix _).mem hmem)
      · exact h
    · refine ih ?_
      rw [List.mem_append, List.mem_singleton]
      rintro (hmem | heq)
      · exact h hmem
      · exact hc heq.symm

theorem isTrimmedLine_of_mem {text line : List Char} (h : line ∈ (lines text).map trim) :
    IsTrimmedLine line := by
  obtain ⟨raw, hraw, rfl⟩ := List.mem_map.mp h
  refine ⟨trim_trim raw, fun hmem => ?_⟩
  refine not_mem_linesFrom List.not_mem_nil raw hraw ?_
  exact (List.dropWhile_suffix _).mem ((trimEnd_isPrefix _).mem hmem)

theorem IsTrimmedLine.getLast?_ne {line : List Char} (h : IsTrimmedLine line) :
    line.getLast? ≠ some '\r' := by
  intro hlast
  have hend : trimEnd (trimStart line) = line := h.trimmed
  have hne : line ≠ [] := by
    rintro rfl
    cases hlast
  have hnot := List.rdropWhile_last_not isWhitespace (trimStart line)
  rw [show (trimStart line).rdropWhile isWhitespace = line from hend] at hnot
  rw [List.getLast?_eq_some_getLast hne, Option.some_inj] at hlast
  refine hnot hne ?_
  rw [hlast]
  decide

theorem isTrimmedLine_of_all {contents : List (List Char)}
    (h : (contents.all fun line => trim line == line && !line.contains '\n') = true) :
    ∀ line ∈ contents, IsTrimmedLine line := by
  intro line hline
  have hboth := List.all_eq_true.mp h line hline
  rw [Bool.and_eq_true, beq_iff_eq, Bool.not_eq_true'] at hboth
  refine ⟨hboth.1, fun hmem => ?_⟩
  rw [List.contains_iff_mem.mpr hmem] at hboth
  cases hboth.2

/-- The text of these lines. -/
def printed (contents : List (List Char)) : String :=
  String.ofList (contents.flatMap fun line => line ++ ['\n'])

/-- Lines that are printed are read back. -/
theorem lines_printed {contents : List (List Char)} (h : ∀ line ∈ contents, IsTrimmedLine line) :
    lines (printed contents).toList = contents := by
  rw [printed, String.toList_ofList, lines_flatMap (f := fun line => line) fun line hline =>
    ⟨(h line hline).one_line, (h line hline).getLast?_ne⟩]
  exact List.map_id contents

/-- The text prints its lines. -/
theorem prints_printed {contents : List (List Char)}
    (h : ∀ line ∈ contents, IsTrimmedLine line) : Prints (printed contents) contents := by
  rw [Prints, lines_printed h]
  conv_rhs => rw [← List.map_id contents]
  exact List.map_congr_left fun line hline => (h line hline).trimmed

end HostServices.Lib
