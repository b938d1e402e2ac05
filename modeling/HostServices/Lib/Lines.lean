import HostServices.Lib.Shell
import Mathlib.Data.List.Dedup
import Mathlib.Data.List.Lex

/-!
# Files of lines

What the tools that read a file line by line make of its bytes, and `sort -u`.

- `fileLines`, `unlines`: the lines of a file, and the file with these lines;
- `fileLines_unlines`: they are read back;
- `TextFile`: a file without null bytes, which no tool takes for binary;
- `Collation`: an order of lines, which is that of the locale;
- `sortUnique`: `sort -u`, with `perm_sortUnique` and `pairwise_sortUnique`.
-/

namespace HostServices.Lib

open Shell

/-! ## Lines -/

/-- The lines of a text that begins in the middle of one. -/
def linesOf (line : List UInt8) : List UInt8 → List (List UInt8)
  | [] => if line = [] then [] else [line]
  | byte :: text =>
    if byte = newline then line :: linesOf [] text else linesOf (line ++ [byte]) text

/-- The lines of a file. What stands behind the last newline is one if there is anything. -/
def fileLines (text : List UInt8) : List (List UInt8) := linesOf [] text

/-- The file that has these lines. -/
def unlines (l : List (List UInt8)) : List UInt8 := l.flatMap (· ++ [newline])

theorem linesOf_append {line text : List UInt8} (h : newline ∉ line) (before : List UInt8) :
    linesOf before (line ++ newline :: text) = (before ++ line) :: linesOf [] text := by
  induction line generalizing before with
  | nil =>
    rw [List.nil_append, linesOf, if_pos rfl, List.append_nil]
  | cons byte line ih =>
    rw [List.mem_cons, not_or] at h
    rw [List.cons_append, linesOf, if_neg (Ne.symm h.1), ih h.2, List.append_assoc,
      List.singleton_append]

/-- **The lines of a file are read back.** -/
theorem fileLines_unlines {l : List (List UInt8)} (h : ∀ line ∈ l, newline ∉ line) :
    fileLines (unlines l) = l := by
  induction l with
  | nil => rfl
  | cons line l ih =>
    rw [List.forall_mem_cons] at h
    rw [fileLines, unlines, List.flatMap_cons, List.append_assoc, List.singleton_append,
      linesOf_append h.1, List.nil_append]
    exact congrArg (line :: ·) (ih h.2)

/-! ## Text -/

/-- A file of text. A file with a null byte is binary to a tool such as `grep`, which then prints
none of the lines that it finds in it. -/
structure TextFile where
  bytes : List UInt8
  no_null : 0 ∉ bytes

/-- What can be a line of such a file. -/
def IsTextLine (line : List UInt8) : Prop := ∀ byte ∈ line, byte ≠ newline ∧ byte ≠ 0

instance (line : List UInt8) : Decidable (IsTextLine line) :=
  List.decidableBAll (fun byte => byte ≠ newline ∧ byte ≠ 0) line

theorem IsTextLine.append {line line' : List UInt8} (h : IsTextLine line)
    (h' : IsTextLine line') : IsTextLine (line ++ line') :=
  fun byte hbyte => (List.mem_append.mp hbyte).elim (h byte) (h' byte)

theorem IsTextLine.newline_not_mem {line : List UInt8} (h : IsTextLine line) : newline ∉ line :=
  fun hmem => (h newline hmem).1 rfl

namespace TextFile

/-- The lines of the file, without what ends them. -/
def lines (file : TextFile) : List (List UInt8) := fileLines file.bytes

/-- The file that has these lines. -/
def ofLines (l : List (List UInt8)) (h : ∀ line ∈ l, IsTextLine line) : TextFile where
  bytes := unlines l
  no_null hmem := by
    obtain ⟨line, hline, hbyte⟩ := List.mem_flatMap.mp hmem
    rcases List.mem_append.mp hbyte with hbyte | hbyte
    · exact (h line hline 0 hbyte).2 rfl
    · exact absurd (List.mem_singleton.mp hbyte) (by decide)

/-- The lines of a file are read back. -/
theorem lines_ofLines {l : List (List UInt8)} (h : ∀ line ∈ l, IsTextLine line) :
    (ofLines l h).lines = l :=
  fileLines_unlines fun line hline => (h line hline).newline_not_mem

end TextFile

/-! ## Sorting -/

/-- An order of lines, in which no two of them are equal. -/
structure Collation (α : Type) where
  le : α → α → Bool
  trans : ∀ a b c, le a b = true → le b c = true → le a c = true
  total : ∀ a b, (le a b || le b a) = true
  antisymm : ∀ a b, le a b = true → le b a = true → a = b

/-- The order of the C locale. -/
def byteOrder : Collation (List UInt8) where
  le a b := a.map UInt8.toNat ≤ b.map UInt8.toNat
  trans a b c h h' := by
    rw [decide_eq_true_iff] at h h' ⊢
    exact h.trans h'
  total a b := by
    rw [Bool.or_eq_true, decide_eq_true_iff, decide_eq_true_iff]
    exact le_total _ _
  antisymm a b h h' := by
    rw [decide_eq_true_iff] at h h'
    exact (List.map_injective_iff.mpr fun _ _ => UInt8.toNat_inj.mp) (h.antisymm h')

variable {α : Type} [DecidableEq α] (collation : Collation α)

/-- `sort -u`. -/
def sortUnique (l : List α) : List α := l.dedup.mergeSort collation.le

/-- There is one line for each distinct one. -/
theorem length_sortUnique (l : List α) : (sortUnique collation l).length = l.dedup.length :=
  List.length_mergeSort l.dedup

/-- The lines come out in the order of the collation. -/
theorem pairwise_sortUnique (l : List α) :
    (sortUnique collation l).Pairwise fun a b => collation.le a b = true :=
  List.pairwise_mergeSort collation.trans collation.total l.dedup

/-- Without repetitions nothing is lost. -/
theorem perm_sortUnique {l : List α} (h : l.Nodup) : (sortUnique collation l).Perm l := by
  rw [sortUnique, h.dedup]
  exact List.mergeSort_perm l collation.le

end HostServices.Lib
