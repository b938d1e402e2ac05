import HostServices.Lib.CommaList
import HostServices.Lib.FromStr
import HostServices.Lib.Text

/-!
# Tables of columns

A table as a program prints it for another one: a line for each row, the columns of a row with
commas between them. Nothing is quoted, so a column has neither a comma nor a blank.

- `IsColumn`, `commaRow`, `commaTable`: what is printed;
- `filterMap_lines_commaTable`, `splitOn_commaRow`, `trim_column`: how it is read back;
- `isColumn_toDigits`, `isColumn_i64Chars`, `parseUnsigned_toDigits`: columns of numbers.
-/

namespace HostServices.Lib

/-- A text that can stand in a column. -/
def IsColumn (text : List Char) : Prop := ∀ c ∈ text, c ≠ ',' ∧ isWhitespace c = false

instance (text : List Char) : Decidable (IsColumn text) :=
  decidable_of_iff (text.all (fun c => c != ',' && !isWhitespace c) = true) (by simp [IsColumn])

/-- The columns of a row, with commas between them. -/
def commaRow (columns : List (List Char)) : List Char := [','].intercalate columns

/-- The rows of a table, a line each. -/
def commaTable (rows : List (List (List Char))) : List Char :=
  rows.flatMap fun row => commaRow row ++ ['\n']

theorem isWhitespace_of_mem_commaRow {columns : List (List Char)} {c : Char}
    (h : ∀ column ∈ columns, IsColumn column) (hc : c ∈ commaRow columns) :
    isWhitespace c = false := by
  rcases mem_of_mem_intercalate hc with rfl | ⟨column, hcolumn, hmem⟩
  · decide
  · exact (h column hcolumn c hmem).2

/-- A row falls apart into its columns. -/
theorem splitOn_commaRow {columns : List (List Char)} (hne : columns ≠ [])
    (h : ∀ column ∈ columns, IsColumn column) : (commaRow columns).splitOn ',' = columns :=
  List.splitOn_intercalate ',' (fun column hcolumn hmem => (h column hcolumn _ hmem).1 rfl) hne

/-- A table falls apart into its rows. -/
theorem lines_commaTable {rows : List (List (List Char))}
    (h : ∀ row ∈ rows, ∀ column ∈ row, IsColumn column) :
    lines (commaTable rows) = rows.map commaRow := by
  refine lines_flatMap fun row hrow => ⟨fun hfeed => ?_, fun hlast => ?_⟩
  · exact absurd (isWhitespace_of_mem_commaRow (h row hrow) hfeed) (by decide)
  · have hmem := List.mem_of_getLast? hlast
    exact absurd (isWhitespace_of_mem_commaRow (h row hrow) hmem) (by decide)

/-- A table is read row by row. -/
theorem filterMap_lines_commaTable {ρ σ : Type} {columns : ρ → List (List Char)}
    {read : List Char → Option σ} {record : ρ → σ} (rows : List ρ)
    (hcolumns : ∀ row, ∀ column ∈ columns row, IsColumn column)
    (hread : ∀ row, read (commaRow (columns row)) = some (record row)) :
    (lines (commaTable (rows.map columns))).filterMap read = rows.map record := by
  have htable : ∀ row ∈ rows.map columns, ∀ column ∈ row, IsColumn column := by
    intro _ hrow
    obtain ⟨row, -, rfl⟩ := List.mem_map.mp hrow
    exact hcolumns row
  have hrecord : (read ∘ commaRow ∘ columns) = some ∘ record := funext hread
  rw [lines_commaTable htable, List.map_map, List.filterMap_map, hrecord, List.filterMap_eq_map]

/-- A column has no blanks to take off. -/
theorem trim_column {column : List Char} (h : IsColumn column) : trim column = column :=
  trim_of_nonblank fun c hc => (h c hc).2

/-! ## Numbers -/

theorem isColumn_digitChar : ∀ n : Fin 10, IsColumn [n.val.digitChar] := by
  decide

theorem isColumn_cons {c : Char} {text : List Char} (hc : IsColumn [c]) (h : IsColumn text) :
    IsColumn (c :: text) := by
  intro d hd
  rcases List.mem_cons.mp hd with rfl | hd
  · exact hc d List.mem_cons_self
  · exact h d hd

theorem isColumn_append {front back : List Char} (hfront : IsColumn front) (hback : IsColumn back) :
    IsColumn (front ++ back) := by
  intro c hc
  rcases List.mem_append.mp hc with hc | hc
  · exact hfront c hc
  · exact hback c hc

theorem isColumn_toDigits {base : Nat} (hbase : 1 < base) (hle : base ≤ 10) (n : Nat) :
    IsColumn (Nat.toDigits base n) := by
  induction n using Nat.strongRecOn with
  | ind n ih =>
    by_cases hn : n < base
    · rw [Nat.toDigits_of_lt_base hn]
      exact isColumn_digitChar ⟨n, by omega⟩
    · have hdiv : n / base < n := Nat.div_lt_self (by omega) hbase
      have hmod : n % base < 10 := Nat.lt_of_lt_of_le (Nat.mod_lt n (by omega)) hle
      rw [Nat.toDigits_of_base_le hbase (by omega)]
      exact isColumn_append (ih _ hdiv) (isColumn_digitChar ⟨n % base, hmod⟩)

theorem isColumn_i64Chars (n : Int64) : IsColumn (i64Chars n) := by
  have hdigits := isColumn_toDigits (by decide : 1 < 10) (Nat.le_refl 10) n.toInt.natAbs
  rw [i64Chars]
  split_ifs
  · exact isColumn_cons (by decide) hdigits
  · exact hdigits

/-- A number in range is read back from its digits. -/
theorem parseUnsigned_toDigits {bound n : Nat} (h : n < bound) :
    parseUnsigned bound (String.ofList (Nat.toDigits 10 n)) = some n := by
  have hfits := Option.filter_some_pos (p := fun x : Nat => decide (x < bound)) (a := n)
    (decide_eq_true h)
  obtain ⟨c, cs, hdigits, hplus, -⟩ := toDigits_eq_cons n
  have hread := digits_toDigits n
  rw [hdigits] at hread ⊢
  rw [parseUnsigned, String.toList_ofList]
  split
  · rename_i heq
    exact absurd (List.cons.inj heq).1 hplus
  · rw [hread, hfits]

end HostServices.Lib
