import Mathlib.Algebra.Order.Group.Abs
import Mathlib.Data.List.Sort
import Mathlib.Tactic.Common

/-!
# Medians and spans

- `upperMedian`: the middle of the sorted values, the upper one of two;
- `Spans`: no two of the values are further apart than a bound;
- `upperMedian_perm`: the order the values come in does not matter;
- `spans_iff_of_extremes`: it is enough to look at the largest and the smallest value.
-/

namespace HostServices.Lib

section Order

variable {α : Type} [LinearOrder α]

/-- The element in the middle of the sorted values; of an even number of values
the upper one of the two that stand there. -/
def upperMedian (values : List α) : Option α :=
  (values.insertionSort (· ≤ ·))[values.length / 2]?

/-- The median is one of the values. -/
theorem upperMedian_mem {values : List α} {m : α} (h : upperMedian values = some m) :
    m ∈ values :=
  (List.mem_insertionSort (· ≤ ·)).mp (List.mem_of_getElem? h)

/-- Only an empty list of values has no median. -/
theorem exists_upperMedian {values : List α} (h : values ≠ []) :
    ∃ m, upperMedian values = some m := by
  have hpos := List.length_pos_iff.mpr h
  have hlt : values.length / 2 < (values.insertionSort (· ≤ ·)).length := by
    rw [List.length_insertionSort]
    omega
  exact ⟨_, List.getElem?_eq_getElem hlt⟩

/-- The order of the values does not matter. -/
theorem upperMedian_perm {values values' : List α} (h : values.Perm values') :
    upperMedian values = upperMedian values' := by
  have hsorted : values.insertionSort (· ≤ ·) = values'.insertionSort (· ≤ ·) := by
    apply List.Perm.eq_of_sortedLE List.sortedLE_insertionSort List.sortedLE_insertionSort
    exact (List.perm_insertionSort _ values).trans
      (h.trans (List.perm_insertionSort _ values').symm)
  rw [upperMedian, upperMedian, hsorted, h.length_eq]

end Order

section Group

variable {G : Type} [AddCommGroup G] [LinearOrder G] [IsOrderedAddMonoid G]

/-- No two of the values are more than `d` apart. -/
def Spans (values : List G) (d : G) : Prop :=
  ∀ x ∈ values, ∀ y ∈ values, x - y ≤ d

theorem Spans.abs_sub_le {values : List G} {d x y : G} (h : Spans values d) (hx : x ∈ values)
    (hy : y ∈ values) : |x - y| ≤ d := by
  rw [abs_le]
  constructor
  · have hyx := h y hy x hx
    rw [← neg_sub]
    exact neg_le_neg hyx
  · exact h x hx y hy

/-- The span is that between the largest and the smallest value. -/
theorem spans_iff_of_extremes {values : List G} {d newest oldest : G}
    (hnew : newest ∈ values ∧ ∀ v ∈ values, v ≤ newest)
    (hold : oldest ∈ values ∧ ∀ v ∈ values, oldest ≤ v) :
    Spans values d ↔ newest - oldest ≤ d := by
  constructor
  · intro h
    exact h newest hnew.1 oldest hold.1
  · intro h x hx y hy
    exact (sub_le_sub (hnew.2 x hx) (hold.2 y hy)).trans h

end Group

end HostServices.Lib
