import HostServices.Lib.SortedMap
import Mathlib.Order.Bounds.Basic

/-!
# The smallest value for every key

A map is filled from pairs in any order, and keeps the smallest value of each key.

- `enterLeast`, `leastValues`: an entry, and the loop over the pairs;
- `HoldsLeast`, `holdsLeast_leastValues`: what the map holds;
- `get?_leastValues_of_perm`: the order of the pairs is of no account.
-/

namespace HostServices.Lib.SortedMap

variable {κ β : Type}

/-- The values that stand with a key. -/
def valuesOf (pairs : List (κ × β)) (k : κ) : Set β := {b | (k, b) ∈ pairs}

theorem valuesOf_concat_self (pairs : List (κ × β)) (k : κ) (b : β) :
    valuesOf (pairs ++ [(k, b)]) k = insert b (valuesOf pairs k) := by
  ext b'
  simp [valuesOf, or_comm]

theorem valuesOf_concat_of_ne {k k' : κ} (h : k ≠ k') (pairs : List (κ × β)) (b : β) :
    valuesOf (pairs ++ [(k, b)]) k' = valuesOf pairs k' := by
  ext b'
  simp [valuesOf, h.symm]

variable [LinearOrder κ] [LinearOrder β]

/-- `entry(k).and_modify(|e| if b < *e { *e = b }).or_insert(b)` -/
def enterLeast (m : SortedMap κ β) (pair : κ × β) : SortedMap κ β :=
  m.alter pair.1 fun
    | none => pair.2
    | some existing => if pair.2 < existing then pair.2 else existing

/-- For each key its least value. -/
def leastValues (pairs : List (κ × β)) : SortedMap κ β := pairs.foldl enterLeast empty

/-- The map holds the smallest value of every key that has one. -/
structure HoldsLeast (m : SortedMap κ β) (pairs : List (κ × β)) : Prop where
  least : ∀ k b, m.get? k = some b → IsLeast (valuesOf pairs k) b
  absent : ∀ k, m.get? k = none → valuesOf pairs k = ∅

theorem holdsLeast_empty : HoldsLeast (empty : SortedMap κ β) [] := by
  refine ⟨fun k b h => ?_, fun k _ => ?_⟩
  · cases h
  · exact Set.eq_empty_of_forall_notMem fun b hb => nomatch hb

/-- One more pair. -/
theorem HoldsLeast.enterLeast {m : SortedMap κ β} {pairs : List (κ × β)}
    (h : HoldsLeast m pairs) (pair : κ × β) :
    HoldsLeast (m.enterLeast pair) (pairs ++ [pair]) := by
  obtain ⟨key, value⟩ := pair
  refine ⟨fun k b hget => ?_, fun k hget => ?_⟩
  · by_cases hk : key = k
    · subst hk
      rw [valuesOf_concat_self]
      rw [SortedMap.enterLeast, get?_alter_self, Option.some_inj] at hget
      cases hold : m.get? key with
      | none =>
        rw [hold] at hget
        rw [h.absent key hold, ← hget, insert_empty_eq]
        exact isLeast_singleton
      | some existing =>
        rw [hold] at hget
        have hleast := (h.least key existing hold).insert value
        have hmin : b = min value existing := by
          rw [← hget, min_def_lt]
        rwa [hmin]
    · rw [SortedMap.enterLeast, get?_alter_of_ne m hk] at hget
      rw [valuesOf_concat_of_ne hk]
      exact h.least k b hget
  · by_cases hk : key = k
    · subst hk
      rw [SortedMap.enterLeast, get?_alter_self] at hget
      cases hget
    · rw [SortedMap.enterLeast, get?_alter_of_ne m hk] at hget
      rw [valuesOf_concat_of_ne hk]
      exact h.absent k hget

/-- The map holds the least value of each key. -/
theorem holdsLeast_leastValues (pairs : List (κ × β)) :
    HoldsLeast (leastValues pairs) pairs := by
  have hfold : ∀ (rest done : List (κ × β)) (m : SortedMap κ β), HoldsLeast m done →
      HoldsLeast (rest.foldl SortedMap.enterLeast m) (done ++ rest) := by
    intro rest
    induction rest with
    | nil =>
      intro done m h
      rwa [List.append_nil]
    | cons pair rest ih =>
      intro done m h
      rw [List.foldl_cons, ← List.singleton_append, ← List.append_assoc]
      exact ih (done ++ [pair]) _ (h.enterLeast pair)
  exact hfold pairs [] empty holdsLeast_empty

/-- The order of the pairs does not matter. -/
theorem get?_leastValues_of_perm {pairs pairs' : List (κ × β)} (h : pairs.Perm pairs') (k : κ) :
    (leastValues pairs).get? k = (leastValues pairs').get? k := by
  have hvalues : valuesOf pairs k = valuesOf pairs' k := by
    ext b
    exact h.mem_iff
  have hleft := holdsLeast_leastValues pairs
  have hright := holdsLeast_leastValues pairs'
  cases hget : (leastValues pairs).get? k with
  | none =>
    have hempty := hleft.absent k hget
    cases hget' : (leastValues pairs').get? k with
    | none => rfl
    | some b' =>
      have hmem := (hright.least k b' hget').1
      rw [← hvalues, hempty] at hmem
      exact absurd hmem (Set.notMem_empty b')
  | some b =>
    have hleast := hleft.least k b hget
    rw [hvalues] at hleast
    cases hget' : (leastValues pairs').get? k with
    | none => exact absurd (hright.absent k hget' ▸ hleast.1) (Set.notMem_empty b)
    | some b' => rw [hleast.unique (hright.least k b' hget')]

end HostServices.Lib.SortedMap
