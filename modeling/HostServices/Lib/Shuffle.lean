import HostServices.Lib.Fallible
import Mathlib.Data.List.Basic

/-!
# Shuffling by swaps

A list is shuffled from its end: every entry is swapped with one that is picked at or before
it. Whatever is picked, nothing is lost.

- `swapEntries`: `items.swap(i, j)`, which panics behind the end;
- `swapDown`: the loop, over any way of picking;
- `swapDown_perm`: it does not panic, and the result is the list in another order.
-/

namespace HostServices.Lib

variable {σ α : Type}

/-- `items.swap(i, j)` -/
def swapEntries (items : List α) (i j : Nat) : Except Stop (List α) :=
  match items[i]?, items[j]? with
  | some a, some b => .ok ((items.set i b).set j a)
  | _, _ => .error (.panic "index out of bounds")

/-- A swap within bounds succeeds, and keeps the entries. -/
theorem swapEntries_perm {items : List α} {i j : Nat} (hi : i < items.length)
    (hj : j < items.length) :
    ∃ swapped, swapEntries items i j = .ok swapped ∧ swapped.Perm items := by
  refine ⟨(items.set i items[j]).set j items[i], ?_, ?_⟩
  · rw [swapEntries, List.getElem?_eq_getElem hi, List.getElem?_eq_getElem hj]
  · have hswap : (items.toArray.swap i j hi hj).Perm items.toArray := Array.swap_perm hi hj
    have hlist := Array.perm_iff_toList_perm.mp hswap
    rwa [Array.toList_swap] at hlist

/-- `for index in (1..=top).rev()`: the entry is swapped with the one that is picked. -/
def swapDown (pick : Nat → σ → Nat × σ) : Nat → σ → List α → Except Stop (List α)
  | 0, _, items => .ok items
  | index + 1, state, items => do
    let (other, state) := pick (index + 1) state
    let items ← swapEntries items (index + 1) other
    swapDown pick index state items

/-- Any number of swaps keeps the items. -/
theorem swapDown_perm {pick : Nat → σ → Nat × σ}
    (hpick : ∀ index state, (pick index state).1 ≤ index) {top : Nat} {items : List α}
    (htop : top ≤ items.length - 1) (state : σ) :
    ∃ shuffled, swapDown pick top state items = .ok shuffled ∧ shuffled.Perm items := by
  induction top generalizing items state with
  | zero => exact ⟨items, rfl, .refl items⟩
  | succ index ih =>
    have hother := hpick (index + 1) state
    have hindex : index + 1 < items.length := by omega
    have hpicked : (pick (index + 1) state).1 < items.length := by omega
    obtain ⟨swapped, hswap, hperm⟩ := swapEntries_perm hindex hpicked
    have hswapped : index ≤ swapped.length - 1 := by
      rw [hperm.length_eq]
      omega
    obtain ⟨shuffled, hrest, hshuffled⟩ := ih hswapped (pick (index + 1) state).2
    refine ⟨shuffled, ?_, hshuffled.trans hperm⟩
    rw [swapDown]
    exact bind_eq_ok.mpr ⟨swapped, hswap, hrest⟩

end HostServices.Lib
