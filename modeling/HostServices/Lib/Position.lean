import Mathlib.Order.Bounds.Basic
import Mathlib.Data.List.Basic

/-!
# The first index that meets a condition

What `position` and `enumerate().find(..)` find, as the least element of a set of indices.

- `indices`: the indices whose entries meet the condition;
- `position`, `findIndex`: the searches, by the entry and by the entry and its index;
- `position_eq_some`, `findIndex_eq_some`: what they find is the least of those indices.
-/

namespace HostServices.Lib

variable {α : Type}

/-- The indices of a list at which the condition holds of the index and the entry. -/
def indices (l : List α) (q : Nat → α → Prop) : Set Nat := {i | ∃ x, l[i]? = some x ∧ q i x}

/-- `iter().position(..)`. -/
def position (l : List α) (p : α → Bool) : Option Nat := l.findIdx? p

/-- `iter().enumerate().find(..)`, of which the index is kept. -/
def findIndex (l : List α) (q : Nat → α → Bool) : Option Nat :=
  (l.zipIdx.find? fun (x, i) => q i x).map Prod.snd

/-- The position is the least one. -/
theorem position_eq_some {l : List α} {p : α → Bool} {i : Nat} :
    position l p = some i ↔ IsLeast (indices l fun _ x => p x) i := by
  rw [position, List.findIdx?_eq_some_iff_getElem]
  constructor
  · rintro ⟨hlt, hp, hfirst⟩
    refine ⟨⟨l[i], List.getElem?_eq_getElem hlt, hp⟩, ?_⟩
    rintro j ⟨x, hx, hpx⟩
    by_contra hji
    obtain ⟨hj, rfl⟩ := List.getElem?_eq_some_iff.mp hx
    exact hfirst j (not_le.mp hji) hpx
  · rintro ⟨⟨x, hx, hp⟩, hleast⟩
    obtain ⟨hlt, rfl⟩ := List.getElem?_eq_some_iff.mp hx
    refine ⟨hlt, hp, ?_⟩
    intro j hji hpj
    have hle : i ≤ j := hleast ⟨l[j], List.getElem?_eq_getElem (hji.trans hlt), hpj⟩
    exact absurd hji (not_lt.mpr hle)

theorem position_eq_none {l : List α} {p : α → Bool} :
    position l p = none ↔ indices l (fun _ x => p x) = ∅ := by
  rw [position, List.findIdx?_eq_none_iff, Set.eq_empty_iff_forall_notMem]
  constructor
  · rintro h i ⟨x, hx, hp⟩
    rw [h x (List.mem_of_getElem? hx)] at hp
    cases hp
  · intro h x hx
    obtain ⟨i, hi⟩ := List.mem_iff_getElem?.mp hx
    exact Bool.eq_false_iff.mpr fun hp => h i ⟨x, hi, hp⟩

/-- The index is the least one. -/
theorem findIndex_eq_some {l : List α} {q : Nat → α → Bool} {i : Nat} :
    findIndex l q = some i ↔ IsLeast (indices l fun i x => q i x) i := by
  have hentry : ∀ (j : Nat) (hj : j < l.length) (hj' : j < l.zipIdx.length),
      l.zipIdx[j] = (l[j], j) := by
    intro j hj hj'
    rw [List.getElem_zipIdx, Nat.zero_add]
  have hlength : l.zipIdx.length = l.length := List.length_zipIdx
  rw [findIndex, Option.map_eq_some_iff]
  constructor
  · rintro ⟨⟨x, _⟩, hfind, rfl⟩
    obtain ⟨hq, j, hj, heq, hfirst⟩ := List.find?_eq_some_iff_getElem.mp hfind
    rw [hentry j (hlength ▸ hj) hj] at heq
    obtain ⟨rfl, rfl⟩ := Prod.mk.inj heq
    refine ⟨⟨_, List.getElem?_eq_getElem _, hq⟩, ?_⟩
    rintro k ⟨y, hy, hqy⟩
    by_contra hkj
    obtain ⟨hk, rfl⟩ := List.getElem?_eq_some_iff.mp hy
    have hnot := hfirst k (not_le.mp hkj)
    rw [hentry k hk] at hnot
    simp [hqy] at hnot
  · rintro ⟨⟨x, hx, hq⟩, hleast⟩
    obtain ⟨hlt, rfl⟩ := List.getElem?_eq_some_iff.mp hx
    refine ⟨(l[i], i), ?_, rfl⟩
    rw [List.find?_eq_some_iff_getElem]
    refine ⟨hq, i, hlength ▸ hlt, hentry i hlt _, ?_⟩
    intro j hji
    rw [hentry j (hji.trans hlt), Bool.not_eq_true']
    refine Bool.eq_false_iff.mpr fun hqj => ?_
    have hle : i ≤ j := hleast ⟨l[j], List.getElem?_eq_getElem (hji.trans hlt), hqj⟩
    exact absurd hji (not_lt.mpr hle)

theorem findIndex_eq_none {l : List α} {q : Nat → α → Bool} :
    findIndex l q = none ↔ indices l (fun i x => q i x) = ∅ := by
  rw [findIndex, Option.map_eq_none_iff, List.find?_eq_none, Set.eq_empty_iff_forall_notMem]
  constructor
  · rintro h i ⟨x, hx, hq⟩
    exact h (x, i) (List.mk_mem_zipIdx_iff_getElem?.mpr hx) hq
  · rintro h ⟨x, i⟩ hmem hq
    exact h i ⟨x, List.mk_mem_zipIdx_iff_getElem?.mp hmem, hq⟩

end HostServices.Lib
