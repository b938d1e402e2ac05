import Mathlib.Data.List.Chain
import Mathlib.Order.CompletePartialOrder
import Mathlib.Order.Interval.Set.Disjoint
import Mathlib.Tactic.Common

/-!
# Consecutive intervals

A list of half-open intervals, each given by its two ends.

- `Consecutive`: each interval begins where the one before it ended;
- `Tiles`: what such a list does to the order it lives in, nothing twice and nothing left out;
- `tiles_iff_consecutive`: that each interval follows on from the last is all there is to it.
-/

namespace HostServices.Lib

variable {α : Type} [LinearOrder α]

/-- Each interval begins where the one before it ended. -/
def Consecutive (ws : List (α × α)) : Prop := ws.IsChain fun v w => w.1 = v.2

/-- The intervals tile the order from the first one's begin to the last one's end. -/
structure Tiles (ws : List (α × α)) : Prop where
  consecutive : Consecutive ws
  disjoint : ws.Pairwise fun v w => Disjoint (Set.Ico v.1 v.2) (Set.Ico w.1 w.2)
  /-- no instant between the first and the last one is left out -/
  covered : ∀ v ∈ ws.head?, ∀ w ∈ ws.getLast?, ∀ x, v.1 ≤ x → x < w.2 →
    ∃ u ∈ ws, x ∈ Set.Ico u.1 u.2

/-- What comes later begins no earlier than the first one's end. -/
theorem Consecutive.le_of_mem {v : α × α} {ws : List (α × α)} (h : Consecutive (v :: ws))
    (hvalid : ∀ w ∈ ws, w.1 ≤ w.2) : ∀ w ∈ ws, v.2 ≤ w.1 := by
  induction ws generalizing v with
  | nil =>
    intro w hw
    cases hw
  | cons u ws ih =>
    obtain ⟨hu, h⟩ := List.isChain_cons_cons.mp h
    intro w hw
    rcases List.mem_cons.mp hw with rfl | hw
    · exact hu.ge
    · have hle := ih h (fun w hw => hvalid w (List.mem_cons_of_mem u hw)) w hw
      calc
        v.2 = u.1 := hu.symm
        _ ≤ u.2 := hvalid u List.mem_cons_self
        _ ≤ w.1 := hle

/-- Windows that follow on each other do not overlap. -/
theorem Consecutive.pairwise_disjoint {ws : List (α × α)} (h : Consecutive ws)
    (hvalid : ∀ w ∈ ws, w.1 ≤ w.2) :
    ws.Pairwise fun v w => Disjoint (Set.Ico v.1 v.2) (Set.Ico w.1 w.2) := by
  induction ws with
  | nil => exact List.Pairwise.nil
  | cons v ws ih =>
    have hvalid' : ∀ w ∈ ws, w.1 ≤ w.2 := fun w hw => hvalid w (List.mem_cons_of_mem v hw)
    refine List.pairwise_cons.mpr ⟨?_, ih h.tail hvalid'⟩
    intro w hw
    rw [Set.Ico_disjoint_Ico]
    have hle := h.le_of_mem hvalid' w hw
    exact (min_le_left _ _).trans (hle.trans (le_max_right _ _))

/-- Consecutive intervals leave no gap. -/
theorem Consecutive.exists_mem {v w : α × α} {ws : List (α × α)} {x : α}
    (h : Consecutive (v :: ws)) (hlast : w ∈ (v :: ws).getLast?) (hv : v.1 ≤ x) (hw : x < w.2) :
    ∃ u ∈ v :: ws, x ∈ Set.Ico u.1 u.2 := by
  induction ws generalizing v with
  | nil =>
    cases hlast
    exact ⟨v, List.mem_cons_self, hv, hw⟩
  | cons u ws ih =>
    obtain ⟨hu, h⟩ := List.isChain_cons_cons.mp h
    -- the instant lies in the first interval, or the second one begins no later than it
    by_cases hx : x < v.2
    · exact ⟨v, List.mem_cons_self, hv, hx⟩
    · have hux : u.1 ≤ x := by
        rw [hu]
        exact not_lt.mp hx
      rw [List.getLast?_cons_cons] at hlast
      obtain ⟨t, ht, hxt⟩ := ih h hlast hux
      exact ⟨t, List.mem_cons_of_mem v ht, hxt⟩

/-- **Windows tile the line just if each begins where the one before it ends.** -/
theorem tiles_iff_consecutive {ws : List (α × α)} (hvalid : ∀ w ∈ ws, w.1 ≤ w.2) :
    Tiles ws ↔ Consecutive ws := by
  constructor
  · exact Tiles.consecutive
  · intro h
    refine ⟨h, h.pairwise_disjoint hvalid, ?_⟩
    intro v hv w hw x hvx hxw
    cases ws with
    | nil => cases hv
    | cons u ws =>
      cases hv
      exact h.exists_mem hw hvx hxw

end HostServices.Lib
