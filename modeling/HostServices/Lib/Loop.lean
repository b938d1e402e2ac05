import Mathlib.Tactic.Common

/-!
# Loops that stop with a result

A `loop` whose body either stops with a result or goes on with another state.

- `LoopRun`: a run of the loop, with the states that it leaves behind;
- `LoopRun.exists_of_measure`: a loop whose body makes a measure smaller stops, after no more
  passes than the measure says;
- `LoopRun.eq_of_unfold`: the function that a recursion computes is the loop's;
- `LoopRun.count_add_le`: how often a counter is raised that the body keeps below a bound.
-/

namespace HostServices.Lib

variable {σ α : Type} {body : σ → α ⊕ σ}

/-- Started in a state, the loop goes on from the states in the list, one after the other, and
stops with the result. -/
inductive LoopRun (body : σ → α ⊕ σ) : σ → List σ → α → Prop
  | stop {s : σ} {a : α} : body s = .inl a → LoopRun body s [] a
  | more {s s' : σ} {left : List σ} {a : α} : body s = .inr s' → LoopRun body s' left a →
      LoopRun body s (s :: left) a

namespace LoopRun

/-- A loop whose measure falls ends, after at most so many turns. -/
theorem exists_of_measure (measure : σ → Nat)
    (h : ∀ s s', body s = .inr s' → measure s' < measure s) (s : σ) :
    ∃ left a, LoopRun body s left a ∧ left.length ≤ measure s := by
  induction hm : measure s using Nat.strongRecOn generalizing s with
  | ind m ih =>
    cases hbody : body s with
    | inl a => exact ⟨[], a, .stop hbody, Nat.zero_le _⟩
    | inr s' =>
      have hlt := h s s' hbody
      rw [hm] at hlt
      obtain ⟨left, a, hrun, hlength⟩ := ih (measure s') hlt s' rfl
      refine ⟨s :: left, a, .more hbody hrun, ?_⟩
      rw [List.length_cons]
      omega

/-- A function that unfolds to the loop is what the loop returns. -/
theorem eq_of_unfold {f : σ → α} (hf : ∀ s, f s = (body s).elim id f) {s : σ} {left : List σ}
    {a : α} (h : LoopRun body s left a) : f s = a := by
  induction h with
  | stop hbody => rw [hf, hbody, Sum.elim_inl, id]
  | more hbody _ ih => rw [hf, hbody, Sum.elim_inr, ih]

/-- A loop that counts some of its turns, up to a bound, makes no more of them. -/
theorem count_add_le {counted : σ → Bool} {counter : σ → Nat} {bound : Nat}
    (hcounted : ∀ s s', body s = .inr s' → counted s = true →
      counter s' = counter s + 1 ∧ counter s' ≤ bound)
    (hother : ∀ s s', body s = .inr s' → counted s = false → counter s' = counter s)
    {s : σ} {left : List σ} {a : α} (h : LoopRun body s left a) (hs : counter s ≤ bound) :
    left.countP counted + counter s ≤ bound := by
  induction h with
  | stop => simpa using hs
  | @more s s' left a hbody _ ih =>
    cases hpass : counted s with
    | true =>
      obtain ⟨hraised, hle⟩ := hcounted s s' hbody hpass
      have hrest := ih hle
      rw [List.countP_cons_of_pos hpass]
      omega
    | false =>
      have hsame := hother s s' hbody hpass
      have hrest := ih (hsame ▸ hs)
      rw [List.countP_cons_of_neg (by rw [hpass]; exact Bool.false_ne_true)]
      omega

end LoopRun

end HostServices.Lib
