import Mathlib.Data.List.Basic
import Mathlib.Tactic.Common

/-!
# Incremental scanners

A *scanner* looks at the front of a buffer and either decides something, in
which case it emits one event and consumes a positive number of items, or has
to wait for more input. The one law it owes is *stability*: a decision never
depends on what has not arrived yet (`look_append`). Everything else about
feeding a scanner piece by piece follows from that law.

- `Scanner.Run b es c`: from buffer `b` the scanner emits the events `es` and
  is left with `c`;
- `Scanner.drain`: run until the scanner has to wait;
- `Run.append`: a run is not disturbed by input that arrives behind it;
- `Run.compare`: of two runs from one buffer, one goes on where the other stops;
- `Run.drain_eq`: stopping part of the way and draining later loses nothing
  and repeats nothing. This is the law that chunk independence comes down to.
-/

namespace HostServices.Lib

universe u v

/-- A decision procedure on the front of a buffer: the event it emits and how
many items it consumes, or `none` while it cannot decide yet. -/
structure Scanner (α : Type u) (ε : Type v) where
  look : List α → Option (ε × Nat)
  look_pos : ∀ {b e n}, look b = some (e, n) → 0 < n
  look_le : ∀ {b e n}, look b = some (e, n) → n ≤ b.length
  look_append : ∀ {b e n}, look b = some (e, n) → ∀ s, look (b ++ s) = some (e, n)

namespace Scanner

variable {α : Type u} {ε : Type v} {S : Scanner α ε}

theorem drop_length_lt (S : Scanner α ε) {b : List α} {e : ε} {n : Nat}
    (h : S.look b = some (e, n)) : (b.drop n).length < b.length := by
  have hpos := S.look_pos h
  have hle := S.look_le h
  rw [List.length_drop]
  omega

/-- The scanner has to wait for more input. -/
def Stuck (S : Scanner α ε) (b : List α) : Prop := S.look b = none

/-- `Run S b es c`: the scanner takes `b` to `c`, emitting `es`. -/
inductive Run (S : Scanner α ε) : List α → List ε → List α → Prop
  | refl (b : List α) : Run S b [] b
  | head {b c : List α} {e : ε} {n : Nat} {es : List ε} :
      S.look b = some (e, n) → Run S (b.drop n) es c → Run S b (e :: es) c

namespace Run

/-- One look. -/
theorem single {b : List α} {e : ε} {n : Nat} (h : S.look b = some (e, n)) :
    Run S b [e] (b.drop n) :=
  .head h (.refl _)

/-- One run after another. -/
theorem trans {a b c : List α} {es fs : List ε} (h₁ : Run S a es b)
    (h₂ : Run S b fs c) : Run S a (es ++ fs) c := by
  induction h₁ with
  | refl _ => exact h₂
  | head hlook _ ih => exact .head hlook (ih h₂)

/-- Input arriving behind the buffer does not disturb a run. -/
theorem append {b c : List α} {es : List ε} (h : Run S b es c) (s : List α) :
    Run S (b ++ s) es (c ++ s) := by
  induction h with
  | refl b => exact .refl _
  | @head b c e n es hlook _ ih =>
    refine .head (S.look_append hlook s) ?_
    rw [List.drop_append_of_le_length (S.look_le hlook)]
    exact ih

/-- A run consumes a prefix of its buffer. -/
theorem suffix {b c : List α} {es : List ε} (h : Run S b es c) : c <:+ b := by
  induction h with
  | refl b => exact List.suffix_refl b
  | head _ _ ih => exact ih.trans (List.drop_suffix _ _)

/-- A run is determined by what it emits. -/
theorem unique {b c d : List α} {es : List ε} (h : Run S b es c) (h' : Run S b es d) :
    c = d := by
  induction h with
  | refl b =>
    cases h'
    rfl
  | head hlook _ ih =>
    cases h' with
    | head hlook' hrest =>
      rw [hlook, Option.some.injEq, Prod.mk.injEq] at hlook'
      obtain ⟨-, rfl⟩ := hlook'
      exact ih hrest

/-- A run can be cut at any of its events. -/
theorem split {b d : List α} {es fs : List ε} (h : Run S b (es ++ fs) d) :
    ∃ c, Run S b es c ∧ Run S c fs d := by
  induction es generalizing b with
  | nil => exact ⟨b, .refl b, h⟩
  | cons e es ih =>
    cases h with
    | head hlook hrest =>
      obtain ⟨c, hfirst, hsecond⟩ := ih hrest
      exact ⟨c, .head hlook hfirst, hsecond⟩

/-- Of two runs from one buffer, one goes on where the other stops. -/
theorem compare {b c d : List α} {es fs : List ε} (h : Run S b es c) (h' : Run S b fs d) :
    (∃ gs, fs = es ++ gs ∧ Run S c gs d) ∨ ∃ gs, es = fs ++ gs ∧ Run S d gs c := by
  induction h generalizing fs with
  | refl b => exact .inl ⟨fs, rfl, h'⟩
  | @head b c e n es hlook hrest ih =>
    cases h' with
    | refl => exact .inr ⟨e :: es, rfl, .head hlook hrest⟩
    | head hlook' hrest' =>
      rw [hlook, Option.some.injEq, Prod.mk.injEq] at hlook'
      obtain ⟨rfl, rfl⟩ := hlook'
      rcases ih hrest' with ⟨gs, rfl, hgo⟩ | ⟨gs, rfl, hgo⟩
      · exact .inl ⟨gs, rfl, hgo⟩
      · exact .inr ⟨gs, rfl, hgo⟩

/-- A run only takes away. -/
theorem length_le {b c : List α} {es : List ε} (h : Run S b es c) :
    c.length ≤ b.length :=
  h.suffix.length_le

/-- A run that emits something consumes something. -/
theorem length_lt {b c : List α} {es : List ε} (h : Run S b es c)
    (hne : es ≠ []) : c.length < b.length := by
  cases h with
  | refl => exact absurd rfl hne
  | head hlook hrest =>
    exact Nat.lt_of_le_of_lt hrest.length_le (S.drop_length_lt hlook)

end Run

/-- Scan until the scanner has to wait: everything it emits, and the buffer it
waits with. -/
def drain (S : Scanner α ε) (b : List α) : List ε × List α :=
  match h : S.look b with
  | none => ([], b)
  | some (e, n) =>
    have := S.drop_length_lt h
    (e :: (S.drain (b.drop n)).1, (S.drain (b.drop n)).2)
termination_by b.length
decreasing_by all_goals assumption

theorem drain_of_stuck {b : List α} (h : S.Stuck b) : S.drain b = ([], b) := by
  rw [drain]
  split
  · rfl
  · rename_i hlook
    rw [Stuck, hlook] at h
    cases h

theorem drain_of_look {b : List α} {e : ε} {n : Nat}
    (h : S.look b = some (e, n)) :
    S.drain b = (e :: (S.drain (b.drop n)).1, (S.drain (b.drop n)).2) := by
  rw [drain]
  split
  · rename_i hlook
    rw [hlook] at h
    cases h
  · rename_i e' n' hlook
    rw [hlook, Option.some.injEq, Prod.mk.injEq] at h
    obtain ⟨rfl, rfl⟩ := h
    rfl

/-- Draining is a run, and it ends stuck. -/
theorem run_drain (S : Scanner α ε) (b : List α) :
    Run S b (S.drain b).1 (S.drain b).2 ∧ S.Stuck (S.drain b).2 := by
  fun_induction S.drain b with
  | case1 b h => exact ⟨.refl b, h⟩
  | case2 b e n h _ ih => exact ⟨.head h ih.1, ih.2⟩

/-- Stopping anywhere and draining later is draining at once. -/
theorem Run.drain_eq {b c : List α} {es : List ε} (h : Run S b es c) :
    S.drain b = (es ++ (S.drain c).1, (S.drain c).2) := by
  induction h with
  | refl b => rfl
  | head hlook _ ih => rw [drain_of_look hlook, ih]; rfl

/-- A run that ends stuck is the drain. -/
theorem Run.drain_eq_of_stuck {b c : List α} {es : List ε} (h : Run S b es c)
    (hc : S.Stuck c) : S.drain b = (es, c) := by
  rw [h.drain_eq, drain_of_stuck hc, List.append_nil]

/-- The resumption law: draining what has arrived, and then what is left of it
together with what arrives later, is draining the whole. -/
theorem drain_append (S : Scanner α ε) (b s : List α) :
    S.drain (b ++ s) =
      ((S.drain b).1 ++ (S.drain ((S.drain b).2 ++ s)).1,
        (S.drain ((S.drain b).2 ++ s)).2) :=
  ((S.run_drain b).1.append s).drain_eq

end Scanner

end HostServices.Lib
