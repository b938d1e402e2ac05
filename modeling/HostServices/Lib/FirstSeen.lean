import Mathlib.Data.List.Basic
import Mathlib.Tactic.Common

/-!
# First appearances, with strays among them

A list is collected in the order of first appearances, but some of what is collected does not
belong to it. When does the result stay the same?

- `newOnes`: what a list brings new to what was seen, in order;
- `eraseDups_eq`: first appearances are what is new from the start;
- `HarmlessStrays`: every stray was seen before, or is what comes new next anyway;
- `eraseDups_strays_iff`: just then do the strays change nothing.
-/

namespace HostServices.Lib

variable {α : Type} [DecidableEq α]

/-! ## What is new -/

/-- The entries that are not among those seen, each at its first place. -/
def newOnes (seen : List α) : List α → List α
  | [] => []
  | a :: l => if a ∈ seen then newOnes seen l else a :: newOnes (a :: seen) l

/-- Only which entries were seen matters. -/
theorem newOnes_congr {seen seen' : List α} (h : ∀ a, a ∈ seen ↔ a ∈ seen') (l : List α) :
    newOnes seen l = newOnes seen' l := by
  induction l generalizing seen seen' with
  | nil => rfl
  | cons a l ih =>
    rw [newOnes, newOnes]
    by_cases ha : a ∈ seen
    · rw [if_pos ha, if_pos ((h a).mp ha), ih h]
    · have hcons : ∀ b, b ∈ a :: seen ↔ b ∈ a :: seen' := by
        intro b
        rw [List.mem_cons, List.mem_cons, h b]
      rw [if_neg ha, if_neg fun hmem => ha ((h a).mpr hmem), ih hcons]

theorem newOnes_eq (seen l : List α) : newOnes seen l = (l.filter (· ∉ seen)).eraseDups := by
  induction l generalizing seen with
  | nil => rfl
  | cons a l ih =>
    rw [newOnes]
    by_cases ha : a ∈ seen
    · rw [if_pos ha, List.filter_cons_of_neg (by simpa using ha), ih]
    · rw [if_neg ha, List.filter_cons_of_pos (by simpa using ha), List.eraseDups_cons, ih,
        List.filter_filter]
      congr 2
      refine List.filter_congr fun b _ => ?_
      by_cases hb : b = a <;> simp [hb]

/-- Erasing duplicates keeps the first places. -/
theorem eraseDups_eq (l : List α) : l.eraseDups = newOnes [] l := by
  rw [newOnes_eq, List.filter_eq_self.mpr (by simp)]

/-- What comes new first. -/
theorem newOnes_eq_cons {seen l rest : List α} {a : α} :
    newOnes seen l = a :: rest ↔
      l.find? (· ∉ seen) = some a ∧ rest = newOnes (a :: seen) l := by
  induction l with
  | nil =>
    constructor
    · intro h
      cases h
    · rintro ⟨h, _⟩
      cases h
  | cons b l ih =>
    rw [newOnes]
    by_cases hb : b ∈ seen
    · have hskip : newOnes (a :: seen) (b :: l) = newOnes (a :: seen) l := by
        rw [newOnes, if_pos (List.mem_cons_of_mem a hb)]
      rw [if_pos hb, List.find?_cons_of_neg (by simpa using hb), ih, hskip]
    · rw [if_neg hb, List.find?_cons_of_pos (by simpa using hb), Option.some_inj]
      constructor
      · intro h
        obtain ⟨rfl, rfl⟩ := List.cons.inj h
        exact ⟨rfl, by rw [newOnes, if_pos List.mem_cons_self]⟩
      · rintro ⟨rfl, rfl⟩
        rw [newOnes, if_pos List.mem_cons_self]

/-! ## Strays -/

/-- The entries of a list in which strays are marked with `false`. -/
def entries (l : List (Bool × α)) : List α := (l.filter Prod.fst).map Prod.snd

theorem entries_true {β : Type} (a : β) (l : List (Bool × β)) :
    entries ((true, a) :: l) = a :: entries l := rfl

theorem entries_false {β : Type} (a : β) (l : List (Bool × β)) :
    entries ((false, a) :: l) = entries l := rfl

/-- Every stray was seen before, or is what the entries behind it bring new first. -/
def HarmlessAfter (seen : List α) (l : List (Bool × α)) : Prop :=
  ∀ before a after, l = before ++ (false, a) :: after →
    a ∈ seen ++ before.map Prod.snd ∨
      (entries after).find? (· ∉ seen ++ before.map Prod.snd) = some a

/-- No stray changes the first places, from the beginning on. -/
def HarmlessStrays (l : List (Bool × α)) : Prop := HarmlessAfter [] l

theorem find?_notMem_congr {seen seen' : List α} (h : ∀ a, a ∈ seen ↔ a ∈ seen') (l : List α) :
    l.find? (· ∉ seen) = l.find? (· ∉ seen') := by
  congr 1
  funext a
  exact decide_eq_decide.mpr (not_congr (h a))

/-- One element further. -/
theorem harmlessAfter_cons {seen : List α} {marked : Bool} {a : α} {l : List (Bool × α)} :
    HarmlessAfter seen ((marked, a) :: l) ↔
      (marked = false → a ∈ seen ∨ (entries l).find? (· ∉ seen) = some a) ∧
        HarmlessAfter (a :: seen) l := by
  have hmem : ∀ (before : List (Bool × α)) (b : α),
      b ∈ seen ++ ((marked, a) :: before).map Prod.snd ↔
        b ∈ a :: seen ++ before.map Prod.snd := by
    intro before b
    simp only [List.map_cons, List.mem_append, List.mem_cons, List.cons_append]
    tauto
  constructor
  · intro h
    refine ⟨?_, ?_⟩
    · rintro rfl
      have hhead := h [] a l rfl
      rwa [List.map_nil, List.append_nil] at hhead
    · intro before b after heq
      have htail := h ((marked, a) :: before) b after (by rw [heq]; rfl)
      rwa [hmem, find?_notMem_congr (hmem before)] at htail
  · rintro ⟨hhead, htail⟩ before b after heq
    cases before with
    | nil =>
      obtain ⟨hfirst, rfl⟩ := List.cons.inj heq
      obtain ⟨rfl, rfl⟩ := Prod.mk.inj hfirst
      rw [List.map_nil, List.append_nil]
      exact hhead rfl
    | cons c before =>
      obtain ⟨rfl, rfl⟩ := List.cons.inj heq
      rw [hmem, find?_notMem_congr (hmem before)]
      exact htail before b after rfl

/-- The strays change no first place just if each of them is harmless. -/
theorem newOnes_strays_iff (seen : List α) (l : List (Bool × α)) :
    newOnes seen (l.map Prod.snd) = newOnes seen (entries l) ↔ HarmlessAfter seen l := by
  induction l generalizing seen with
  | nil =>
    constructor
    · rintro - before a after heq
      exact absurd heq.symm (by simp)
    · exact fun _ => rfl
  | cons e l ih =>
    obtain ⟨marked, a⟩ := e
    rw [harmlessAfter_cons, List.map_cons, newOnes, ← ih (a :: seen)]
    have hsame : a ∈ seen → ∀ l', newOnes seen l' = newOnes (a :: seen) l' := by
      intro ha l'
      refine newOnes_congr (fun b => ?_) l'
      rw [List.mem_cons]
      exact ⟨.inr, fun hb => hb.elim (fun heq => heq ▸ ha) id⟩
    cases marked with
    | true =>
      rw [entries_true, newOnes]
      by_cases ha : a ∈ seen
      · rw [if_pos ha, if_pos ha, hsame ha, hsame ha]
        simp
      · rw [if_neg ha, if_neg ha, List.cons_inj_right]
        simp
    | false =>
      rw [entries_false]
      by_cases ha : a ∈ seen
      · rw [if_pos ha, hsame ha, hsame ha]
        simp [ha]
      · rw [if_neg ha, eq_comm, newOnes_eq_cons]
        simp only [ha, false_or, forall_const]

/-- **The strays change nothing just when they are harmless.** -/
theorem eraseDups_strays_iff (l : List (Bool × α)) :
    (l.map Prod.snd).eraseDups = (entries l).eraseDups ↔ HarmlessStrays l := by
  rw [eraseDups_eq, eraseDups_eq]
  exact newOnes_strays_iff [] l

end HostServices.Lib
