import Mathlib.Data.List.Basic

/-!
# Protocols

A protocol says of each entry of a log whether it may come next, and where the protocol stands
behind it. A log follows the protocol if its entries do, one after the other.

- `follows_append`, `follows_keeps`: a log in two parts, and what it keeps;
- `Throughout`: what holds all along a log;
- `Justified`: what every entry owes to the entries before it;
- `last_entry`: where it began to hold.
-/

namespace HostServices.Lib

variable {σ α : Type} {next : σ → α → Option σ}

/-- Where a protocol stands behind a log that follows it. -/
abbrev follows (next : σ → α → Option σ) (s : σ) (log : List α) : Option σ := log.foldlM next s

theorem follows_cons {s t : σ} {a : α} {log : List α} :
    follows next s (a :: log) = some t ↔
      ∃ mid, next s a = some mid ∧ follows next mid log = some t := by
  rw [follows, List.foldlM_cons]
  exact Option.bind_eq_some_iff

theorem follows_append {s t : σ} {log log' : List α} :
    follows next s (log ++ log') = some t ↔
      ∃ mid, follows next s log = some mid ∧ follows next mid log' = some t := by
  rw [follows, List.foldlM_append]
  exact Option.bind_eq_some_iff

/-- What every entry keeps, a log keeps. -/
theorem follows_keeps {P : σ → Prop} (hstep : ∀ {s a t}, P s → next s a = some t → P t) {s t : σ}
    {log : List α} (hs : P s) (h : follows next s log = some t) : P t := by
  induction log generalizing s with
  | nil =>
    cases h
    exact hs
  | cons a log ih =>
    obtain ⟨mid, ha, hrest⟩ := follows_cons.mp h
    exact ih (hstep hs ha) hrest

/-- The property holds wherever the protocol stands along the log. -/
def Throughout (next : σ → α → Option σ) (P : σ → Prop) (s : σ) (log : List α) : Prop :=
  ∀ front back, log = front ++ back → ∃ t, follows next s front = some t ∧ P t

/-- Every entry is justified by what stands before it. -/
def Justified (P : List α → α → Prop) (log : List α) : Prop :=
  ∀ before a after, log = before ++ a :: after → P before a

theorem Justified.append {P : List α → α → Prop} {log more : List α} (h : Justified P log)
    (hmore : Justified (fun before => P (log ++ before)) more) : Justified P (log ++ more) := by
  intro before a after heq
  rcases List.append_eq_append_iff.mp heq with ⟨middle, rfl, hmiddle⟩ | ⟨middle, rfl, hmiddle⟩
  · exact hmore middle a after hmiddle
  · cases middle with
    | nil =>
      have hfirst := hmore [] a after hmiddle.symm
      rwa [List.append_nil, List.append_nil] at hfirst
    | cons b middle =>
      cases hmiddle
      exact h before a middle rfl

/-- What is left of a log, where the justifications are left with it. -/
theorem Justified.filter {P Q : List α → α → Prop} {log : List α} (h : Justified P log)
    (p : α → Bool) (hQ : ∀ before a, p a → P before a → Q (before.filter p) a) :
    Justified Q (log.filter p) := by
  intro before a after heq
  obtain ⟨front, back, rfl, rfl, hback⟩ := List.filter_eq_append_iff.mp heq
  obtain ⟨skipped, behind, rfl, hskipped, hp, -⟩ := List.filter_eq_cons_iff.mp hback
  have hfront := hQ (front ++ skipped) a hp
    (h (front ++ skipped) a behind (List.append_assoc ..).symm)
  have hnone : skipped.filter p = [] :=
    List.filter_eq_nil_iff.mpr fun b hb => hskipped b hb
  rwa [List.filter_append, hnone, List.append_nil] at hfront

theorem throughout_nil {P : σ → Prop} {s : σ} (hs : P s) : Throughout next P s [] := by
  intro front back h
  obtain ⟨rfl, rfl⟩ := List.append_eq_nil_iff.mp h.symm
  exact ⟨s, rfl, hs⟩

theorem throughout_cons {P : σ → Prop} {s mid : σ} {a : α} {log : List α} (hs : P s)
    (ha : next s a = some mid) (h : Throughout next P mid log) :
    Throughout next P s (a :: log) := by
  intro front back hlog
  cases front with
  | nil => exact ⟨s, rfl, hs⟩
  | cons b front =>
    cases hlog
    obtain ⟨t, ht, hP⟩ := h front back rfl
    exact ⟨t, follows_cons.mpr ⟨mid, ha, ht⟩, hP⟩

/-- An entry of such a log comes from where the property holds, and leads there. -/
theorem Throughout.entry {P : σ → Prop} {s : σ} {log front back : List α} {a : α}
    (h : Throughout next P s log) (hlog : log = front ++ a :: back) :
    ∃ t u, P t ∧ next t a = some u ∧ P u := by
  obtain ⟨t, ht, hPt⟩ := h front (a :: back) hlog
  obtain ⟨u, hu, hPu⟩ := h (front ++ [a]) back (by rw [hlog, List.append_assoc]; rfl)
  obtain ⟨t', ht', hnext⟩ := follows_append.mp hu
  rw [ht] at ht'
  cases ht'
  obtain ⟨u', hu', hend⟩ := follows_cons.mp hnext
  cases hend
  exact ⟨t, u, hPt, hu', hPu⟩

/-- What holds in the end and did not hold in the beginning came with an entry, and has held
ever since. -/
theorem last_entry {P : σ → Prop} {s t : σ} {log : List α} (h : follows next s log = some t)
    (hs : ¬ P s) (ht : P t) :
    ∃ before a after mid mid', log = before ++ a :: after ∧ follows next s before = some mid ∧
      ¬ P mid ∧ next mid a = some mid' ∧ P mid' ∧ Throughout next P mid' after := by
  -- either it has held from the start, or it began with an entry
  have hgeneral : ∀ {s : σ} {log : List α}, follows next s log = some t →
      Throughout next P s log ∨ ∃ before a after mid mid', log = before ++ a :: after ∧
        follows next s before = some mid ∧ ¬ P mid ∧ next mid a = some mid' ∧ P mid' ∧
          Throughout next P mid' after := by
    intro s log h
    induction log generalizing s with
    | nil =>
      cases h
      exact .inl (throughout_nil ht)
    | cons a log ih =>
      obtain ⟨mid, ha, hrest⟩ := follows_cons.mp h
      rcases ih hrest with hall | ⟨before, b, after, u, u', rfl, hbefore, hu⟩
      · by_cases hs : P s
        · exact .inl (throughout_cons hs ha hall)
        · refine .inr ⟨[], a, log, s, mid, rfl, rfl, hs, ha, ?_, hall⟩
          obtain ⟨_, hend, hP⟩ := hall [] log rfl
          cases hend
          exact hP
      · exact .inr ⟨a :: before, b, after, u, u', rfl, follows_cons.mpr ⟨mid, ha, hbefore⟩, hu⟩
  rcases hgeneral h with hall | hentry
  · obtain ⟨_, hend, hP⟩ := hall [] log rfl
    cases hend
    exact absurd hP hs
  · exact hentry

end HostServices.Lib
