import Mathlib.Algebra.BigOperators.Group.List.Basic
import Mathlib.Algebra.Ring.Nat
import Mathlib.Order.Lattice
import Mathlib.Tactic.Common

/-!
# Maps whose entries stand in the order of their keys

What a `BTreeMap` is to the code that fills it and then takes its values in order.

- `SortedMap`: the entries, and that their keys ascend;
- `alter`, `modify`: `entry(..).or_insert_with(..)` and `get_mut(..)`, with what is done to
  the value;
- `alterEntries_cases`: what `alter` does, said once;
- `get?_alter`, `forall_alter`, `sum_alter`: what follows for a key, for a property of all
  entries, and for a sum over them.
-/

namespace HostServices.Lib

/-- A map as the list of its entries in the order of their keys. -/
structure SortedMap (κ α : Type) [LinearOrder κ] where
  entries : List (κ × α)
  sorted : entries.Pairwise fun e e' => e.1 < e'.1

namespace SortedMap

variable {κ α : Type} [LinearOrder κ]

/-! ## Operations -/

/-- The map without an entry. -/
def empty : SortedMap κ α := ⟨[], .nil⟩

/-- The value of a key, if it has one. -/
def getEntry (entries : List (κ × α)) (k : κ) : Option α :=
  (entries.find? fun e => e.1 = k).map Prod.snd

/-- The value of a key. -/
def get? (m : SortedMap κ α) (k : κ) : Option α := getEntry m.entries k

/-- `into_values().collect()`. -/
def values (m : SortedMap κ α) : List α := m.entries.map Prod.snd

/-- The value of the key is replaced, or one is entered where the order wants it. -/
def alterEntries (k : κ) (f : Option α → α) : List (κ × α) → List (κ × α)
  | [] => [(k, f none)]
  | e :: rest =>
    if k < e.1 then (k, f none) :: e :: rest
    else if k = e.1 then (k, f (some e.2)) :: rest
    else e :: alterEntries k f rest

/-- Entries with the key on both sides of its place. -/
theorem alterEntries_cases (k : κ) (f : Option α → α) {l : List (κ × α)}
    (h : l.Pairwise fun e e' => e.1 < e'.1) :
    ∃ before after, (∀ e ∈ before, e.1 < k) ∧ (∀ e ∈ after, k < e.1) ∧
      ((l = before ++ after ∧ alterEntries k f l = before ++ (k, f none) :: after) ∨
        ∃ a, l = before ++ (k, a) :: after ∧
          alterEntries k f l = before ++ (k, f (some a)) :: after) := by
  induction l with
  | nil => exact ⟨[], [], by simp, by simp, .inl ⟨rfl, rfl⟩⟩
  | cons e rest ih =>
    obtain ⟨hfirst, hrest⟩ := List.pairwise_cons.mp h
    rw [alterEntries]
    rcases lt_trichotomy k e.1 with hlt | rfl | hgt
    · rw [if_pos hlt]
      refine ⟨[], e :: rest, by simp, ?_, .inl ⟨rfl, rfl⟩⟩
      exact List.forall_mem_cons.mpr ⟨hlt, fun e' he' => hlt.trans (hfirst e' he')⟩
    · rw [if_neg (lt_irrefl _), if_pos rfl]
      exact ⟨[], rest, by simp, hfirst, .inr ⟨e.2, rfl, rfl⟩⟩
    · rw [if_neg hgt.not_gt, if_neg hgt.ne']
      obtain ⟨before, after, hbefore, hafter, hshape⟩ := ih hrest
      refine ⟨e :: before, after, List.forall_mem_cons.mpr ⟨hgt, hbefore⟩, hafter, ?_⟩
      rcases hshape with ⟨hl, halter⟩ | ⟨a, hl, halter⟩
      · exact .inl ⟨by rw [hl]; rfl, by rw [halter]; rfl⟩
      · exact .inr ⟨a, by rw [hl]; rfl, by rw [halter]; rfl⟩

theorem pairwise_alterEntries (k : κ) (f : Option α → α) {l : List (κ × α)}
    (h : l.Pairwise fun e e' => e.1 < e'.1) :
    (alterEntries k f l).Pairwise fun e e' => e.1 < e'.1 := by
  obtain ⟨before, after, hbefore, hafter, hshape⟩ := alterEntries_cases k f h
  have hparts : before.Pairwise (fun e e' => e.1 < e'.1) ∧
      after.Pairwise fun e e' => e.1 < e'.1 := by
    rcases hshape with ⟨hl, _⟩ | ⟨a, hl, _⟩
    · rw [hl] at h
      exact ⟨(List.pairwise_append.mp h).1, (List.pairwise_append.mp h).2.1⟩
    · rw [hl] at h
      exact ⟨(List.pairwise_append.mp h).1, (List.pairwise_append.mp h).2.1.of_cons⟩
  have hentered : ∀ a, (before ++ (k, a) :: after).Pairwise fun e e' => e.1 < e'.1 := by
    intro a
    refine List.pairwise_append.mpr ⟨hparts.1, List.pairwise_cons.mpr ⟨hafter, hparts.2⟩, ?_⟩
    intro e he
    exact List.forall_mem_cons.mpr
      ⟨hbefore e he, fun e' he' => (hbefore e he).trans (hafter e' he')⟩
  rcases hshape with ⟨_, halter⟩ | ⟨a, _, halter⟩
  · rw [halter]
    exact hentered _
  · rw [halter]
    exact hentered _

/-- The value of a key is changed, or entered. -/
def alter (m : SortedMap κ α) (k : κ) (f : Option α → α) : SortedMap κ α :=
  ⟨alterEntries k f m.entries, pairwise_alterEntries k f m.sorted⟩

theorem pairwise_modify (k : κ) (f : α → α) {l : List (κ × α)}
    (h : l.Pairwise fun e e' => e.1 < e'.1) :
    (l.map fun e => (e.1, if e.1 = k then f e.2 else e.2)).Pairwise
      fun e e' => e.1 < e'.1 :=
  List.pairwise_map.mpr h

/-- The value of a key is changed, if there is one. -/
def modify (m : SortedMap κ α) (k : κ) (f : α → α) : SortedMap κ α :=
  ⟨m.entries.map fun e => (e.1, if e.1 = k then f e.2 else e.2), pairwise_modify k f m.sorted⟩

/-! ## The value of a key -/

theorem getEntry_append {before : List (κ × α)} {k : κ} (h : ∀ e ∈ before, e.1 ≠ k)
    (l : List (κ × α)) : getEntry (before ++ l) k = getEntry l k := by
  have hnone : before.find? (fun e => e.1 = k) = none := by
    rw [List.find?_eq_none]
    intro e he hk
    exact h e he (of_decide_eq_true hk)
  rw [getEntry, List.find?_append, hnone, Option.none_or, getEntry]

theorem getEntry_cons_self (k : κ) (a : α) (l : List (κ × α)) :
    getEntry ((k, a) :: l) k = some a := by
  have hfind := List.find?_cons_of_pos (p := fun e : κ × α => decide (e.1 = k)) (a := (k, a))
    (l := l) (decide_eq_true rfl)
  rw [getEntry, hfind, Option.map_some]

theorem getEntry_cons_ne {k k' : κ} (h : k ≠ k') (a : α) (l : List (κ × α)) :
    getEntry ((k, a) :: l) k' = getEntry l k' := by
  rw [getEntry, List.find?_cons_of_neg (by simpa using h), getEntry]

theorem getEntry_of_forall_ne {l : List (κ × α)} {k : κ} (h : ∀ e ∈ l, e.1 ≠ k) :
    getEntry l k = none := by
  have happend := getEntry_append h []
  rwa [List.append_nil] at happend

/-- A value is found just if it is entered. -/
theorem get?_eq_some {m : SortedMap κ α} {k : κ} {a : α} :
    m.get? k = some a ↔ (k, a) ∈ m.entries := by
  constructor
  · intro h
    obtain ⟨e, hfind, rfl⟩ := Option.map_eq_some_iff.mp h
    have hk : e.1 = k := by simpa using List.find?_some hfind
    rw [← hk]
    exact List.mem_of_find?_eq_some hfind
  · intro h
    obtain ⟨before, after, hl⟩ := List.append_of_mem h
    have hsorted := m.sorted
    rw [hl, List.pairwise_append] at hsorted
    have hbefore : ∀ e ∈ before, e.1 ≠ k := fun e he =>
      (hsorted.2.2 e he (k, a) List.mem_cons_self).ne
    rw [get?, hl, getEntry_append hbefore, getEntry_cons_self]

/-- The values are those of some key. -/
theorem mem_values {m : SortedMap κ α} {a : α} : a ∈ m.values ↔ ∃ k, m.get? k = some a := by
  rw [values, List.mem_map]
  constructor
  · rintro ⟨⟨k, a⟩, hmem, rfl⟩
    exact ⟨k, get?_eq_some.mpr hmem⟩
  · rintro ⟨k, hget⟩
    exact ⟨(k, a), get?_eq_some.mp hget, rfl⟩

/-- What `alter` finds under the key, and what stands around it. -/
theorem alter_cases (m : SortedMap κ α) (k : κ) (f : Option α → α) :
    ∃ before after, (∀ e ∈ before, e.1 < k) ∧ (∀ e ∈ after, k < e.1) ∧
      m.entries = before ++ ((m.get? k).toList.map fun a => (k, a)) ++ after ∧
      (m.alter k f).entries = before ++ (k, f (m.get? k)) :: after := by
  obtain ⟨before, after, hbefore, hafter, hshape⟩ := alterEntries_cases k f m.sorted
  refine ⟨before, after, hbefore, hafter, ?_⟩
  rcases hshape with ⟨hl, halter⟩ | ⟨a, hl, halter⟩
  · have hget : m.get? k = none := by
      rw [get?, hl, getEntry_append fun e he => (hbefore e he).ne,
        getEntry_of_forall_ne fun e he => (hafter e he).ne']
    rw [hget]
    exact ⟨by rw [hl]; simp, halter⟩
  · have hget : m.get? k = some a := by
      rw [get?, hl, getEntry_append fun e he => (hbefore e he).ne, getEntry_cons_self]
    rw [hget]
    exact ⟨by rw [hl]; simp, halter⟩

theorem get?_alter_self (m : SortedMap κ α) (k : κ) (f : Option α → α) :
    (m.alter k f).get? k = some (f (m.get? k)) := by
  obtain ⟨before, after, hbefore, _, _, halter⟩ := m.alter_cases k f
  rw [get?, halter, getEntry_append fun e he => (hbefore e he).ne, getEntry_cons_self]

theorem get?_alter_of_ne (m : SortedMap κ α) {k k' : κ} (h : k ≠ k') (f : Option α → α) :
    (m.alter k f).get? k' = m.get? k' := by
  obtain ⟨before, after, _, _, hentries, halter⟩ := m.alter_cases k f
  have hmiddle : getEntry (((m.get? k).toList.map fun a => (k, a)) ++ after) k'
      = getEntry after k' := by
    refine getEntry_append ?_ after
    intro e he
    obtain ⟨a, _, rfl⟩ := List.mem_map.mp he
    exact h
  have hbefore : ∀ l l' : List (κ × α), getEntry l k' = getEntry l' k' →
      getEntry (before ++ l) k' = getEntry (before ++ l') k' := by
    intro l l' hll
    rw [getEntry, getEntry, List.find?_append, List.find?_append, Option.map_or, Option.map_or]
    exact congrArg _ hll
  rw [get?, get?, halter, hentries, List.append_assoc]
  exact hbefore _ _ (by rw [getEntry_cons_ne h, hmiddle])

theorem get?_modify (m : SortedMap κ α) (k k' : κ) (f : α → α) :
    (m.modify k f).get? k' = if k' = k then (m.get? k').map f else m.get? k' := by
  obtain ⟨l, hl⟩ := m
  show getEntry (l.map fun e => (e.1, if e.1 = k then f e.2 else e.2)) k'
    = if k' = k then (getEntry l k').map f else getEntry l k'
  clear hl
  induction l with
  | nil => simp [getEntry]
  | cons e l ih =>
    obtain ⟨key, a⟩ := e
    rw [List.map_cons]
    by_cases hkey : key = k'
    · subst hkey
      rw [getEntry_cons_self, getEntry_cons_self]
      split_ifs <;> rfl
    · rw [getEntry_cons_ne hkey, getEntry_cons_ne hkey, ih]

/-! ## All entries -/

/-- What holds of all entries, and of the changed one, holds behind the change. -/
theorem forall_alter {P : κ → α → Prop} {m : SortedMap κ α} (h : ∀ e ∈ m.entries, P e.1 e.2)
    {k : κ} {f : Option α → α} (hk : P k (f (m.get? k))) :
    ∀ e ∈ (m.alter k f).entries, P e.1 e.2 := by
  obtain ⟨before, after, _, _, hentries, halter⟩ := m.alter_cases k f
  rw [hentries, List.forall_mem_append, List.forall_mem_append] at h
  rw [halter, List.forall_mem_append, List.forall_mem_cons]
  exact ⟨h.1.1, hk, h.2⟩

/-- What a change keeps holds of all entries behind it. -/
theorem forall_modify {P : κ → α → Prop} {m : SortedMap κ α} (h : ∀ e ∈ m.entries, P e.1 e.2)
    {k : κ} {f : α → α} (hf : ∀ a, P k a → P k (f a)) :
    ∀ e ∈ (m.modify k f).entries, P e.1 e.2 := by
  intro e he
  obtain ⟨e', he', rfl⟩ := List.mem_map.mp he
  have hP := h e' he'
  by_cases hk : e'.1 = k
  · show P e'.1 (if e'.1 = k then f e'.2 else e'.2)
    rw [if_pos hk, hk]
    exact hf _ (hk ▸ hP)
  · show P e'.1 (if e'.1 = k then f e'.2 else e'.2)
    rwa [if_neg hk]

/-- The sum over the values, when one of them changes. -/
theorem sum_alter (m : SortedMap κ α) (k : κ) (f : Option α → α) (g : α → Nat) :
    ((m.alter k f).values.map g).sum + ((m.get? k).map g).getD 0
      = (m.values.map g).sum + g (f (m.get? k)) := by
  obtain ⟨before, after, _, _, hentries, halter⟩ := m.alter_cases k f
  rw [values, values, halter, hentries]
  cases m.get? k <;> simp <;> omega

/-- A sum that the change does not touch stays. -/
theorem sum_modify {g : α → Nat} {f : α → α} (h : ∀ a, g (f a) = g a) (m : SortedMap κ α)
    (k : κ) : ((m.modify k f).values.map g).sum = (m.values.map g).sum := by
  have hvalue : ∀ e : κ × α, g (if e.1 = k then f e.2 else e.2) = g e.2 := by
    intro e
    split_ifs
    · exact h e.2
    · rfl
  rw [values, values, modify, List.map_map, List.map_map, List.map_map]
  congr 1
  exact List.map_congr_left fun e _ => hvalue e

end SortedMap

end HostServices.Lib
