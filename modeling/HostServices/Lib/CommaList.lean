import HostServices.Lib.FromStr

/-!
# Lists that are kept as text with commas

A record has one text with commas in it. It stands for a list, and adding a name to the text
adds it to the list unless it is there.

- `joined`: the text of a list;
- `splitBy_joined`: the list that is read out of the text;
- `pushDistinct`: a name is added to the text;
- `pushDistinct_joined`: what that is for the list;
- `eraseDups_concat`: such steps keep first appearances.
-/

namespace HostServices.Lib

theorem mem_of_mem_intercalate {α : Type} {sep a : α} {parts : List (List α)}
    (h : a ∈ [sep].intercalate parts) : a = sep ∨ ∃ part ∈ parts, a ∈ part := by
  induction parts with
  | nil => cases h
  | cons part parts ih =>
    cases parts with
    | nil =>
      rw [List.intercalate_singleton] at h
      exact .inr ⟨part, List.mem_cons_self, h⟩
    | cons next parts =>
      rw [List.intercalate_cons_cons, List.append_assoc, List.mem_append, List.singleton_append,
        List.mem_cons] at h
      rcases h with h | rfl | h
      · exact .inr ⟨part, List.mem_cons_self, h⟩
      · exact .inl rfl
      · rcases ih h with hsep | ⟨other, hother, hmem⟩
        · exact .inl hsep
        · exact .inr ⟨other, List.mem_cons_of_mem _ hother, hmem⟩

/-- The text with another name at its end, unless the name is there already. -/
def pushDistinct (names : Option String) (name : String) : Option String :=
  match names with
  | some existing =>
    if (splitBy ',' existing).contains name then some existing
    else some (existing ++ "," ++ name)
  | none => some name

/-- The text of a list, where there is anything in it. -/
def joined (names : List String) : Option String :=
  if names = [] then none else some (",".intercalate names)

theorem joined_nil : joined [] = none := rfl

theorem joined_of_ne_nil {names : List String} (h : names ≠ []) :
    joined names = some (",".intercalate names) := if_neg h

/-- There is a list as soon as there is a name. -/
theorem joined_eq_some {names : List String} {text : String} :
    joined names = some text ↔ names ≠ [] ∧ text = ",".intercalate names := by
  by_cases h : names = []
  · rw [h, joined_nil]
    constructor
    · intro hnone
      cases hnone
    · rintro ⟨hne, _⟩
      exact absurd rfl hne
  · rw [joined_of_ne_nil h, Option.some_inj, eq_comm]
    exact ⟨fun htext => ⟨h, htext⟩, fun htext => htext.2⟩

/-- The name can stand in such a text. -/
def Plain (name : String) : Prop := ',' ∉ name.toList

/-- The list falls apart into its names. -/
theorem splitBy_joined {names : List String} (hne : names ≠ []) (h : ∀ u ∈ names, Plain u) :
    splitBy ',' (",".intercalate names) = names := by
  have hplain : ∀ u ∈ names.map String.toList, ',' ∉ u := by
    intro u hu
    obtain ⟨v, hv, rfl⟩ := List.mem_map.mp hu
    exact h v hv
  have hsplit := List.splitOn_intercalate ',' hplain (fun h => hne (List.map_eq_nil_iff.mp h))
  rw [splitBy, String.toList_intercalate]
  show (([','].intercalate (names.map String.toList)).splitOn ',').map String.ofList = names
  rw [hsplit, List.map_map]
  exact List.map_id'' (fun u => String.ofList_toList) names

/-- The text determines the list. -/
theorem joined_inj {names names' : List String} (h : ∀ u ∈ names, Plain u)
    (h' : ∀ u ∈ names', Plain u) (heq : joined names = joined names') : names = names' := by
  by_cases hne : names = []
  · rw [hne, joined_nil, joined] at heq
    split_ifs at heq with hne'
    rw [hne, hne']
  · rw [joined_of_ne_nil hne, eq_comm, joined_eq_some] at heq
    obtain ⟨hne', htext⟩ := heq
    rw [← splitBy_joined hne h, htext, splitBy_joined hne' h']

/-- A list with another element at the end, unless it has it. -/
def appendNew {α : Type} [DecidableEq α] (l : List α) (a : α) : List α :=
  if a ∈ l then l else l ++ [a]

/-- A name is appended unless the list has it. -/
theorem pushDistinct_joined {names : List String} (h : ∀ u ∈ names, Plain u) (name : String) :
    pushDistinct (joined names) name = joined (appendNew names name) := by
  by_cases hne : names = []
  · subst hne
    rw [appendNew, if_neg List.not_mem_nil, List.nil_append, joined_nil,
      joined_of_ne_nil (List.cons_ne_nil _ _), String.intercalate_singleton]
    rfl
  · rw [joined_of_ne_nil hne, pushDistinct, splitBy_joined hne h, appendNew]
    by_cases hmem : name ∈ names
    · rw [if_pos (List.contains_iff_mem.mpr hmem), if_pos hmem, joined_of_ne_nil hne]
    · rw [if_neg fun hcontains => hmem (List.contains_iff_mem.mp hcontains), if_neg hmem,
        joined_of_ne_nil (by simp),
        String.intercalate_append_of_ne_nil hne (List.cons_ne_nil _ _),
        String.intercalate_singleton]

theorem mem_appendNew {α : Type} [DecidableEq α] {l : List α} {a b : α} :
    b ∈ appendNew l a ↔ b ∈ l ∨ b = a := by
  rw [appendNew]
  split_ifs with h
  · constructor
    · exact .inl
    · rintro (hb | rfl)
      · exact hb
      · exact h
  · rw [List.mem_append, List.mem_singleton]

theorem nodup_appendNew {α : Type} [DecidableEq α] {l : List α} (h : l.Nodup) (a : α) :
    (appendNew l a).Nodup := by
  rw [appendNew]
  split_ifs with hmem
  · exact h
  · refine List.nodup_append.mpr ⟨h, List.pairwise_singleton _ a, ?_⟩
    rintro b hb c hc rfl
    exact hmem (List.mem_singleton.mp hc ▸ hb)

/-- First appearances, when the list grows at its end. -/
theorem eraseDups_concat {α : Type} [DecidableEq α] (l : List α) (a : α) :
    (l ++ [a]).eraseDups = appendNew l.eraseDups a := by
  rw [List.eraseDups_append, appendNew]
  by_cases h : a ∈ l
  · rw [if_pos (List.mem_eraseDups.mpr h)]
    simp [List.removeAll, h]
  · rw [if_neg fun hmem => h (List.mem_eraseDups.mp hmem)]
    simp [List.removeAll, h, List.eraseDups_cons]

end HostServices.Lib
