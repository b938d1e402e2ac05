import Mathlib.Data.List.Basic
import Mathlib.Tactic.Common

/-!
# Blocks of lines, and machines that a marker resets

A list is cut in front of its markers. A machine that forgets all but a part of its state at
a marker goes over the list block by block, and a block that leaves that part alone may as
well be missing.

- `splitBlocks`: what stands before the first marker, and a block for each marker;
- `IsBlock`: a marker, and no other behind it;
- `core_foldl_blocks`: a run over the blocks, as a fold over what each does to the part that
  is kept;
- `foldl_filter`: blocks without effect do not count.
-/

namespace HostServices.Lib

variable {α : Type}

/-! ## Cutting -/

/-- What stands in front of the first heading, and the blocks, each with its heading. -/
def splitBlocks (p : α → Bool) : List α → List α × List (List α)
  | [] => ([], [])
  | a :: l =>
    let rest := splitBlocks p l
    if p a then ([], (a :: rest.1) :: rest.2) else (a :: rest.1, rest.2)

/-- A marker and what follows it. -/
def IsBlock (p : α → Bool) (block : List α) : Prop :=
  ∃ a body, block = a :: body ∧ p a = true ∧ ∀ b ∈ body, p b = false

/-- Nothing is lost by the cuts. -/
theorem flatten_splitBlocks (p : α → Bool) (l : List α) :
    (splitBlocks p l).1 ++ (splitBlocks p l).2.flatten = l := by
  induction l with
  | nil => rfl
  | cons a l ih =>
    rw [splitBlocks]
    split_ifs
    · rw [List.flatten_cons, List.nil_append, List.cons_append, ih]
    · rw [List.cons_append, ih]

/-- What stands in front has no heading. -/
theorem splitBlocks_head (p : α → Bool) (l : List α) : ∀ a ∈ (splitBlocks p l).1, p a = false := by
  induction l with
  | nil => simp [splitBlocks]
  | cons a l ih =>
    rw [splitBlocks]
    split_ifs with hp
    · simp
    · exact List.forall_mem_cons.mpr ⟨Bool.eq_false_iff.mpr hp, ih⟩

/-- Every block is one heading, and what follows it. -/
theorem splitBlocks_isBlock (p : α → Bool) (l : List α) :
    ∀ block ∈ (splitBlocks p l).2, IsBlock p block := by
  induction l with
  | nil => simp [splitBlocks]
  | cons a l ih =>
    rw [splitBlocks]
    split_ifs with hp
    · exact List.forall_mem_cons.mpr ⟨⟨a, _, rfl, hp, splitBlocks_head p l⟩, ih⟩
    · exact ih

/-! ## Machines -/

variable {σ ρ : Type}

/-- What a block does to the part of the state that a marker keeps. -/
def blockEffect (step : σ → α → σ) (core : σ → ρ) (enter : ρ → σ) (kept : ρ)
    (block : List α) : ρ :=
  core (block.foldl step (enter kept))

/-- At a marker the machine forgets all but the part that is kept. -/
theorem core_foldl_blocks {p : α → Bool} {step : σ → α → σ} {core : σ → ρ} {enter : ρ → σ}
    (hreset : ∀ s a, p a = true → step s a = step (enter (core s)) a)
    {blocks : List (List α)} (hblocks : ∀ block ∈ blocks, IsBlock p block) (s : σ) :
    core (blocks.flatten.foldl step s) = blocks.foldl (blockEffect step core enter) (core s) := by
  induction blocks generalizing s with
  | nil => rfl
  | cons block blocks ih =>
    obtain ⟨⟨a, body, rfl, hmarker, _⟩, hrest⟩ := List.forall_mem_cons.mp hblocks
    have heffect : core ((a :: body).foldl step s)
        = blockEffect step core enter (core s) (a :: body) := by
      rw [blockEffect, List.foldl_cons, List.foldl_cons, ← hreset s a hmarker]
    rw [List.flatten_cons, List.foldl_append, ih hrest, heffect, List.foldl_cons]

/-- What has no effect may be left out. -/
theorem foldl_filter {f : ρ → α → ρ} {keep : α → Bool} {l : List α}
    (h : ∀ a ∈ l, keep a = false → ∀ r, f r a = r) (r : ρ) :
    l.foldl f r = (l.filter keep).foldl f r := by
  induction l generalizing r with
  | nil => rfl
  | cons a l ih =>
    obtain ⟨ha, hl⟩ := List.forall_mem_cons.mp h
    rw [List.foldl_cons]
    cases hkeep : keep a with
    | true => rw [List.filter_cons_of_pos hkeep, List.foldl_cons, ih hl]
    | false =>
      rw [List.filter_cons_of_neg (by rw [hkeep]; exact Bool.false_ne_true), ha hkeep, ih hl]

end HostServices.Lib
