import Mathlib.Algebra.Order.Group.Int
import Mathlib.Algebra.Order.Group.Abs
import Mathlib.Data.List.Sort
import Mathlib.Data.List.Perm.Subperm
import HostServices.Lib.Int64Order
import HostServices.Lib.Fallible

/-!
# Which providers to ask, and what to believe (`time-correction/src/quorum.rs`)

- `Quorum.sample`: a partial Fisher-Yates draw driven by SplitMix64;
- `Quorum.middle`, `Quorum.vote`, `Quorum.decide`: from answers to a time;
- `Quorum.sample_subperm`, `Quorum.sample_map`, `Quorum.map_some_sample`: a draw is
  without replacement, and it draws positions, whatever stands there;
- `Quorum.decide_ok`: what a decision rests on.

Times are `i64` seconds and their differences wrap as the release build's do.
-/

namespace HostServices.TimeCorrection

open HostServices.Lib

/-- One successful reading. -/
structure Answer where
  operator : String
  endpoint : String
  seconds : Int64
  deriving DecidableEq, Repr

/-! ## Drawing -/

/-- The increment of SplitMix64. -/
def splitMixStep : UInt64 := 0x9E3779B97F4A7C15

/-- The output function of SplitMix64. -/
def splitMix (state : UInt64) : UInt64 :=
  let z := (state ^^^ (state >>> 30)) * 0xBF58476D1CE4E5B9
  let z := (z ^^^ (z >>> 27)) * 0x94D049BB133111EB
  z ^^^ (z >>> 31)

/-- Deterministically pick `count` entries of the pool using `seed`. -/
def Quorum.sample {α : Type} (pool : List α) (count : Nat) (seed : UInt64) : List α :=
  match count with
  | 0 => []
  | count + 1 =>
    if h : pool = [] then []
    else
      let state := seed + splitMixStep
      have hlt : (splitMix state).toNat % pool.length < pool.length :=
        Nat.mod_lt _ (List.length_pos_iff.mpr h)
      pool[(splitMix state).toNat % pool.length] ::
        sample (pool.eraseIdx ((splitMix state).toNat % pool.length)) count state

/-! ## Deciding -/

/-- The middle of a set of readings that already agree. -/
def Quorum.middle (values : List Int64) : Except Stop Int64 :=
  match (values.insertionSort (· ≤ ·))[values.length / 2]? with
  | some value => .ok value
  | none => .error (.panic "index out of bounds")

/-- The newest and the oldest of a set of readings, `expect("non-empty")`. -/
def Quorum.extremes (values : List Int64) : Except Stop (Int64 × Int64) :=
  match values.max?, values.min? with
  | some newest, some oldest => .ok (newest, oldest)
  | _, _ => .error (.panic "non-empty")

/-- Collapse one operator's answers into a single vote. -/
def Quorum.vote (answers : List Answer) (tolerance : Int64) : Except Stop Int64 := do
  let (newest, oldest) ← extremes (answers.map (·.seconds))
  if tolerance < newest - oldest then
    let provider := (answers.head?.map (·.operator)).getD ""
    let spread := " ".intercalate (answers.map fun a => s!"{a.endpoint}={a.seconds}")
    .error (.err (s!"{provider} disagrees with itself across its own addresses by " ++
      s!"{newest - oldest}s (>{tolerance}s): {spread}"))
  else middle (answers.map (·.seconds))

/-- The answers of one operator. -/
def Quorum.own (answers : List Answer) (provider : String) : List Answer :=
  answers.filter fun a => a.operator = provider

/-- Decide what time to believe, or why no time may be believed. -/
def Quorum.decide (sampled : List String) (answers : List Answer) (tolerance : Int64) :
    Except Stop Int64 :=
  if sampled = [] then .error (.err "no providers were sampled")
  else
    let silent := sampled.filter fun p => !answers.any fun a => a.operator = p
    if silent ≠ [] then
      let named := ", ".intercalate silent
      .error (.err (s!"{silent.length} of {sampled.length} operators gave no usable answer " ++
        s!"({named}), and the rest are unchallenged, which is not enough to set a clock"))
    else do
      let votes ← sampled.mapM fun p => vote (own answers p) tolerance
      let (newest, oldest) ← extremes votes
      if tolerance < newest - oldest then
        let spread := " ".intercalate (List.zipWith (fun p s => s!"{p}={s}") sampled votes)
        .error (.err (s!"operators disagree by {newest - oldest}s (>{tolerance}s): {spread}"))
      else middle votes

/-! ## What a draw is -/

namespace Quorum

/-- A sample takes one entry after the other out of the pool. -/
theorem sample_succ {α : Type} {pool : List α} (hne : pool ≠ []) (count : Nat)
    (seed : UInt64) :
    ∃ i, ∃ h : i < pool.length,
      sample pool (count + 1) seed =
        pool[i] :: sample (pool.eraseIdx i) count (seed + splitMixStep) := by
  refine ⟨(splitMix (seed + splitMixStep)).toNat % pool.length,
    Nat.mod_lt _ (List.length_pos_iff.mpr hne), ?_⟩
  rw [sample, dif_neg hne]

/-- **A draw is without replacement**: it is a part of the pool, in some order. -/
theorem sample_subperm {α : Type} (pool : List α) (count : Nat) (seed : UInt64) :
    (sample pool count seed).Subperm pool := by
  induction count generalizing pool seed with
  | zero => exact List.nil_subperm
  | succ count ih =>
    by_cases hne : pool = []
    · rw [sample, dif_pos hne]
      exact List.nil_subperm
    · obtain ⟨i, hi, hsample⟩ := sample_succ hne count seed
      rw [hsample]
      have hrest := ih (pool.eraseIdx i) (seed + splitMixStep)
      exact ((List.subperm_cons pool[i]).mpr hrest).trans
        (List.getElem_cons_eraseIdx_perm hi).subperm

theorem nodup_sample {α : Type} {pool : List α} (h : pool.Nodup) (count : Nat)
    (seed : UInt64) : (sample pool count seed).Nodup := by
  obtain ⟨drawn, hperm, hsub⟩ := sample_subperm pool count seed
  exact hperm.nodup_iff.mp (hsub.nodup h)

theorem length_sample {α : Type} (pool : List α) (count : Nat) (seed : UInt64) :
    (sample pool count seed).length = min count pool.length := by
  induction count generalizing pool seed with
  | zero => rw [Nat.zero_min]; rfl
  | succ count ih =>
    by_cases hne : pool = []
    · rw [sample, dif_pos hne, hne]
      rfl
    · obtain ⟨i, hi, hsample⟩ := sample_succ hne count seed
      rw [hsample, List.length_cons, ih, List.length_eraseIdx_of_lt hi]
      omega

/-- A draw picks positions: renaming the pool renames what is drawn. -/
theorem sample_map {α β : Type} (f : α → β) (pool : List α) (count : Nat) (seed : UInt64) :
    sample (pool.map f) count seed = (sample pool count seed).map f := by
  induction count generalizing pool seed with
  | zero => rfl
  | succ count ih =>
    by_cases hne : pool = []
    · subst hne
      rfl
    · have hne' : pool.map f ≠ [] := by rwa [ne_eq, List.map_eq_nil_iff]
      rw [sample, sample, dif_neg hne, dif_neg hne']
      simp only [List.length_map, List.getElem_map, List.map_cons, List.eraseIdx_map, ih]

/-- A draw takes what stands at the positions that it draws. -/
theorem map_some_sample {α : Type} (pool : List α) (count : Nat) (seed : UInt64) :
    (sample pool count seed).map some
      = (sample (List.range pool.length) count seed).map fun i => pool[i]? := by
  rw [← sample_map, ← sample_map]
  congr 1
  refine List.ext_getElem (by simp) fun i hi hi' => ?_
  rw [List.length_map] at hi
  rw [List.getElem_map, List.getElem_map, List.getElem_range, List.getElem?_eq_getElem hi]

/-! ## What a decision rests on -/

/-- The newest and the oldest value. -/
theorem extremes_ok {values : List Int64} {newest oldest : Int64}
    (h : extremes values = .ok (newest, oldest)) :
    (newest ∈ values ∧ ∀ v ∈ values, v ≤ newest) ∧
      (oldest ∈ values ∧ ∀ v ∈ values, oldest ≤ v) := by
  unfold extremes at h
  split at h
  · rename_i hmax hmin
    cases h
    exact ⟨List.max?_eq_some_iff.mp hmax, List.min?_eq_some_iff.mp hmin⟩
  · cases h

/-- The middle is one of the values. -/
theorem middle_mem {values : List Int64} {t : Int64} (h : middle values = .ok t) :
    t ∈ values := by
  unfold middle at h
  split at h
  · rename_i hget
    cases h
    exact (List.mem_insertionSort (· ≤ ·)).mp (List.mem_of_getElem? hget)
  · cases h

/-- What a list of readings that passed the spread check and gave `t` is. -/
structure Agreed (values : List Int64) (tolerance t : Int64) : Prop where
  mem : t ∈ values
  spread : ∃ newest oldest, (newest ∈ values ∧ ∀ v ∈ values, v ≤ newest) ∧
    (oldest ∈ values ∧ ∀ v ∈ values, oldest ≤ v) ∧ newest - oldest ≤ tolerance

/-- Readings that are not negative and agree lie within the tolerance of each
other. -/
theorem Agreed.dist_le {values : List Int64} {tolerance t : Int64}
    (h : Agreed values tolerance t) (hnonneg : ∀ v ∈ values, 0 ≤ v) :
    ∀ v ∈ values, |v.toInt - t.toInt| ≤ tolerance.toInt := by
  intro v hv
  obtain ⟨newest, oldest, ⟨hnew, hmax⟩, ⟨hold, hmin⟩, hspread⟩ := h.spread
  -- no wrap between two readings after the epoch
  have hsub := toInt_sub_of_nonneg (hnonneg newest hnew) (hnonneg oldest hold)
  have hle := Int64.le_iff_toInt_le.mp hspread
  have hv₁ := Int64.le_iff_toInt_le.mp (hmax v hv)
  have hv₂ := Int64.le_iff_toInt_le.mp (hmin v hv)
  have ht₁ := Int64.le_iff_toInt_le.mp (hmax t h.mem)
  have ht₂ := Int64.le_iff_toInt_le.mp (hmin t h.mem)
  rw [abs_le]
  omega

/-- What a vote has agreed on. -/
theorem vote_agreed {answers : List Answer} {tolerance t : Int64}
    (h : vote answers tolerance = .ok t) :
    Agreed (answers.map (·.seconds)) tolerance t := by
  obtain ⟨⟨newest, oldest⟩, hext, h⟩ := bind_eq_ok.mp h
  dsimp only at h
  split_ifs at h with hspread
  obtain ⟨hnew, hold⟩ := extremes_ok hext
  exact ⟨middle_mem h, newest, oldest, hnew, hold, le_of_not_gt hspread⟩

/-- **What a decision rests on**: every sampled operator voted, and the time is
one of votes that agree. -/
theorem decide_ok {sampled : List String} {answers : List Answer} {tolerance t : Int64}
    (h : Quorum.decide sampled answers tolerance = .ok t) :
    ∃ votes, List.Forall₂ (fun p v => vote (own answers p) tolerance = .ok v) sampled votes ∧
      Agreed votes tolerance t := by
  unfold Quorum.decide at h
  dsimp only at h
  split_ifs at h with hempty hsilent
  obtain ⟨votes, hvotes, h⟩ := bind_eq_ok.mp h
  obtain ⟨⟨newest, oldest⟩, hext, h⟩ := bind_eq_ok.mp h
  dsimp only at h
  split_ifs at h with hspread
  obtain ⟨hnew, hold⟩ := extremes_ok hext
  exact ⟨votes, mapM_eq_ok.mp hvotes, middle_mem h, newest, oldest, hnew, hold,
    le_of_not_gt hspread⟩

/-- A vote is one of the operator's own readings. -/
theorem mem_of_vote {answers : List Answer} {p : String} {tolerance v : Int64}
    (h : vote (own answers p) tolerance = .ok v) : ∃ a ∈ answers, a.seconds = v := by
  obtain ⟨a, ha, hav⟩ := List.mem_map.mp (vote_agreed h).mem
  exact ⟨a, (List.mem_filter.mp ha).1, hav⟩

/-- The decided time is one of the readings. -/
theorem exists_answer_of_decide {sampled : List String} {answers : List Answer}
    {tolerance t : Int64} (h : Quorum.decide sampled answers tolerance = .ok t) :
    ∃ a ∈ answers, a.seconds = t := by
  obtain ⟨votes, hvotes, hagreed⟩ := decide_ok h
  obtain ⟨p, -, hvote⟩ := exists_mem_of_forall₂ hvotes.flip hagreed.mem
  exact mem_of_vote hvote

theorem own_eq_singleton {answers : List Answer} (h : (answers.map (·.operator)).Nodup)
    {a : Answer} (ha : a ∈ answers) : own answers a.operator = [a] := by
  induction answers with
  | nil => cases ha
  | cons b answers ih =>
    rw [List.map_cons, List.nodup_cons] at h
    rw [own, List.filter_cons]
    rcases List.mem_cons.mp ha with rfl | ha
    · -- nobody else answers for this operator
      have hrest : (answers.filter fun b => b.operator = a.operator) = [] := by
        rw [List.filter_eq_nil_iff]
        intro b hb heq
        exact h.1 (List.mem_map.mpr ⟨b, hb, of_decide_eq_true heq⟩)
      rw [hrest, if_pos (decide_eq_true rfl)]
    · have hne : b.operator ≠ a.operator := by
        intro heq
        exact h.1 (heq ▸ List.mem_map_of_mem ha)
      rw [if_neg (by simpa using hne)]
      exact ih h.2 ha

/-- **Agreement**: with one answer for each of pairwise distinct operators, none
from before the epoch, every answer lies within the tolerance of the time decided
on. -/
theorem dist_le_of_decide {answers : List Answer} {tolerance t : Int64}
    (hnodup : (answers.map (·.operator)).Nodup) (hnonneg : ∀ a ∈ answers, 0 ≤ a.seconds)
    (h : Quorum.decide (answers.map (·.operator)) answers tolerance = .ok t) :
    ∀ a ∈ answers, |a.seconds.toInt - t.toInt| ≤ tolerance.toInt := by
  intro a ha
  obtain ⟨votes, hvotes, hagreed⟩ := decide_ok h
  have hvotes_nonneg : ∀ v ∈ votes, 0 ≤ v := by
    intro v hv
    obtain ⟨p, -, hvote⟩ := exists_mem_of_forall₂ hvotes.flip hv
    obtain ⟨b, hb, rfl⟩ := mem_of_vote hvote
    exact hnonneg b hb
  -- the operator's vote is the answer itself
  obtain ⟨v, hv, hvote⟩ := exists_mem_of_forall₂ hvotes (List.mem_map_of_mem ha)
  rw [own_eq_singleton hnodup ha] at hvote
  have hva : v = a.seconds := List.mem_singleton.mp (vote_agreed hvote).mem
  rw [← hva]
  exact hagreed.dist_le hvotes_nonneg v hv

end Quorum

end HostServices.TimeCorrection
