import HostServices.Lib.Mixing
import HostServices.TimeCorrection.Quorum

/-!
# A draw leaves nobody out (`time-correction/src/quorum.rs`: `sample`)

A draw is made among positions: the names are what stands there. No position is drawn twice,
and the generator behind the draw is one-to-one on its states, so that every position is drawn
first for some seed.

- `drawn`: the positions of a draw;
- `splitMix_bijective`: the output function loses nothing;
- `sample_fair`: what a draw takes, and that it can take any position.
-/

namespace HostServices.TimeCorrection.Quorum

open HostServices.Lib

/-! ## The generator -/

theorem toBitVec_splitMix (state : UInt64) :
    (splitMix state).toBitVec
      = xorShift 31 (xorShift 27 (xorShift 30 state.toBitVec * 0xBF58476D1CE4E5B9#64)
          * 0x94D049BB133111EB#64) := rfl

/-- **The output function is one-to-one** on the 64-bit words. -/
theorem splitMix_bijective : Function.Bijective splitMix := by
  have hfirst : Function.Bijective (· * 0xBF58476D1CE4E5B9#64) :=
    mul_bijective (d := 0x96DE1B173F119089#64) (by decide)
  have hsecond : Function.Bijective (· * 0x94D049BB133111EB#64) :=
    mul_bijective (d := 0x319642B2D24D8EC3#64) (by decide)
  have hmix := (xorShift_bijective (w := 64) (k := 31) (by decide)).comp
    (hsecond.comp ((xorShift_bijective (k := 27) (by decide)).comp
      (hfirst.comp (xorShift_bijective (k := 30) (by decide)))))
  constructor
  · intro state state' h
    refine UInt64.toBitVec_inj.mp (hmix.1 ?_)
    rw [← UInt64.toBitVec_inj, toBitVec_splitMix, toBitVec_splitMix] at h
    exact h
  · intro z
    obtain ⟨state, hstate⟩ := hmix.2 z.toBitVec
    refine ⟨⟨state⟩, ?_⟩
    rw [← UInt64.toBitVec_inj, toBitVec_splitMix]
    exact hstate

/-- Every word comes out first for some seed. -/
theorem exists_seed (z : UInt64) : ∃ seed, splitMix (seed + splitMixStep) = z := by
  obtain ⟨state, hstate⟩ := splitMix_bijective.2 z
  refine ⟨state - splitMixStep, ?_⟩
  rw [UInt64.sub_add_cancel, hstate]

/-! ## Positions -/

/-- The positions that are drawn from a list of `n` entries, in order. -/
def drawn (n count : Nat) (seed : UInt64) : List Nat := sample (List.range n) count seed

/-- No position is drawn twice. -/
theorem nodup_drawn (n count : Nat) (seed : UInt64) : (drawn n count seed).Nodup :=
  nodup_sample List.nodup_range count seed

/-- Every position drawn is one of the list. -/
theorem lt_of_mem_drawn {n count i : Nat} {seed : UInt64} (h : i ∈ drawn n count seed) :
    i < n :=
  List.mem_range.mp ((sample_subperm _ count seed).subset h)

/-- The first position is the word modulo the number of entries. -/
theorem drawn_one {n : Nat} (hpos : 0 < n) (seed : UInt64) :
    drawn n 1 seed = [(splitMix (seed + splitMixStep)).toNat % n] := by
  have hne : List.range n ≠ [] := fun h => hpos.ne' (List.range_eq_nil.mp h)
  rw [drawn, sample, dif_neg hne]
  simp only [List.length_range, List.getElem_range, sample]

/-- **A draw is without replacement and leaves nobody out**: it takes the entries at pairwise
distinct positions, as many as are asked for and there are; and every position of a list is
drawn by some seed. -/
theorem sample_fair {α : Type} (names : List α) :
    (∀ count seed,
      (sample names count seed).length = min count names.length ∧
      (sample names count seed).map some
        = (drawn names.length count seed).map (fun i => names[i]?) ∧
      (drawn names.length count seed).Nodup ∧
      (∀ i ∈ drawn names.length count seed, i < names.length) ∧
      (names.Nodup → (sample names count seed).Nodup)) ∧
    (names.length < 2 ^ 64 → ∀ i < names.length, ∃ seed, drawn names.length 1 seed = [i]) := by
  constructor
  · intro count seed
    exact ⟨length_sample names count seed, map_some_sample names count seed,
      nodup_drawn names.length count seed, fun i hi => lt_of_mem_drawn hi,
      fun hnodup => nodup_sample hnodup count seed⟩
  · intro hlength i hi
    -- the word `i` itself is the remainder `i`
    obtain ⟨seed, hseed⟩ := exists_seed (UInt64.ofNat i)
    refine ⟨seed, ?_⟩
    rw [drawn_one (Nat.zero_lt_of_lt hi), hseed,
      UInt64.toNat_ofNat_of_lt' (Nat.lt_trans hi hlength), Nat.mod_eq_of_lt hi]

/-- The second of two servers of one operator is drawn by some seed. -/
theorem sample_fair_second :
    ["ptbtime1", "ptbtime2"].length < 2 ^ 64 ∧ ∃ seed, drawn 2 1 seed = [1] :=
  ⟨by decide, (sample_fair ["ptbtime1", "ptbtime2"]).2 (by decide) 1 (by decide)⟩

end HostServices.TimeCorrection.Quorum
