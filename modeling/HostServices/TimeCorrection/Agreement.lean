import HostServices.Lib.Median
import HostServices.TimeCorrection.Quorum
import HostServices.TimeCorrection.Ntp

/-!
# What agreement is (`time-correction/src/quorum.rs`)

`Quorum.decide` walks the sampled operators and stops at the first thing that is
wrong. Here is what it decides, without the walk:

- `readings`, `medians`: what an operator answered, and the vote of each operator;
- `Agreement`: everyone answered, nobody contradicts themselves, and the votes agree;
- `decide_eq_ok`: a decision is an agreement, and the time is the median of the votes;
- `decide_exactly_agreement`, `decide_independent`: what follows for the readings an
  NTP answer can carry, and what the decision does not depend on.
-/

namespace HostServices.TimeCorrection

open HostServices.Lib

/-- The Unix seconds that an NTP timestamp of era 0 or 1 can stand for. -/
def NtpRange (t : Int64) : Prop :=
  -61505152 ≤ t.toInt ∧ t.toInt ≤ 4233462143

/-- A timestamp lies in the range that its era allows. -/
theorem ntpRange_of_transmitTimestamp {packet : List UInt8} {t : Int64}
    (h : Ntp.transmitTimestamp packet = .ok t) : NtpRange t := by
  obtain ⟨bytes, hslice, -, ht⟩ := Ntp.transmitTimestamp_ok h
  have hlt : beNat bytes < 2 ^ 32 := by
    have := beNat_lt bytes
    rwa [length_of_slice hslice] at this
  rw [NtpRange, ht, Ntp.eraSeconds]
  split_ifs with hera <;> omega

/-- Two readings an NTP answer can carry are not so far apart that their difference
wraps. -/
theorem NtpRange.toInt_sub {a b : Int64} (ha : NtpRange a) (hb : NtpRange b) :
    (a - b).toInt = a.toInt - b.toInt := by
  obtain ⟨ha₁, ha₂⟩ := ha
  obtain ⟨hb₁, hb₂⟩ := hb
  rw [Int64.toInt_sub]
  exact Int.bmod_eq_of_le (by omega) (by omega)

namespace Quorum

/-- The seconds that an operator answered. -/
def readings (answers : List Answer) (provider : String) : List Int64 :=
  (own answers provider).map (·.seconds)

/-- The votes of the sampled operators, one for each entry of the sample. -/
def medians (sampled : List String) (answers : List Answer) : List Int64 :=
  sampled.filterMap fun p => upperMedian (readings answers p)

theorem medians_cons {sampled : List String} {answers : List Answer} {p : String} {v : Int64}
    (h : upperMedian (readings answers p) = some v) :
    medians (p :: sampled) answers = v :: medians sampled answers := by
  rw [medians, List.filterMap_cons, h]
  rfl

/-- Every sampled operator answered, the answers of each lie within the tolerance of
each other, and so do their medians. -/
structure Agreement (sampled : List String) (answers : List Answer) (tolerance : Int64) :
    Prop where
  sampled_ne_nil : sampled ≠ []
  answered : ∀ p ∈ sampled, ∃ a ∈ answers, a.operator = p
  own_spans : ∀ p ∈ sampled, Spans ((readings answers p).map Int64.toInt) tolerance.toInt
  votes_span : Spans ((medians sampled answers).map Int64.toInt) tolerance.toInt

/-! ## The walk -/

/-- The spread check as the code makes it, on differences that may wrap. -/
def SpreadOk (values : List Int64) (tolerance : Int64) : Prop :=
  ∃ newest oldest, (newest ∈ values ∧ ∀ v ∈ values, v ≤ newest) ∧
    (oldest ∈ values ∧ ∀ v ∈ values, oldest ≤ v) ∧ newest - oldest ≤ tolerance

/-- The order of the values does not matter. -/
theorem SpreadOk.perm {values values' : List Int64} {tolerance : Int64}
    (h : SpreadOk values tolerance) (hperm : values.Perm values') :
    SpreadOk values' tolerance := by
  obtain ⟨newest, oldest, ⟨hnew, hmax⟩, ⟨hold, hmin⟩, hspread⟩ := h
  refine ⟨newest, oldest, ⟨hperm.mem_iff.mp hnew, ?_⟩, ⟨hperm.mem_iff.mp hold, ?_⟩, hspread⟩
  · intro v hv
    exact hmax v (hperm.mem_iff.mpr hv)
  · intro v hv
    exact hmin v (hperm.mem_iff.mpr hv)

/-- On readings that an NTP answer can carry, the check is about the span itself. -/
theorem spreadOk_iff_spans {values : List Int64} {tolerance : Int64} (hne : values ≠ [])
    (hrange : ∀ v ∈ values, NtpRange v) :
    SpreadOk values tolerance ↔ Spans (values.map Int64.toInt) tolerance.toInt := by
  have key : ∀ {newest oldest : Int64}, (newest ∈ values ∧ ∀ v ∈ values, v ≤ newest) →
      (oldest ∈ values ∧ ∀ v ∈ values, oldest ≤ v) →
      (newest - oldest ≤ tolerance ↔ Spans (values.map Int64.toInt) tolerance.toInt) := by
    rintro newest oldest ⟨hnew, hmax⟩ ⟨hold, hmin⟩
    rw [Int64.le_iff_toInt_le, (hrange _ hnew).toInt_sub (hrange _ hold)]
    refine (spans_iff_of_extremes ⟨List.mem_map_of_mem hnew, ?_⟩
      ⟨List.mem_map_of_mem hold, ?_⟩).symm
    · rintro x hx
      obtain ⟨v, hv, rfl⟩ := List.mem_map.mp hx
      exact Int64.le_iff_toInt_le.mp (hmax v hv)
    · rintro x hx
      obtain ⟨v, hv, rfl⟩ := List.mem_map.mp hx
      exact Int64.le_iff_toInt_le.mp (hmin v hv)
  constructor
  · rintro ⟨newest, oldest, hnew, hold, hspread⟩
    exact (key hnew hold).mp hspread
  · intro hspans
    have hnew := List.max?_eq_some_iff.mp (List.max?_eq_some_max hne)
    have hold := List.min?_eq_some_iff.mp (List.min?_eq_some_min hne)
    exact ⟨_, _, hnew, hold, (key hnew hold).mpr hspans⟩

theorem extremes_of_ne_nil {values : List Int64} (hne : values ≠ []) :
    ∃ newest oldest, extremes values = .ok (newest, oldest) := by
  rw [extremes, List.max?_eq_some_max hne, List.min?_eq_some_min hne]
  exact ⟨_, _, rfl⟩

/-- The middle is the upper median. -/
theorem middle_eq_ok {values : List Int64} {t : Int64} :
    middle values = .ok t ↔ upperMedian values = some t := by
  unfold middle upperMedian
  cases (values.insertionSort (· ≤ ·))[values.length / 2]? with
  | none => simp
  | some v => simp

/-- The check of a spread followed by the middle of the values, as in `vote` and at the
end of `decide`: `f` refuses with a message of its own. -/
theorem checked_middle_eq_ok {values : List Int64} {tolerance t : Int64}
    {f : Int64 × Int64 → Except Stop Int64} {message : Int64 → Int64 → String}
    (hf : ∀ newest oldest, f (newest, oldest) =
      if tolerance < newest - oldest then .error (.err (message newest oldest))
      else middle values) :
    extremes values >>= f = .ok t ↔
      SpreadOk values tolerance ∧ upperMedian values = some t := by
  rw [bind_eq_ok]
  constructor
  · rintro ⟨⟨newest, oldest⟩, hext, h⟩
    rw [hf] at h
    split_ifs at h with hspread
    obtain ⟨hnew, hold⟩ := extremes_ok hext
    exact ⟨⟨newest, oldest, hnew, hold, le_of_not_gt hspread⟩, middle_eq_ok.mp h⟩
  · rintro ⟨⟨newest, oldest, ⟨hnew, hmax⟩, ⟨hold, hmin⟩, hspread⟩, hmid⟩
    obtain ⟨newest', oldest', hext⟩ := extremes_of_ne_nil (List.ne_nil_of_mem hnew)
    obtain ⟨⟨hnew', hmax'⟩, ⟨hold', hmin'⟩⟩ := extremes_ok hext
    obtain rfl := le_antisymm (hmax newest' hnew') (hmax' newest hnew)
    obtain rfl := le_antisymm (hmin' oldest hold) (hmin oldest' hold')
    refine ⟨_, hext, ?_⟩
    rw [hf, if_neg (not_lt_of_ge hspread)]
    exact middle_eq_ok.mpr hmid

/-- A vote is the upper median of values that are close enough. -/
theorem vote_eq_ok {answers : List Answer} {tolerance t : Int64} :
    vote answers tolerance = .ok t ↔ SpreadOk (answers.map (·.seconds)) tolerance ∧
      upperMedian (answers.map (·.seconds)) = some t :=
  checked_middle_eq_ok fun _ _ => rfl

/-- All the votes: each operator's readings agree, and its vote is their median. -/
theorem votes_eq_ok {sampled : List String} {answers : List Answer} {tolerance : Int64}
    {votes : List Int64} :
    sampled.mapM (fun p => vote (own answers p) tolerance) = .ok votes ↔
      (∀ p ∈ sampled, SpreadOk (readings answers p) tolerance) ∧
        votes = medians sampled answers := by
  rw [mapM_eq_ok]
  induction sampled generalizing votes with
  | nil => simp [medians]
  | cons p sampled ih =>
    rw [List.forall₂_cons_left_iff, List.forall_mem_cons]
    constructor
    · rintro ⟨v, rest, hvote, hrest, rfl⟩
      obtain ⟨hspread, hmid⟩ := vote_eq_ok.mp hvote
      obtain ⟨hall, rfl⟩ := ih.mp hrest
      refine ⟨⟨hspread, hall⟩, ?_⟩
      exact (medians_cons hmid).symm
    · rintro ⟨⟨hspread, hall⟩, rfl⟩
      -- readings that passed the check are there, so they have a median
      have hne : readings answers p ≠ [] := by
        obtain ⟨newest, -, ⟨hnew, -⟩, -⟩ := hspread
        exact List.ne_nil_of_mem hnew
      obtain ⟨v, hmid⟩ := exists_upperMedian hne
      refine ⟨v, medians sampled answers, vote_eq_ok.mpr ⟨hspread, hmid⟩,
        ih.mpr ⟨hall, rfl⟩, ?_⟩
      exact medians_cons hmid

/-- The operators that are not silent. -/
theorem silent_eq_nil {sampled : List String} {answers : List Answer} :
    (sampled.filter fun p => !answers.any fun a => a.operator = p) = [] ↔
      ∀ p ∈ sampled, ∃ a ∈ answers, a.operator = p := by
  rw [List.filter_eq_nil_iff]
  simp

/-- **What `decide` accepts**, and the time it gives. -/
theorem decide_eq_ok {sampled : List String} {answers : List Answer} {tolerance t : Int64} :
    Quorum.decide sampled answers tolerance = .ok t ↔
      sampled ≠ [] ∧ (∀ p ∈ sampled, ∃ a ∈ answers, a.operator = p) ∧
        (∀ p ∈ sampled, SpreadOk (readings answers p) tolerance) ∧
        SpreadOk (medians sampled answers) tolerance ∧
        upperMedian (medians sampled answers) = some t := by
  unfold Quorum.decide
  by_cases hempty : sampled = []
  · simp [hempty]
  by_cases hanswered : ∀ p ∈ sampled, ∃ a ∈ answers, a.operator = p
  · have hsilent := silent_eq_nil.mpr hanswered
    rw [if_neg hempty]
    dsimp only
    rw [if_neg (not_not.mpr hsilent), bind_eq_ok]
    constructor
    · rintro ⟨votes, hvotes, h⟩
      obtain ⟨hspreads, rfl⟩ := votes_eq_ok.mp hvotes
      exact ⟨hempty, hanswered, hspreads, (checked_middle_eq_ok fun _ _ => rfl).mp h⟩
    · rintro ⟨-, -, hspreads, hrest⟩
      exact ⟨_, votes_eq_ok.mpr ⟨hspreads, rfl⟩, (checked_middle_eq_ok fun _ _ => rfl).mpr hrest⟩
  · have hsilent := mt silent_eq_nil.mp hanswered
    rw [if_neg hempty]
    dsimp only
    rw [if_pos hsilent]
    constructor
    · intro h
      cases h
    · rintro ⟨-, h, -⟩
      exact absurd h hanswered

/-! ## What a decision is -/

theorem mem_readings {answers : List Answer} {p : String} {v : Int64} :
    v ∈ readings answers p ↔ ∃ a ∈ answers, a.operator = p ∧ a.seconds = v := by
  simp [readings, own, and_assoc]

theorem readings_ne_nil {answers : List Answer} {p : String} :
    readings answers p ≠ [] ↔ ∃ a ∈ answers, a.operator = p := by
  constructor
  · intro h
    obtain ⟨v, hv⟩ := List.exists_mem_of_ne_nil _ h
    obtain ⟨a, ha, hop, -⟩ := mem_readings.mp hv
    exact ⟨a, ha, hop⟩
  · rintro ⟨a, ha, hop⟩
    exact List.ne_nil_of_mem (mem_readings.mpr ⟨a, ha, hop, rfl⟩)

/-- The medians are those of the operators that answered. -/
theorem mem_medians {sampled : List String} {answers : List Answer} {v : Int64} :
    v ∈ medians sampled answers ↔ ∃ p ∈ sampled, upperMedian (readings answers p) = some v :=
  List.mem_filterMap

theorem medians_ne_nil {sampled : List String} {answers : List Answer} (hne : sampled ≠ [])
    (hanswered : ∀ p ∈ sampled, ∃ a ∈ answers, a.operator = p) :
    medians sampled answers ≠ [] := by
  obtain ⟨p, hp⟩ := List.exists_mem_of_ne_nil sampled hne
  obtain ⟨v, hv⟩ := exists_upperMedian (readings_ne_nil.mpr (hanswered p hp))
  exact List.ne_nil_of_mem (mem_medians.mpr ⟨p, hp, hv⟩)

/-- The median of an operator's readings is one of its answers. -/
theorem exists_answer_of_median {answers : List Answer} {p : String} {v : Int64}
    (h : upperMedian (readings answers p) = some v) :
    ∃ a ∈ answers, a.operator = p ∧ a.seconds = v :=
  mem_readings.mp (upperMedian_mem h)

section Range

variable {sampled : List String} {answers : List Answer} {tolerance t : Int64}

/-- On readings that an NTP answer can carry, a decision is an agreement. -/
theorem decide_eq_ok_of_range (hrange : ∀ a ∈ answers, NtpRange a.seconds) :
    Quorum.decide sampled answers tolerance = .ok t ↔
      Agreement sampled answers tolerance ∧ upperMedian (medians sampled answers) = some t := by
  have hreadings : ∀ p, ∀ v ∈ readings answers p, NtpRange v := by
    intro p v hv
    obtain ⟨a, ha, -, rfl⟩ := mem_readings.mp hv
    exact hrange a ha
  have hmedians : ∀ v ∈ medians sampled answers, NtpRange v := by
    intro v hv
    obtain ⟨p, -, hmid⟩ := mem_medians.mp hv
    exact hreadings p v (upperMedian_mem hmid)
  rw [decide_eq_ok]
  constructor
  · rintro ⟨hne, hanswered, hown, hvotes, hmid⟩
    refine ⟨⟨hne, hanswered, ?_, ?_⟩, hmid⟩
    · intro p hp
      have hp_ne := readings_ne_nil.mpr (hanswered p hp)
      exact (spreadOk_iff_spans hp_ne (hreadings p)).mp (hown p hp)
    · exact (spreadOk_iff_spans (medians_ne_nil hne hanswered) hmedians).mp hvotes
  · rintro ⟨⟨hne, hanswered, hown, hvotes⟩, hmid⟩
    refine ⟨hne, hanswered, ?_, ?_, hmid⟩
    · intro p hp
      have hp_ne := readings_ne_nil.mpr (hanswered p hp)
      exact (spreadOk_iff_spans hp_ne (hreadings p)).mpr (hown p hp)
    · exact (spreadOk_iff_spans (medians_ne_nil hne hanswered) hmedians).mpr hvotes

/-- The time is within the tolerance of every vote. -/
theorem vote_close_of_decide (hrange : ∀ a ∈ answers, NtpRange a.seconds)
    (h : Quorum.decide sampled answers tolerance = .ok t) {p : String} (hp : p ∈ sampled)
    {v : Int64} (hv : upperMedian (readings answers p) = some v) :
    |t.toInt - v.toInt| ≤ tolerance.toInt := by
  obtain ⟨hagree, hmid⟩ := (decide_eq_ok_of_range hrange).mp h
  have ht := upperMedian_mem hmid
  have hv' := mem_medians.mpr ⟨p, hp, hv⟩
  exact hagree.votes_span.abs_sub_le (List.mem_map_of_mem ht) (List.mem_map_of_mem hv')

/-- The time is within twice the tolerance of every answer of a sampled operator. -/
theorem answer_close_of_decide (hrange : ∀ a ∈ answers, NtpRange a.seconds)
    (h : Quorum.decide sampled answers tolerance = .ok t) {a : Answer} (ha : a ∈ answers)
    (hop : a.operator ∈ sampled) : |t.toInt - a.seconds.toInt| ≤ 2 * tolerance.toInt := by
  have hagree := ((decide_eq_ok_of_range hrange).mp h).1
  obtain ⟨v, hv⟩ := exists_upperMedian (readings_ne_nil.mpr ⟨a, ha, rfl⟩)
  have hvote := vote_close_of_decide hrange h hop hv
  -- the answer is within the tolerance of its operator's vote
  have hown : |v.toInt - a.seconds.toInt| ≤ tolerance.toInt :=
    (hagree.own_spans a.operator hop).abs_sub_le (List.mem_map_of_mem (upperMedian_mem hv))
      (List.mem_map_of_mem (mem_readings.mpr ⟨a, ha, rfl, rfl⟩))
  have htri := abs_sub_le t.toInt v.toInt a.seconds.toInt
  omega

end Range

/-- **A decision is exactly an agreement.** The time is the upper median of the votes and
one answer of a sampled operator, within the tolerance of every vote and within twice
the tolerance of every answer that counts. The last part is what one honest operator is
worth: whatever the others answer, a time that is accepted is within the tolerance of
its vote. -/
theorem decide_exactly_agreement (sampled : List String) (answers : List Answer)
    (tolerance : Int64) (hrange : ∀ a ∈ answers, NtpRange a.seconds) :
    ((∃ t, Quorum.decide sampled answers tolerance = .ok t) ↔
      Agreement sampled answers tolerance) ∧
    (∀ t, Quorum.decide sampled answers tolerance = .ok t →
      upperMedian (medians sampled answers) = some t ∧
      (∃ a ∈ answers, a.operator ∈ sampled ∧ a.seconds = t) ∧
      (∀ p ∈ sampled, ∃ v, vote (own answers p) tolerance = .ok v ∧
        upperMedian (readings answers p) = some v ∧
        |t.toInt - v.toInt| ≤ tolerance.toInt) ∧
      ∀ a ∈ answers, a.operator ∈ sampled →
        |t.toInt - a.seconds.toInt| ≤ 2 * tolerance.toInt) ∧
    ∀ honest ∈ sampled, ∀ v, upperMedian (readings answers honest) = some v →
      ∀ answers', (∀ a ∈ answers', NtpRange a.seconds) →
        readings answers' honest = readings answers honest →
        ∀ t, Quorum.decide sampled answers' tolerance = .ok t →
          |t.toInt - v.toInt| ≤ tolerance.toInt := by
  refine ⟨?_, ?_, ?_⟩
  · constructor
    · rintro ⟨t, h⟩
      exact ((decide_eq_ok_of_range hrange).mp h).1
    · intro hagree
      obtain ⟨t, ht⟩ :=
        exists_upperMedian (medians_ne_nil hagree.sampled_ne_nil hagree.answered)
      exact ⟨t, (decide_eq_ok_of_range hrange).mpr ⟨hagree, ht⟩⟩
  · intro t h
    obtain ⟨-, hanswered, hspreads, -, hmid⟩ := decide_eq_ok.mp h
    refine ⟨hmid, ?_, ?_, ?_⟩
    · obtain ⟨p, hp, hv⟩ := mem_medians.mp (upperMedian_mem hmid)
      obtain ⟨a, ha, rfl, hat⟩ := exists_answer_of_median hv
      exact ⟨a, ha, hp, hat⟩
    · intro p hp
      obtain ⟨v, hv⟩ := exists_upperMedian (readings_ne_nil.mpr (hanswered p hp))
      exact ⟨v, vote_eq_ok.mpr ⟨hspreads p hp, hv⟩, hv, vote_close_of_decide hrange h hp hv⟩
    · intro a ha hop
      exact answer_close_of_decide hrange h ha hop
  · intro honest hhonest v hv answers' hrange' hsame t h
    exact vote_close_of_decide hrange' h hhonest (hsame ▸ hv)

/-- Two operators, one of them with two answers. -/
theorem decide_exactly_agreement_pair :
    ((∃ t, Quorum.decide ["a", "b"] [⟨"a", "x", 10⟩, ⟨"b", "y", 12⟩, ⟨"a", "z", 13⟩] 5 = .ok t) ↔
      Agreement ["a", "b"] [⟨"a", "x", 10⟩, ⟨"b", "y", 12⟩, ⟨"a", "z", 13⟩] 5) ∧
    Quorum.decide ["a", "b"] [⟨"a", "x", 10⟩, ⟨"b", "y", 12⟩, ⟨"a", "z", 13⟩] 5 = .ok 13 := by
  refine ⟨(decide_exactly_agreement _ _ _ ?_).1, by decide +kernel⟩
  simp only [NtpRange]
  decide +kernel

/-! ## What a decision does not depend on -/

/-- A decision is a function of the sample up to order and of what each sampled operator
answered up to order. -/
theorem decide_congr {sampled sampled' : List String} {answers answers' : List Answer}
    {tolerance t : Int64} (hsampled : sampled.Perm sampled')
    (hreadings : ∀ p ∈ sampled, (readings answers p).Perm (readings answers' p))
    (h : Quorum.decide sampled answers tolerance = .ok t) :
    Quorum.decide sampled' answers' tolerance = .ok t := by
  obtain ⟨hne, hanswered, hspreads, hvotes, hmid⟩ := decide_eq_ok.mp h
  have hmedians : (medians sampled answers).Perm (medians sampled' answers') := by
    have hsame : medians sampled answers = medians sampled answers' := by
      apply List.filterMap_congr
      intro p hp
      exact upperMedian_perm (hreadings p hp)
    rw [hsame]
    exact hsampled.filterMap _
  rw [decide_eq_ok]
  refine ⟨?_, ?_, ?_, hvotes.perm hmedians, upperMedian_perm hmedians ▸ hmid⟩
  · intro hnil
    subst hnil
    exact hne hsampled.eq_nil
  · intro p hp
    have hp' := hsampled.mem_iff.mpr hp
    rw [← readings_ne_nil]
    intro hnil
    exact readings_ne_nil.mpr (hanswered p hp') (hnil ▸ hreadings p hp').eq_nil
  · intro p hp
    have hp' := hsampled.mem_iff.mpr hp
    exact (hspreads p hp').perm (hreadings p hp')

/-- Answers of operators that were not sampled do not reach a sampled operator's
readings. -/
theorem readings_filter {sampled : List String} {answers : List Answer} {p : String}
    (hp : p ∈ sampled) :
    readings (answers.filter fun a => a.operator ∈ sampled) p = readings answers p := by
  rw [readings, readings, own, own, List.filter_filter]
  congr 1
  apply List.filter_congr
  intro a ha
  by_cases hop : a.operator = p
  · simp [hop, hp]
  · simp [hop]

/-- **The order of the answers, the order of the sample, and bystanders do not matter**:
neither for whether there is a decision nor for the time. -/
theorem decide_independent (sampled : List String) (answers : List Answer)
    (tolerance t : Int64) :
    (∀ answers', answers.Perm answers' →
      (Quorum.decide sampled answers tolerance = .ok t ↔
        Quorum.decide sampled answers' tolerance = .ok t)) ∧
    (∀ sampled', sampled.Perm sampled' →
      (Quorum.decide sampled answers tolerance = .ok t ↔
        Quorum.decide sampled' answers tolerance = .ok t)) ∧
    ∀ answers', (answers.filter fun a => a.operator ∈ sampled) =
        (answers'.filter fun a => a.operator ∈ sampled) →
      (Quorum.decide sampled answers tolerance = .ok t ↔
        Quorum.decide sampled answers' tolerance = .ok t) := by
  refine ⟨?_, ?_, ?_⟩
  · intro answers' hperm
    have hreadings : ∀ p, (readings answers p).Perm (readings answers' p) := by
      intro p
      exact (hperm.filter _).map _
    constructor
    · exact decide_congr (.refl _) fun p _ => hreadings p
    · exact decide_congr (.refl _) fun p _ => (hreadings p).symm
  · intro sampled' hperm
    constructor
    · exact decide_congr hperm fun p _ => .refl _
    · exact decide_congr hperm.symm fun p _ => .refl _
  · intro answers' hsame
    have hreadings : ∀ p ∈ sampled, readings answers p = readings answers' p := by
      intro p hp
      rw [← readings_filter hp, hsame, readings_filter hp]
    constructor
    · exact decide_congr (.refl _) fun p hp => .of_eq (hreadings p hp)
    · exact decide_congr (.refl _) fun p hp => .of_eq (hreadings p hp).symm

/-- The same two operators asked and answering the other way round, and a third one that
nobody asked. -/
theorem decide_independent_pair :
    (Quorum.decide ["a", "b"] [⟨"a", "x", 10⟩, ⟨"b", "y", 12⟩] 5 = .ok 12 ↔
      Quorum.decide ["a", "b"] [⟨"b", "y", 12⟩, ⟨"a", "x", 10⟩] 5 = .ok 12) ∧
    (Quorum.decide ["a", "b"] [⟨"a", "x", 10⟩, ⟨"b", "y", 12⟩] 5 = .ok 12 ↔
      Quorum.decide ["b", "a"] [⟨"a", "x", 10⟩, ⟨"b", "y", 12⟩] 5 = .ok 12) ∧
    (Quorum.decide ["a", "b"] [⟨"a", "x", 10⟩, ⟨"b", "y", 12⟩] 5 = .ok 12 ↔
      Quorum.decide ["a", "b"] [⟨"a", "x", 10⟩, ⟨"c", "z", 99⟩, ⟨"b", "y", 12⟩] 5 = .ok 12) := by
  obtain ⟨hanswers, hsampled, hbystanders⟩ :=
    decide_independent ["a", "b"] [⟨"a", "x", 10⟩, ⟨"b", "y", 12⟩] 5 12
  exact ⟨hanswers _ (.swap _ _ _), hsampled _ (.swap _ _ _), hbystanders _ (by decide +kernel)⟩

end Quorum

end HostServices.TimeCorrection
