import HostServices.SystemMetrics.Passes
import Mathlib.Algebra.Group.End
import Mathlib.Data.List.OfFn

/-!
# What the verdicts depend on

The journal holds the lines of other services and of providers that are no longer
configured, at any time. None of them matters, nor does the order in which the journal
returns its entries, as long as their times tell them apart.

- `Relevant`: the lines that name a configured provider;
- `statuses_filter`: the others may be left out;
- `statuses_perm`: the order of the entries does not matter;
- `verdicts_noninterference`: both, and the order of the providers.
-/

namespace HostServices.SystemMetrics.Dnscrypt

open HostServices.Lib

/-- The line is a success or a named failure of a configured provider. -/
def Relevant (providers : List String) (entry : Entry) : Bool :=
  (parseOk entry.message).any (·.1 ∈ providers) ||
    (parseFailure entry.message).any (·.1 ∈ providers)

/-! ## Other lines -/

theorem observationOf_eq_some {providers : List String} {entry : Entry} {o : Observation} :
    observationOf providers entry = some o ↔
      parseOk entry.message = some (o.provider, o.rtt) ∧ o.provider ∈ providers ∧
        o.atMicros = entry.atMicros := by
  rw [observationOf]
  cases hparse : parseOk entry.message with
  | none => simp
  | some result =>
    obtain ⟨name, rtt⟩ := result
    obtain ⟨time, provider, found⟩ := o
    by_cases hname : name ∈ providers
    · simp only [Option.bind_eq_bind, Option.bind_some, if_pos hname, Option.some_inj,
        Observation.mk.injEq, Prod.mk.injEq]
      constructor
      · rintro ⟨rfl, rfl, rfl⟩
        exact ⟨⟨rfl, rfl⟩, hname, rfl⟩
      · rintro ⟨⟨rfl, rfl⟩, -, rfl⟩
        exact ⟨rfl, rfl, rfl⟩
    · simp only [Option.bind_eq_bind, Option.bind_some, if_neg hname, Option.some_inj,
        Prod.mk.injEq]
      constructor
      · intro h
        cases h
      · rintro ⟨⟨rfl, -⟩, hprovider, -⟩
        exact absurd hprovider hname

/-- A success is relevant. -/
theorem relevant_of_observationOf {providers : List String} {entry : Entry}
    (h : (observationOf providers entry).isSome) : Relevant providers entry := by
  obtain ⟨o, ho⟩ := Option.isSome_iff_exists.mp h
  obtain ⟨hparse, hprovider, -⟩ := observationOf_eq_some.mp ho
  rw [Relevant, hparse]
  simp [hprovider]

/-- A failure of a configured provider is relevant. -/
theorem relevant_of_failureOf {providers : List String} {provider : String}
    (hprovider : provider ∈ providers) {entry : Entry}
    (h : (failureOf provider entry).isSome) : Relevant providers entry := by
  obtain ⟨x, hx⟩ := Option.isSome_iff_exists.mp h
  rw [Relevant, (failureOf_eq_some.mp hx).1]
  simp [hprovider]

/-- What is not relevant does not contribute. -/
theorem filterMap_filter_of_imp {α β : Type} {f : α → Option β} {p : α → Bool}
    (h : ∀ a, (f a).isSome → p a) (l : List α) : (l.filter p).filterMap f = l.filterMap f := by
  rw [List.filterMap_filter]
  refine List.filterMap_congr ?_
  intro a _
  split_ifs with hp
  · rfl
  · cases hf : f a with
    | none => rfl
    | some b => exact absurd (h a (hf ▸ rfl)) hp

/-- Irrelevant lines are no successes. -/
theorem observations_filter (providers : List String) (entries : List Entry) :
    observations providers (entries.filter (Relevant providers))
      = observations providers entries :=
  filterMap_filter_of_imp (fun _ => relevant_of_observationOf) entries

/-- Irrelevant lines do not change an error. -/
theorem errorOf_filter {providers : List String} {provider : String}
    (hprovider : provider ∈ providers) (entries : List Entry) (last : Pass) :
    errorOf (entries.filter (Relevant providers)) last provider
      = errorOf entries last provider := by
  have hcomm : (entries.filter (Relevant providers)).filter (inWindow last)
      = (entries.filter (inWindow last)).filter (Relevant providers) := by
    rw [List.filter_filter, List.filter_filter]
    exact List.filter_congr fun e _ => Bool.and_comm _ _
  rw [errorOf, hcomm, filterMap_filter_of_imp (fun _ => relevant_of_failureOf hprovider), errorOf]

section Statuses

variable {F : Type} {seconds : UInt64 → F} {now : Option UInt64}

/-- The statuses come from the successes and from each provider's error. -/
theorem statuses_congr {providers : List String} {entries entries' : List Entry}
    (hpasses : passes (observations providers entries) = passes (observations providers entries'))
    (herror : ∀ provider ∈ providers, ∀ last,
      errorOf entries last provider = errorOf entries' last provider) :
    statuses seconds providers entries now = statuses seconds providers entries' now := by
  rw [statuses, statuses, hpasses]
  split
  · rfl
  · rename_i last hlast
    refine List.map_congr_left ?_
    intro provider hprovider
    rw [statusOf, statusOf, herror provider hprovider]

/-- Lines that are not relevant may be left out. -/
theorem statuses_filter (providers : List String) (entries : List Entry) :
    statuses seconds providers (entries.filter (Relevant providers)) now
      = statuses seconds providers entries now :=
  statuses_congr (by rw [observations_filter])
    fun _ hprovider last => errorOf_filter hprovider entries last

end Statuses

/-! ## The order of the entries -/

/-- What is made of some of the elements, with their keys, has keys among theirs. -/
theorem map_filterMap_sublist {α β γ : Type} {f : α → Option β} {key : α → γ} {key' : β → γ}
    (h : ∀ a b, f a = some b → key' b = key a) (l : List α) :
    ((l.filterMap f).map key').Sublist (l.map key) := by
  induction l with
  | nil => exact List.Sublist.refl _
  | cons a l ih =>
    cases hf : f a with
    | none =>
      rw [List.filterMap_cons_none hf, List.map_cons]
      exact ih.cons _
    | some b =>
      rw [List.filterMap_cons_some hf, List.map_cons, List.map_cons, h a b hf]
      exact ih.cons_cons _

/-- Successes at different times have one order only. -/
theorem passes_perm {found found' : List Observation} (h : found.Perm found')
    (hdistinct : (found.map (·.atMicros)).Nodup) : passes found = passes found' := by
  have hsame : inOrder found = inOrder found' := by
    have hperm : (inOrder found).Perm (inOrder found') :=
      (List.mergeSort_perm _ _).trans (h.trans (List.mergeSort_perm _ _).symm)
    refine List.Perm.eq_of_pairwise ?_ (pairwise_inOrder found) (pairwise_inOrder found') hperm
    intro a b ha hb hab hba
    have ha := (List.mergeSort_perm found _).mem_iff.mp ha
    have hb := h.mem_iff.mpr ((List.mergeSort_perm found' _).mem_iff.mp hb)
    exact List.inj_on_of_nodup_map hdistinct ha hb (UInt64.toNat_inj.mp (Nat.le_antisymm hab hba))
  exact congrArg (List.foldl observe []) hsame

/-- With different keys there is one greatest only. -/
theorem maxByKey_perm {l l' : List (UInt64 × String)} (h : l.Perm l')
    (hdistinct : (l.map (·.1)).Nodup) : maxByKey l = maxByKey l' := by
  cases hmax : maxByKey l with
  | none =>
    rw [maxByKey_eq_none] at hmax
    subst hmax
    rw [List.nil_perm.mp h]
    rfl
  | some x =>
    cases hmax' : maxByKey l' with
    | none =>
      rw [maxByKey_eq_none] at hmax'
      subst hmax'
      rw [List.perm_nil.mp h] at hmax
      cases hmax
    | some y =>
      obtain ⟨hx, hxmax⟩ := maxByKey_eq_some hmax
      obtain ⟨hy, hymax⟩ := maxByKey_eq_some hmax'
      have hkey : x.1 = y.1 :=
        UInt64.le_antisymm (hymax x (h.mem_iff.mp hx)) (hxmax y (h.mem_iff.mpr hy))
      rw [List.inj_on_of_nodup_map hdistinct hx (h.mem_iff.mpr hy) hkey]

/-- The order of the lines does not matter when no two are of one moment. -/
theorem errorOf_perm {entries entries' : List Entry} (h : entries.Perm entries')
    (hdistinct : (entries.map (·.atMicros)).Nodup) (last : Pass) (provider : String) :
    errorOf entries last provider = errorOf entries' last provider := by
  have hperm := (h.filter (inWindow last)).filterMap (failureOf provider)
  have hkeys : (((entries.filter (inWindow last)).filterMap (failureOf provider)).map
      (·.1)).Sublist ((entries.filter (inWindow last)).map (·.atMicros)) :=
    map_filterMap_sublist (fun _ _ hx => (failureOf_eq_some.mp hx).2) _
  have hwindow := (List.filter_sublist (p := inWindow last) (l := entries)).map (·.atMicros)
  rw [errorOf, maxByKey_perm hperm (hdistinct.sublist (hkeys.trans hwindow)), errorOf]

section Verdicts

variable {F : Type} {seconds : UInt64 → F} {now : Option UInt64}

/-- The order of entries at different times does not matter. -/
theorem statuses_perm {providers : List String} {entries entries' : List Entry}
    (h : entries.Perm entries') (hdistinct : (entries.map (·.atMicros)).Nodup) :
    statuses seconds providers entries now = statuses seconds providers entries' now := by
  have hkeys : ((observations providers entries).map (·.atMicros)).Sublist
      (entries.map (·.atMicros)) :=
    map_filterMap_sublist (fun _ _ ho => (observationOf_eq_some.mp ho).2.2) entries
  exact statuses_congr (passes_perm (h.filterMap _) (hdistinct.sublist hkeys))
    fun provider _ last => errorOf_perm h hdistinct last provider

/-! ## The order of the providers -/

/-- Which providers are configured matters, and not in which order. -/
theorem observations_congr {providers providers' : List String}
    (h : ∀ name, name ∈ providers ↔ name ∈ providers') (entries : List Entry) :
    observations providers entries = observations providers' entries := by
  refine List.filterMap_congr ?_
  intro entry _
  simp only [observationOf, h]

/-- Each provider's status is its own. -/
theorem statuses_ofFn {n : Nat} (names : Fin n → String) (σ : Equiv.Perm (Fin n))
    (entries : List Entry) :
    ∃ result : Fin n → Status F,
      statuses seconds (List.ofFn names) entries now = List.ofFn result ∧
      statuses seconds (List.ofFn (names ∘ σ)) entries now = List.ofFn (result ∘ σ) := by
  have hnames : ∀ name, name ∈ List.ofFn (names ∘ σ) ↔ name ∈ List.ofFn names := by
    intro name
    rw [List.mem_ofFn', List.mem_ofFn', Set.range_comp, σ.range_eq_univ, Set.image_univ]
  rw [statuses, statuses, observations_congr hnames]
  cases (passes (observations (List.ofFn names) entries)).getLast? with
  | none =>
    refine ⟨fun _ => {}, ?_, ?_⟩
    · exact List.map_ofFn
    · exact List.map_ofFn
  | some last =>
    refine ⟨_, List.map_ofFn, ?_⟩
    exact List.map_ofFn

/-- **Only the relevant lines matter**: the statuses are the same for a journal in another
order, if its entries have different times, and for one that differs in lines that are no
success and no named failure of a configured provider; and another order of the providers
gives the same statuses in that order. -/
theorem verdicts_noninterference (seconds : UInt64 → F) (now : Option UInt64) :
    (∀ (providers : List String) (entries entries' : List Entry), entries.Perm entries' →
      (entries.map (·.atMicros)).Nodup →
      statuses seconds providers entries now = statuses seconds providers entries' now) ∧
    (∀ (providers : List String) (entries entries' : List Entry),
      entries.filter (Relevant providers) = entries'.filter (Relevant providers) →
      statuses seconds providers entries now = statuses seconds providers entries' now) ∧
    ∀ {n : Nat} (names : Fin n → String) (σ : Equiv.Perm (Fin n)) (entries : List Entry),
      ∃ result : Fin n → Status F,
        statuses seconds (List.ofFn names) entries now = List.ofFn result ∧
        statuses seconds (List.ofFn (names ∘ σ)) entries now = List.ofFn (result ∘ σ) := by
  refine ⟨fun providers entries entries' h hdistinct => statuses_perm h hdistinct, ?_,
    fun names σ entries => statuses_ofFn names σ entries⟩
  intro providers entries entries' h
  rw [← statuses_filter, h, statuses_filter]

/-- A line of a provider that is no longer configured, in another order. -/
theorem verdicts_noninterference_retired :
    statuses UInt64.toNat ["a", "b"] (⟨1500000, "[c] OK (DoH) - rtt: 1ms"⟩ :: sampleJournal.reverse)
        (some 3000000)
      = statuses UInt64.toNat ["a", "b"] sampleJournal (some 3000000) := by
  obtain ⟨hperm, hother, -⟩ := verdicts_noninterference UInt64.toNat (some 3000000)
  rw [hother ["a", "b"] _ sampleJournal.reverse (by decide +kernel)]
  exact hperm ["a", "b"] _ _ (List.reverse_perm _) (by decide)

end Verdicts

end HostServices.SystemMetrics.Dnscrypt
