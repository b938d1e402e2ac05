import HostServices.TimeCorrection.Deferred

/-!
# Verifying without a clock (`TimeAgnosticVerifier` of `time-correction/src/verify.rs`)

During the handshake the same verifier runs at an instant that is read off the chain: the
first second of the leaf, or of what all sent certificates have in common.

- `chainWindow`, `firstPass`: the source's functions;
- `firstPass_eq_ok`: what is recorded verified at one of these instants;
- `firstPass_exactly`: for a verifier that builds a path, the handshake does not fail over
  the dates of a certificate that no path needs.
-/

namespace HostServices.TimeCorrection

open HostServices.Lib

variable {Cert Name : Type}

/-! ## The code -/

/-- `intersect` over the windows of a chain as sent. -/
def chainWindow (pki : Pki Cert Name) (leaf : Cert) (intermediates : List Cert) :
    Except String (Option Window) := do
  let windows ← (leaf :: intermediates).mapM (windowOf pki)
  .ok (intersect windows)

/-- The instants that pass 1 tries. -/
def candidates (pki : Pki Cert Name) (leaf : Cert) (intermediates : List Cert) : List Int64 :=
  let first := (windowOf pki leaf).toOption.map (·.1)
  let intersected := (chainWindow pki leaf intermediates).toOption.join.map (·.1)
  [first, intersected.filter fun x => some x ≠ first].filterMap id

/-- The loop over the instants. What is recorded is the chain as sent. -/
def tryCandidates (pki : Pki Cert Name) (leaf : Cert) (intermediates : List Cert)
    (serverName : Name) (last : String) : List Int64 → Except String (List Cert)
  | [] => .error last
  | x :: rest =>
    match unixTime x with
    | .error e => tryCandidates pki leaf intermediates serverName e rest
    | .ok now =>
      match pki.verifyServerCert leaf intermediates serverName now with
      | .ok () => .ok (leaf :: intermediates)
      | .error e => tryCandidates pki leaf intermediates serverName e rest

/-- `verify_server_cert` of pass 1, with the chain that is kept. -/
def firstPass (pki : Pki Cert Name) (leaf : Cert) (intermediates : List Cert)
    (serverName : Name) : Except String (List Cert) :=
  tryCandidates pki leaf intermediates serverName
    "no certificate in the chain has a readable validity window"
    (candidates pki leaf intermediates)

/-! ## What is recorded -/

section Candidates

variable {pki : Pki Cert Name} {leaf : Cert} {intermediates : List Cert} {name : Name}
  {x : Int64}

/-- The first second that passes is the last one tried. -/
theorem tryCandidates_accepted
    (h : verifyAt pki (leaf :: intermediates) name x = .ok ()) (last : String)
    (rest : List Int64) :
    tryCandidates pki leaf intermediates name last (x :: rest) = .ok (leaf :: intermediates) := by
  obtain ⟨hpos, haccept⟩ := verifyAt_ok_iff.mp h
  rw [tryCandidates, unixTime, if_neg (not_lt_of_ge hpos)]
  dsimp only
  rw [haccept]

/-- A second that does not pass is followed by the next. -/
theorem tryCandidates_refused
    (h : ¬ verifyAt pki (leaf :: intermediates) name x = .ok ()) (last : String)
    (rest : List Int64) : ∃ e, tryCandidates pki leaf intermediates name last (x :: rest)
      = tryCandidates pki leaf intermediates name e rest := by
  rw [verifyAt_ok_iff, not_and] at h
  rw [tryCandidates, unixTime]
  by_cases hneg : x < 0
  · rw [if_pos hneg]
    exact ⟨_, rfl⟩
  · have hrefused := h (le_of_not_gt hneg)
    rw [if_neg hneg]
    dsimp only
    cases hverify : pki.verifyServerCert leaf intermediates name x.toInt.toNat with
    | ok u => exact absurd hverify hrefused
    | error e => exact ⟨_, rfl⟩

/-- A chain passes just if it does at one of the seconds. -/
theorem tryCandidates_eq_ok {last : String} {instants : List Int64} {chain : List Cert} :
    tryCandidates pki leaf intermediates name last instants = .ok chain ↔
      chain = leaf :: intermediates ∧
        ∃ x ∈ instants, verifyAt pki (leaf :: intermediates) name x = .ok () := by
  induction instants generalizing last with
  | nil => simp [tryCandidates]
  | cons x rest ih =>
    by_cases hx : verifyAt pki (leaf :: intermediates) name x = .ok ()
    · rw [tryCandidates_accepted hx]
      simp [hx, eq_comm]
    · obtain ⟨e, he⟩ := tryCandidates_refused hx last rest
      rw [he, ih]
      simp [hx]

end Candidates

/-- **What pass 1 records verified**: it is the chain as sent, and the verifier of pass 2
accepts it at one of the instants that were read off it. -/
theorem firstPass_eq_ok {pki : Pki Cert Name} {leaf : Cert} {intermediates : List Cert}
    {name : Name} {chain : List Cert} :
    firstPass pki leaf intermediates name = .ok chain ↔
      chain = leaf :: intermediates ∧ ∃ x ∈ candidates pki leaf intermediates,
        verifyAt pki (leaf :: intermediates) name x = .ok () :=
  tryCandidates_eq_ok

/-! ## The instants -/

theorem windowOf_eq_ok {pki : Pki Cert Name} {c : Cert} {w : Window} :
    windowOf pki c = .ok w ↔ pki.validity c = .ok w := by
  unfold windowOf
  cases pki.validity c <;> simp

/-- The first second of the certificate. -/
def StartsAt (pki : Pki Cert Name) (c : Cert) (x : Int64) : Prop :=
  ∃ w, pki.validity c = .ok w ∧ w.1 = x

/-- The first second that all of the certificates have in common. -/
def CommonStart (pki : Pki Cert Name) (certs : List Cert) (x : Int64) : Prop :=
  ∃ windows w, List.Forall₂ (fun c v => pki.validity c = .ok v) certs windows ∧
    intersect windows = some w ∧ w.1 = x

theorem toOption_eq_some {ε α : Type} {x : Except ε α} {a : α} :
    x.toOption = some a ↔ x = .ok a := by
  cases x <;> simp [Except.toOption]

/-- The first candidate is the first second of the leaf. -/
theorem startsAt_iff {pki : Pki Cert Name} {c : Cert} {x : Int64} :
    (windowOf pki c).toOption.map (·.1) = some x ↔ StartsAt pki c x := by
  simp only [Option.map_eq_some_iff, toOption_eq_some, windowOf_eq_ok, StartsAt]

/-- The second one is the first that all have in common. -/
theorem commonStart_iff {pki : Pki Cert Name} {leaf : Cert} {intermediates : List Cert}
    {x : Int64} :
    (chainWindow pki leaf intermediates).toOption.join.map (·.1) = some x ↔
      CommonStart pki (leaf :: intermediates) x := by
  simp only [Option.map_eq_some_iff, Option.join_eq_some_iff, toOption_eq_some, chainWindow,
    bind_eq_ok, mapM_eq_ok, windowOf_eq_ok, CommonStart, Except.ok.injEq]
  constructor
  · rintro ⟨w, ⟨windows, hall, hw⟩, hx⟩
    exact ⟨windows, w, hall, hw, hx⟩
  · rintro ⟨windows, w, hall, hw, hx⟩
    exact ⟨w, ⟨windows, hall, hw⟩, hx⟩

/-- These are all the candidates. -/
theorem mem_candidates {pki : Pki Cert Name} {leaf : Cert} {intermediates : List Cert}
    {x : Int64} : x ∈ candidates pki leaf intermediates ↔
      StartsAt pki leaf x ∨ CommonStart pki (leaf :: intermediates) x := by
  rw [← startsAt_iff, ← commonStart_iff, candidates]
  generalize (windowOf pki leaf).toOption.map (·.1) = first
  generalize (chainWindow pki leaf intermediates).toOption.join.map (·.1) = intersected
  have hmem : x ∈ [first, intersected.filter fun x => some x ≠ first].filterMap id ↔
      first = some x ∨ intersected.filter (fun x => some x ≠ first) = some x := by
    generalize intersected.filter (fun x => some x ≠ first) = second
    simp [List.mem_filterMap, eq_comm (b := some x)]
  rw [hmem, Option.filter_eq_some_iff]
  constructor
  · rintro (h | ⟨h, -⟩)
    · exact .inl h
    · exact .inr h
  · rintro (h | h)
    · exact .inl h
    · by_cases hfirst : some x = first
      · exact .inl hfirst.symm
      · exact .inr ⟨h, decide_eq_true hfirst⟩

/-! ## A verifier that builds a path -/

/-- The certificates of `path` are sent, the leaf is one of them, and they are usable and in
date at `x`. -/
structure PathAt {pki : Pki Cert Name} (pv : PathVerifier pki) (leaf : Cert)
    (intermediates : List Cert) (name : Name) (x : Int64) (path : List Cert) : Prop where
  leaf_mem : leaf ∈ path
  sent : ∀ c ∈ path, c ∈ leaf :: intermediates
  usable : pv.usable leaf intermediates name path
  since_epoch : 0 ≤ x
  in_date : ∀ c ∈ path, pv.validAt c x.toInt.toNat

/-- A chain passes just if it has a path that is in date. -/
theorem verifyAt_iff_pathAt {pki : Pki Cert Name} (pv : PathVerifier pki) {leaf : Cert}
    {intermediates : List Cert} {name : Name} {x : Int64} :
    verifyAt pki (leaf :: intermediates) name x = .ok () ↔
      ∃ path, PathAt pv leaf intermediates name x path := by
  rw [verifyAt_ok_iff, pv.accepts_iff]
  constructor
  · rintro ⟨hpos, path, hleaf, hsent, husable, hdate⟩
    exact ⟨path, hleaf, hsent, husable, hpos, hdate⟩
  · rintro ⟨path, hpath⟩
    exact ⟨hpath.since_epoch, path, hpath.leaf_mem, hpath.sent, hpath.usable, hpath.in_date⟩

/-- Whether a path is usable is up to the certificates on it. -/
def OwnPath {pki : Pki Cert Name} (pv : PathVerifier pki) : Prop :=
  ∀ leaf intermediates intermediates' name path,
    pv.usable leaf intermediates name path → pv.usable leaf intermediates' name path

/-- What else is sent takes no path away. -/
theorem PathAt.more {pki : Pki Cert Name} {pv : PathVerifier pki} (hown : OwnPath pv)
    {leaf : Cert} {intermediates more : List Cert} {name : Name} {x : Int64} {path : List Cert}
    (h : PathAt pv leaf intermediates name x path) (hmore : ∀ c ∈ intermediates, c ∈ more) :
    PathAt pv leaf more name x path := by
  refine ⟨h.leaf_mem, fun c hc => ?_, hown _ _ _ _ _ h.usable, h.since_epoch, h.in_date⟩
  rcases List.mem_cons.mp (h.sent c hc) with rfl | hmem
  · exact List.mem_cons_self
  · exact List.mem_cons_of_mem _ (hmore c hmem)

/-- **Exactly what the handshake accepts**: a chain passes if and only if some path among the
sent certificates is in date at the first second of the leaf, or at the first second that all
of them have in common, and what is recorded is the chain as sent. A chain whose path is in
date when the leaf's validity starts passes whatever other certificates are sent along, and in
whatever order; and so it does at any time in pass 2. -/
theorem firstPass_exactly {pki : Pki Cert Name} (pv : PathVerifier pki) (hown : OwnPath pv)
    (leaf : Cert) (intermediates : List Cert) (name : Name) :
    (∀ chain, firstPass pki leaf intermediates name = .ok chain ↔
      chain = leaf :: intermediates ∧
        ∃ x path, (StartsAt pki leaf x ∨ CommonStart pki (leaf :: intermediates) x) ∧
          PathAt pv leaf intermediates name x path) ∧
    ∀ more, (∀ c ∈ intermediates, c ∈ more) →
      (∀ x path, StartsAt pki leaf x → PathAt pv leaf intermediates name x path →
        firstPass pki leaf more name = .ok (leaf :: more)) ∧
      (∀ t, verifyAt pki (leaf :: intermediates) name t = .ok () →
        verifyAt pki (leaf :: more) name t = .ok ()) := by
  constructor
  · intro chain
    simp only [firstPass_eq_ok, mem_candidates, verifyAt_iff_pathAt pv, exists_and_left]
  · intro more hmore
    constructor
    · intro x path hstart hpath
      refine firstPass_eq_ok.mpr ⟨rfl, x, mem_candidates.mpr (.inl hstart), ?_⟩
      exact (verifyAt_iff_pathAt pv).mpr ⟨path, hpath.more hown hmore⟩
    · intro t ht
      obtain ⟨path, hpath⟩ := (verifyAt_iff_pathAt pv).mp ht
      exact (verifyAt_iff_pathAt pv).mpr ⟨path, hpath.more hown hmore⟩

/-- Certificate `n` is valid for 900 seconds from second `100 * n` on. -/
def datedPki : Pki Nat String where
  validity n := .ok (100 * Int64.ofNat n, 100 * Int64.ofNat n + 900)
  verifyServerCert leaf _ _ x :=
    if (100 * Int64.ofNat leaf).toInt ≤ x ∧ x ≤ (100 * Int64.ofNat leaf + 900).toInt then .ok ()
    else .error "expired"

/-- Every leaf is trusted by itself. -/
def datedPathVerifier : PathVerifier datedPki where
  usable leaf _ _ path := path = [leaf]
  validAt n x := (100 * Int64.ofNat n).toInt ≤ x ∧ x ≤ (100 * Int64.ofNat n + 900).toInt
  accepts_iff leaf intermediates name x := by
    show (if _ then Except.ok () else Except.error "expired") = _ ↔ _
    constructor
    · intro h
      split_ifs at h with hx
      refine ⟨[leaf], List.mem_singleton_self _, fun c hc => ?_, rfl, fun c hc => ?_⟩
      · rw [List.mem_singleton.mp hc]
        exact List.mem_cons_self
      · rw [List.mem_singleton.mp hc]
        exact hx
    · rintro ⟨path, hleaf, -, -, hvalid⟩
      exact if_pos (hvalid leaf hleaf)
  validAt_iff c w x h := by
    cases h
    exact Iff.rfl

/-- A certificate that expired before the leaf was issued is sent along. -/
theorem firstPass_exactly_superseded :
    intersect [(2000, 2900), (300, 1200)] = none ∧
      firstPass datedPki 20 [3] "t" = .ok [20, 3] := by
  have hstart : StartsAt datedPki 20 2000 := ⟨(2000, 2900), by decide +kernel, rfl⟩
  have hpath : PathAt datedPathVerifier 20 [] "t" 2000 [20] :=
    ⟨by decide, by decide, rfl, by decide, fun c hc => by
      rw [List.mem_singleton.mp hc]
      exact ⟨by decide +kernel, by decide +kernel⟩⟩
  have hown : OwnPath datedPathVerifier := fun _ _ _ _ _ h => h
  exact ⟨by decide, ((firstPass_exactly datedPathVerifier hown 20 [] "t").2 [3]
    (List.forall_mem_nil _)).1 2000 [20] hstart hpath⟩

end HostServices.TimeCorrection
