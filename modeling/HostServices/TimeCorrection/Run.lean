import HostServices.TimeCorrection.Choose
import HostServices.TimeCorrection.Deferred

/-!
# A whole run (`time-correction/src/main.rs`)

From accepted options to the one effect that matters: setting the clock. What the
world contributes, the trust store, what every pair's exchange came to, the wall
clock when it is looked at and what `clock_settime` says, is the `Host`. What a run
prints on standard error is left out.

- `askPair`, `collectAnswers`, `agree`, `reasonToStandDown`, `run`: the source's
  functions;
- `collectAnswers_ok`: what it means that no pair failed;
- `clock_set_safely`: every gate in front of `set_clock` was passed;
- `standing_down_sound`: a clock that is left alone is one TLS works with.
-/

namespace HostServices.TimeCorrection

open HostServices.Lib

variable {Cert Name : Type}

/-- How far one pair's exchange got: resolving, establishing keys and asking for
the time failed, or the thread panicked, or a timestamp was obtained with chains
recorded on the way. -/
inductive Exchange (Cert Name : Type)
  | failed (message : String)
  | panicked
  | obtained (seconds : Int64) (pending : List (Pending Cert Name))

/-- Everything a run asks of the outside. `exchange i` belongs to the `i`-th pair;
the wall clock is in nanoseconds since the epoch. -/
structure Host (Cert Name : Type) where
  trustStore : Except String (Pki Cert Name)
  exchange : Nat → Exchange Cert Name
  wallClock : Int
  clockSettime : Int64 → Except String Unit

/-! ## One pair -/

/-- The build-time floor, applied to one provider's own timestamp. -/
def refuseBelowFloor (seconds floor : Int64) : Except String Unit :=
  if seconds < floor then
    .error (s!"refusing {seconds}: earlier than the build-time floor {floor}. Retroactive " ++
      "certificate validation proves a chain was valid at the claimed time, not that the " ++
      "claimed time is now, so a once-valid certificate could otherwise roll this clock " ++
      "backwards")
  else .ok ()

/-- The end of `ask_pair`: the floor first, then pass 2 on every chain. -/
def askPair (pki : Pki Cert Name) (floor : Int64) :
    Exchange Cert Name → Except Stop (Int64 × Option Window)
  | .failed e => .error (.err e)
  | .panicked => .error (.panic "a provider thread panicked")
  | .obtained seconds pending =>
    Except.mapError .err do
      refuseBelowFloor seconds floor
      let verified ← accept pki pending seconds
      .ok (verified.seconds, verified.window)

/-! ## All pairs -/

/-- What the pairs have come to: answers, the windows of their chains, and failures. -/
structure Collected where
  answers : List Answer := []
  windows : List (Option Window) := []
  failures : List String := []

/-- The answer a pair contributes. -/
def answerOf (pair : Resolver × TimeServer) (seconds : Int64) : Answer :=
  { operator := pair.2.operator
    endpoint := s!"{pair.2.hostname} via {pair.1.name}"
    seconds }

/-- One thread joined. -/
def Collected.join (c : Collected)
    (joined : (Resolver × TimeServer) × Except Stop (Int64 × Option Window)) : Collected :=
  match joined with
  | (_, .error (.panic _)) =>
    { c with failures := c.failures ++ ["a provider thread panicked"] }
  | (pair, .ok (seconds, window)) =>
    { c with
      answers := c.answers ++ [answerOf pair seconds]
      windows := c.windows ++ [window] }
  | ((resolver, server), .error (.err e)) =>
    { c with failures := c.failures ++ [s!"{server.name} via {resolver.name}: {e}"] }

/-- `collect_answers`: every pair is asked, and what comes of it is joined in their order. -/
def collectAnswers (o : Options) (host : Host Cert Name)
    (pairs : List (Resolver × TimeServer)) : Collected :=
  match host.trustStore with
  | .error e => { failures := [s!"the trust store could not be loaded: {e}"] }
  | .ok pki =>
    let joined := pairs.zipIdx.map fun p => (p.1, askPair pki o.floor (host.exchange p.2))
    joined.foldl Collected.join {}

/-- The span over which every chain gathered this run is valid at once. -/
def commonWindow (windows : List (Option Window)) : Option Window :=
  if windows = [] ∨ windows.any Option.isNone then none
  else intersect (windows.filterMap id)

/-! ## The clock as it is -/

/-- Whether the clock is far enough wrong to be worth stepping. -/
def needsSetting (now : Int64) : Option Window → Bool
  | some (notBefore, notAfter) => now < notBefore || notAfter < now
  | none => true

/-- An instant as signed Unix seconds, rounded towards the epoch. -/
def epochSeconds (instant : Int) : Except String Int64 :=
  if 0 ≤ instant then
    let seconds := instant.toNat / 1000000000
    if seconds < 2 ^ 63 then .ok (Int64.ofNat seconds)
    else .error "the clock is further ahead than a signed epoch can hold"
  else
    let seconds := (-instant).toNat / 1000000000
    if seconds < 2 ^ 63 then .ok (-Int64.ofNat seconds)
    else .error "the clock is further behind than a signed epoch can hold"

/-- Why the clock should be left as it is, or `none` if it should be stepped. -/
def reasonToStandDown (o : Options) (wallClock : Int) (window : Option Window) :
    Except Stop (Option String) :=
  if o.force then .ok none
  else
    match epochSeconds wallClock with
    | .error e => .error (.err e)
    | .ok now =>
      if needsSetting now window then .ok none
      else
        match window with
        | none => .error (.panic "needs_setting is true when there is no window")
        | some (notBefore, notAfter) =>
          .ok (some (s!"{now} is already inside the certificates' validity " ++
            s!"({notBefore}..{notAfter}), so TLS works and chrony can correct the rest"))

/-! ## The run -/

/-- What a run does to the world. -/
inductive Effect
  | println (line : String)
  | setClock (seconds : Int64)
  deriving DecidableEq, Repr

/-- The first half of `run`: the agreed time, and the window of what vouches for
it. Any failure ends the run before the quorum is asked. -/
def agree (o : Options) (seed : UInt64) (host : Host Cert Name) :
    Except Stop (Int64 × Option Window) := do
  let pairs ← choose o seed
  let sampled := pairs.map (·.2.operator)
  let collected := collectAnswers o host pairs
  if collected.failures ≠ [] then
    let failures := "; ".intercalate collected.failures
    .error (.err (s!"{collected.failures.length} of {pairs.length} provider pairs failed: " ++
      failures))
  else
    let seconds ← Quorum.decide sampled collected.answers o.tolerance
    .ok (seconds, commonWindow collected.windows)

/-- What a run does, and how it ends. -/
def run (o : Options) (seed : UInt64) (host : Host Cert Name) :
    List Effect × Except Stop Unit :=
  match agree o seed host with
  | .error e => ([], .error e)
  | .ok (seconds, window) =>
    match reasonToStandDown o host.wallClock window with
    | .error e => ([], .error e)
    | .ok reason =>
      if o.dryRun then
        match reason with
        | some reason => ([.println s!"would leave the clock alone: {reason}"], .ok ())
        | none => ([.println s!"would set the clock to {seconds}"], .ok ())
      else
        match reason with
        | some reason => ([.println s!"leaving the clock alone: {reason}"], .ok ())
        | none =>
          match host.clockSettime seconds with
          | .error e => ([.setClock seconds], .error (.err s!"cannot set the clock: {e}"))
          | .ok () => ([.setClock seconds, .println s!"clock set to {seconds}"], .ok ())

/-! ## What it means that no pair failed -/

/-- A pair's time that is accepted was obtained, and is vouched for. -/
theorem askPair_ok {pki : Pki Cert Name} {floor : Int64} {x : Exchange Cert Name}
    {seconds : Int64} {window : Option Window}
    (h : askPair pki floor x = .ok (seconds, window)) :
    ∃ pending, x = .obtained seconds pending ∧ floor ≤ seconds ∧
      Vouched pki pending seconds ⟨seconds, window⟩ := by
  cases x with
  | failed e => cases h
  | panicked => cases h
  | obtained s pending =>
    obtain ⟨u, hfloor, h⟩ := bind_eq_ok.mp (mapError_eq_ok.mp h)
    obtain ⟨v, haccept, h⟩ := bind_eq_ok.mp h
    cases h
    have hv := accept_ok haccept
    obtain rfl := hv.seconds_eq
    refine ⟨pending, rfl, ?_, hv⟩
    unfold refuseBelowFloor at hfloor
    split_ifs at hfloor with hlt
    exact le_of_not_gt hlt

/-- The threads joined so far failed nowhere: each had an answer and a window. -/
theorem foldl_join_ok
    {joined : List ((Resolver × TimeServer) × Except Stop (Int64 × Option Window))}
    {c : Collected} (h : (joined.foldl Collected.join c).failures = []) :
    c.failures = [] ∧ ∃ results, joined.map (·.2) = results.map .ok ∧
      (joined.foldl Collected.join c).answers
        = c.answers ++ List.zipWith (fun j r => answerOf j.1 r.1) joined results ∧
      (joined.foldl Collected.join c).windows = c.windows ++ results.map (·.2) := by
  induction joined generalizing c with
  | nil => exact ⟨h, [], rfl, (List.append_nil _).symm, (List.append_nil _).symm⟩
  | cons j joined ih =>
    obtain ⟨hc, results, hresults, hanswers, hwindows⟩ := ih h
    obtain ⟨pair, _ | ⟨seconds, window⟩⟩ := j
    · rename_i e
      cases e <;> exact absurd hc (List.append_ne_nil_of_right_ne_nil _ (by simp))
    · refine ⟨hc, (seconds, window) :: results, ?_, ?_, ?_⟩
      · rw [List.map_cons, hresults]
        rfl
      · rw [List.foldl_cons, hanswers]
        simp [Collected.join]
      · rw [List.foldl_cons, hwindows]
        simp [Collected.join]

/-- What the `i`-th pair contributed to what was collected: its exchange obtained
`seconds` with `pending` recorded, no earlier than the floor and vouched for by
every recorded chain. -/
structure Contributed (pki : Pki Cert Name) (o : Options) (host : Host Cert Name)
    (c : Collected) (i : Nat) (pair : Resolver × TimeServer) (seconds : Int64)
    (pending : List (Pending Cert Name)) (window : Option Window) : Prop where
  obtained : host.exchange i = .obtained seconds pending
  answer_eq : c.answers[i]? = some (answerOf pair seconds)
  window_eq : c.windows[i]? = some window
  floor_le : o.floor ≤ seconds
  vouched : Vouched pki pending seconds ⟨seconds, window⟩

/-- **No failure means every gate of every pair was passed**: each pair has exactly
one answer and one window, in order. -/
theorem collectAnswers_ok {o : Options} {host : Host Cert Name}
    {pairs : List (Resolver × TimeServer)}
    (h : (collectAnswers o host pairs).failures = []) :
    ∃ pki, host.trustStore = .ok pki ∧
      (collectAnswers o host pairs).answers.length = pairs.length ∧
      (collectAnswers o host pairs).windows.length = pairs.length ∧
      ∀ i pair, pairs[i]? = some pair → ∃ seconds pending window,
        Contributed pki o host (collectAnswers o host pairs) i pair seconds pending window := by
  unfold collectAnswers at h ⊢
  cases htrust : host.trustStore with
  | error e => rw [htrust] at h; cases h
  | ok pki =>
    rw [htrust] at h
    dsimp only at h ⊢
    obtain ⟨-, results, hresults, hanswers, hwindows⟩ := foldl_join_ok h
    have hlen : results.length = pairs.length := by
      have := congrArg List.length hresults
      simpa using this.symm
    refine ⟨pki, rfl, by simp [hanswers, hlen], by simp [hwindows, hlen], ?_⟩
    intro i pair hpair
    have hi : i < pairs.length := (List.getElem?_eq_some_iff.mp hpair).1
    obtain ⟨⟨seconds, window⟩, hresult⟩ : ∃ r, results[i]? = some r :=
      ⟨results[i], List.getElem?_eq_getElem (hlen ▸ hi)⟩
    have hask : askPair pki o.floor (host.exchange i) = .ok (seconds, window) := by
      have := congrArg (·[i]?) hresults
      simpa [List.getElem?_zipIdx, hpair, hresult] using this
    obtain ⟨pending, hobtained, hfloor, hvouched⟩ := askPair_ok hask
    refine ⟨seconds, pending, window, hobtained, ?_, ?_, hfloor, hvouched⟩
    · rw [hanswers]
      simp [List.getElem?_zipWith, List.getElem?_zipIdx, hpair, hresult]
    · rw [hwindows]
      simp [hresult]

/-! ## Setting the clock -/

/-- What is agreed on was decided by the answers of all of the pairs. -/
theorem agree_ok {o : Options} {seed : UInt64} {host : Host Cert Name} {t : Int64}
    {window : Option Window} (h : agree o seed host = .ok (t, window)) :
    ∃ pairs, choose o seed = .ok pairs ∧
      (collectAnswers o host pairs).failures = [] ∧
      Quorum.decide (pairs.map (·.2.operator)) (collectAnswers o host pairs).answers
        o.tolerance = .ok t ∧
      window = commonWindow (collectAnswers o host pairs).windows := by
  obtain ⟨pairs, hpairs, h⟩ := bind_eq_ok.mp h
  dsimp only at h
  split_ifs at h with hfailed
  obtain ⟨seconds, hdecide, h⟩ := bind_eq_ok.mp h
  cases h
  exact ⟨pairs, hpairs, not_not.mp hfailed, hdecide, rfl⟩

/-- The only way to `set_clock`: a time agreed on, no reason to stand down, and no
`--dry-run`. -/
theorem run_setClock {o : Options} {seed : UInt64} {host : Host Cert Name} {t : Int64}
    (h : .setClock t ∈ (run o seed host).1) :
    ∃ window, agree o seed host = .ok (t, window) ∧
      reasonToStandDown o host.wallClock window = .ok none ∧ o.dryRun = false := by
  unfold run at h
  cases hagree : agree o seed host with
  | error e => rw [hagree] at h; cases h
  | ok agreed =>
    obtain ⟨seconds, window⟩ := agreed
    rw [hagree] at h
    dsimp only at h
    cases hreason : reasonToStandDown o host.wallClock window with
    | error e => rw [hreason] at h; cases h
    | ok reason =>
      rw [hreason] at h
      dsimp only at h
      split_ifs at h with hdry
      · cases reason <;> simp at h
      · cases reason with
        | some r => simp at h
        | none =>
          have ht : t = seconds := by
            dsimp only at h
            split at h <;> simpa using h
          subst ht
          exact ⟨window, rfl, hreason, Bool.eq_false_iff.mpr hdry⟩

/-- The clock needs setting unless it is within the window. -/
theorem needsSetting_iff {now : Int64} {window : Option Window} :
    needsSetting now window = true ↔
      window = none ∨ ∃ w, window = some w ∧ ¬ InWindow now w := by
  cases window with
  | none => simp [needsSetting]
  | some w =>
    simp only [needsSetting, InWindow, Bool.or_eq_true, decide_eq_true_eq, reduceCtorEq,
      Option.some.injEq, false_or, exists_eq_left', not_and_or, not_le]

/-- When the clock is read, and what is decided by it. -/
theorem reasonToStandDown_ok {o : Options} {wallClock : Int} {window : Option Window}
    {decision : Option String} (h : reasonToStandDown o wallClock window = .ok decision) :
    (o.force = true ∧ decision = none) ∨
      ∃ now, epochSeconds wallClock = .ok now ∧ (decision = none ↔ needsSetting now window) := by
  unfold reasonToStandDown at h
  split_ifs at h with hforce
  · cases h
    exact .inl ⟨hforce, rfl⟩
  · refine .inr ?_
    cases hnow : epochSeconds wallClock with
    | error e =>
      rw [hnow] at h
      cases h
    | ok now =>
      rw [hnow] at h
      dsimp only at h
      refine ⟨now, rfl, ?_⟩
      split_ifs at h with hneeds
      · cases h
        exact iff_of_true rfl hneeds
      · refine iff_of_false ?_ hneeds
        rintro rfl
        cases window <;> cases h

theorem reasonToStandDown_eq_none {o : Options} {wallClock : Int} {window : Option Window}
    (h : reasonToStandDown o wallClock window = .ok none) :
    o.force = true ∨ ∃ now, epochSeconds wallClock = .ok now ∧
      (window = none ∨ ∃ w, window = some w ∧ ¬ InWindow now w) := by
  rcases reasonToStandDown_ok h with ⟨hforce, -⟩ | ⟨now, hnow, hneeds⟩
  · exact .inl hforce
  · exact .inr ⟨now, hnow, needsSetting_iff.mp (hneeds.mp rfl)⟩

/-- The answers are those of the sampled operators, in order. -/
theorem map_operator_answers {o : Options} {host : Host Cert Name}
    {pairs : List (Resolver × TimeServer)}
    (h : (collectAnswers o host pairs).failures = []) :
    (collectAnswers o host pairs).answers.map (·.operator) = pairs.map (·.2.operator) := by
  obtain ⟨pki, -, hlen, -, hall⟩ := collectAnswers_ok h
  refine List.ext_getElem? fun i => ?_
  cases hpair : pairs[i]? with
  | none =>
    have hi := List.getElem?_eq_none_iff.mp hpair
    rw [List.getElem?_eq_none (by simpa [hlen] using hi),
      List.getElem?_eq_none (by simpa using hi)]
  | some pair =>
    obtain ⟨seconds, pending, window, hc⟩ := hall i pair hpair
    rw [List.getElem?_map, List.getElem?_map, hc.answer_eq, hpair]
    rfl

/-- Every answer is some pair's contribution. -/
theorem exists_contributed {pki : Pki Cert Name} {o : Options} {host : Host Cert Name}
    {pairs : List (Resolver × TimeServer)} (htrust : host.trustStore = .ok pki)
    (h : (collectAnswers o host pairs).failures = []) {a : Answer}
    (ha : a ∈ (collectAnswers o host pairs).answers) :
    ∃ i pair pending window, pairs[i]? = some pair ∧
      Contributed pki o host (collectAnswers o host pairs) i pair a.seconds pending window := by
  obtain ⟨pki', htrust', hlen, -, hall⟩ := collectAnswers_ok h
  rw [htrust] at htrust'
  cases htrust'
  obtain ⟨i, hi⟩ := List.mem_iff_getElem?.mp ha
  have hlt : i < pairs.length := hlen ▸ (List.getElem?_eq_some_iff.mp hi).1
  obtain ⟨seconds, pending, window, hc⟩ := hall i pairs[i] (List.getElem?_eq_getElem hlt)
  have hsec : seconds = a.seconds := by
    have heq := hc.answer_eq
    rw [hi] at heq
    cases heq
    rfl
  exact ⟨i, pairs[i], pending, window, List.getElem?_eq_getElem hlt, hsec ▸ hc⟩

/-- What was contributed is not from before the epoch: pass 2 refuses such an
instant, and there was a chain to refuse it for. -/
theorem Contributed.nonneg {pki : Pki Cert Name} {o : Options} {host : Host Cert Name}
    {c : Collected} {i : Nat} {pair : Resolver × TimeServer} {seconds : Int64}
    {pending : List (Pending Cert Name)} {window : Option Window}
    (h : Contributed pki o host c i pair seconds pending window) : 0 ≤ seconds := by
  obtain ⟨p, hp⟩ := List.exists_mem_of_ne_nil _ h.vouched.recorded
  exact nonneg_of_verifyAt (h.vouched.verified p hp)

/-- **Safety of setting the clock**: if a run reaches `set_clock(t)`, then no pair
failed and every pair contributed exactly one answer, no earlier than the floor and
verified against a non-empty list of recorded chains; `t` is one of the answers, and
all of them are within the tolerance of it when the operators are distinct; and
`--force` was given, or there is no common window, or the wall clock is outside it. -/
theorem clock_set_safely {o : Options} {seed : UInt64} {host : Host Cert Name} {t : Int64}
    (h : .setClock t ∈ (run o seed host).1) :
    ∃ pki pairs, host.trustStore = .ok pki ∧ choose o seed = .ok pairs ∧
      (collectAnswers o host pairs).failures = [] ∧
      (collectAnswers o host pairs).answers.length = pairs.length ∧
      (∀ i pair, pairs[i]? = some pair → ∃ seconds pending window,
        Contributed pki o host (collectAnswers o host pairs) i pair seconds pending window ∧
        ((pairs.map (·.2.operator)).Nodup →
          |seconds.toInt - t.toInt| ≤ o.tolerance.toInt)) ∧
      (∃ i pair pending window, pairs[i]? = some pair ∧
        Contributed pki o host (collectAnswers o host pairs) i pair t pending window) ∧
      (o.force = true ∨ commonWindow (collectAnswers o host pairs).windows = none ∨
        ∃ now w, epochSeconds host.wallClock = .ok now ∧
          commonWindow (collectAnswers o host pairs).windows = some w ∧ ¬ InWindow now w) := by
  obtain ⟨window, hagree, hreason, -⟩ := run_setClock h
  obtain ⟨pairs, hpairs, hfail, hdecide, rfl⟩ := agree_ok hagree
  obtain ⟨pki, htrust, hlen, -, hall⟩ := collectAnswers_ok hfail
  refine ⟨pki, pairs, htrust, hpairs, hfail, hlen, ?_, ?_, ?_⟩
  · intro i pair hpair
    obtain ⟨seconds, pending, w, hc⟩ := hall i pair hpair
    refine ⟨seconds, pending, w, hc, fun hnodup => ?_⟩
    rw [← map_operator_answers hfail] at hnodup hdecide
    have hnonneg : ∀ a ∈ (collectAnswers o host pairs).answers, 0 ≤ a.seconds := by
      intro a ha
      obtain ⟨_, _, _, _, -, hca⟩ := exists_contributed htrust hfail ha
      exact hca.nonneg
    exact Quorum.dist_le_of_decide hnodup hnonneg hdecide (answerOf pair seconds)
      (List.mem_of_getElem? hc.answer_eq)
  · obtain ⟨a, ha, rfl⟩ := Quorum.exists_answer_of_decide hdecide
    exact exists_contributed htrust hfail ha
  · rcases reasonToStandDown_eq_none hreason with hforce | ⟨now, hnow, hnone | ⟨w, hw, hout⟩⟩
    · exact .inl hforce
    · exact .inr (.inl hnone)
    · exact .inr (.inr ⟨now, w, hnow, hw, hout⟩)

/-- Certificates that are all valid from second 1000 to second 2000. -/
def samplePki : Pki Nat String where
  validity _ := .ok (1000, 2000)
  verifyServerCert _ _ _ x := if 1000 ≤ x ∧ x ≤ 2000 then .ok () else .error "expired"

/-- Both pairs answer, ten seconds apart, and the wall clock stands where it is put. -/
def sampleHost (wallClock : Int) : Host Nat String where
  trustStore := .ok samplePki
  exchange i := .obtained (1500 + 10 * Int64.ofNat i)
    [⟨"DoH", [1, 2], "dns"⟩, ⟨"NTS-KE", [3], "t"⟩]
  wallClock := wallClock
  clockSettime _ := .ok ()

theorem clock_set_safely_sampled :
    .setClock 1510 ∈ (run sampleOptions 7 (sampleHost 0)).1 ∧
      ∃ pairs, choose sampleOptions 7 = .ok pairs ∧
        (collectAnswers sampleOptions (sampleHost 0) pairs).failures = [] ∧
        (collectAnswers sampleOptions (sampleHost 0) pairs).answers.length = pairs.length := by
  have hset : .setClock 1510 ∈ (run sampleOptions 7 (sampleHost 0)).1 := by decide +kernel
  obtain ⟨_, pairs, -, hpairs, hfail, hlen, -⟩ := clock_set_safely hset
  exact ⟨hset, pairs, hpairs, hfail, hlen⟩

/-! ## Standing down -/

theorem reasonToStandDown_eq_some {o : Options} {wallClock : Int} {window : Option Window}
    {reason : String} (h : reasonToStandDown o wallClock window = .ok (some reason)) :
    ∃ now w, epochSeconds wallClock = .ok now ∧ window = some w ∧ InWindow now w := by
  rcases reasonToStandDown_ok h with ⟨-, hnone⟩ | ⟨now, hnow, hneeds⟩
  · cases hnone
  · have hinside : ¬ needsSetting now window := fun hset => nomatch hneeds.mpr hset
    rw [needsSetting_iff, not_or] at hinside
    obtain ⟨w, hw⟩ := Option.ne_none_iff_exists'.mp hinside.1
    refine ⟨now, w, hnow, hw, ?_⟩
    by_contra hout
    exact hinside.2 ⟨w, hw, hout⟩

/-- A second is in the common window just if it is in all of them. -/
theorem commonWindow_spec {windows : List (Option Window)} {w : Window}
    (h : commonWindow windows = some w) :
    none ∉ windows ∧ ∀ x, InWindow x w ↔ ∀ v, some v ∈ windows → InWindow x v := by
  unfold commonWindow at h
  split_ifs at h with hunknown
  refine ⟨?_, intersect_known h⟩
  intro hmem
  exact hunknown (.inr (any_isNone_iff.mpr hmem))

/-- **Standing down is sound**: with a verifier that builds a path, a run in which
no pair failed and that finds a reason to leave the clock alone at an instant after
the epoch is one in which every chain that any pair recorded verifies at that
instant. -/
theorem standing_down_sound {o : Options} {host : Host Cert Name} {pki : Pki Cert Name}
    {pairs : List (Resolver × TimeServer)} (htrust : host.trustStore = .ok pki)
    (pv : PathVerifier pki) (hfail : (collectAnswers o host pairs).failures = [])
    {reason : String} (hreason : reasonToStandDown o host.wallClock
      (commonWindow (collectAnswers o host pairs).windows) = .ok (some reason))
    {now : Int64} (hclock : epochSeconds host.wallClock = .ok now) (hnow : 0 ≤ now) :
    ∀ i < pairs.length, ∃ seconds pending, host.exchange i = .obtained seconds pending ∧
      ∀ p ∈ pending, verifyAt pki p.chain p.serverName now = .ok () := by
  intro i hi
  obtain ⟨pki', htrust', -, -, hall⟩ := collectAnswers_ok hfail
  rw [htrust] at htrust'
  cases htrust'
  obtain ⟨seconds, pending, window, hc⟩ := hall i pairs[i] (List.getElem?_eq_getElem hi)
  refine ⟨seconds, pending, hc.obtained, fun p hp => ?_⟩
  obtain ⟨now', w, hclock', hcommon, hin⟩ := reasonToStandDown_eq_some hreason
  rw [hclock] at hclock'
  cases hclock'
  obtain ⟨hknown, hspec⟩ := commonWindow_spec hcommon
  have hmem := List.mem_of_getElem? hc.window_eq
  -- from the common window to the pair's, and from there to the chain's
  cases window with
  | none => exact absurd hmem hknown
  | some own =>
    obtain ⟨leaf, intermediates, cw, hchain, hwindow, hsub⟩ := hc.vouched.window own rfl p hp
    have hverified := hc.vouched.verified p hp
    rw [hchain] at hverified ⊢
    exact verifyAt_of_inWindow pv hverified hwindow hnow
      (hsub now ((hspec now).mp hin own hmem))

/-- The sample verifier takes any path whose certificates are in date. -/
def samplePathVerifier : PathVerifier samplePki where
  usable _ _ _ _ := True
  validAt _ x := 1000 ≤ x ∧ x ≤ 2000
  accepts_iff leaf intermediates name x := by
    show (if 1000 ≤ x ∧ x ≤ 2000 then Except.ok () else .error "expired") = _ ↔ _
    constructor
    · intro h
      split_ifs at h with hx
      refine ⟨[leaf], List.mem_singleton_self _, fun c hc => ?_, trivial, fun _ _ => hx⟩
      rw [List.mem_singleton.mp hc]
      exact List.mem_cons_self
    · rintro ⟨path, hleaf, -, -, hvalid⟩
      exact if_pos (hvalid leaf hleaf)
  validAt_iff c w x h := by
    cases h
    show _ ↔ (1000 : Int) ≤ x ∧ (x : Int) ≤ 2000
    omega

/-- The pairs whose chains the sample host records. -/
def samplePairs : List (Resolver × TimeServer) :=
  [(⟨"r1", "dns1", []⟩, ⟨"a1", "t1", "opA"⟩), (⟨"r2", "dns2", []⟩, ⟨"b", "t3", "opB"⟩)]

theorem standing_down_sound_sampled :
    epochSeconds (sampleHost 1505000000000).wallClock = .ok 1505 ∧
      ∀ i < 2, ∃ seconds pending,
        (sampleHost 1505000000000).exchange i = .obtained seconds pending ∧
          ∀ p ∈ pending, verifyAt samplePki p.chain p.serverName 1505 = .ok () := by
  let host := sampleHost 1505000000000
  have hfail : (collectAnswers sampleOptions host samplePairs).failures = [] := by
    decide +kernel
  have hwindow : commonWindow (collectAnswers sampleOptions host samplePairs).windows
      = some (1000, 2000) := by
    decide +kernel
  have hclock : epochSeconds host.wallClock = .ok 1505 := by decide +kernel
  obtain ⟨reason, hreason⟩ : ∃ reason, reasonToStandDown sampleOptions host.wallClock
      (commonWindow (collectAnswers sampleOptions host samplePairs).windows)
        = .ok (some reason) := by
    rw [hwindow, reasonToStandDown, if_neg (by decide), hclock]
    exact ⟨_, if_neg (by decide)⟩
  exact ⟨hclock, standing_down_sound rfl samplePathVerifier hfail hreason hclock (by decide)⟩

end HostServices.TimeCorrection
