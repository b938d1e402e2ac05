import HostServices.TimeCorrection.Run

/-!
# The window of an accepted time (`verify.rs`, `deferred.rs`, `main.rs`)

The certificates that decide whether the clock is good enough have to be among those
the second pass looked at. `accept` cannot know which path was built; it keeps the
certificates that were valid at the instant the chains verified at.

- `LeafChecked`: what is assumed of the verifier, that a chain is accepted at an instant
  only if its leaf is in date then;
- `Unreadable`, `CheckedAt`: the recorded certificates, and what those that could have
  been checked ask of an instant;
- `accept_window`: the window is unknown exactly if a certificate cannot be read, and
  holds exactly the instants `CheckedAt` allows otherwise;
- `window_exactly_checked`: all of it, with what follows for a clock that is right.
-/

namespace HostServices.TimeCorrection

open HostServices.Lib

variable {Cert Name : Type}

/-- A verifier that accepts a chain at an instant only if its leaf is in date then. -/
structure LeafChecked (pki : Pki Cert Name) : Prop where
  leaf_in_date : ∀ leaf intermediates name x w,
    pki.verifyServerCert leaf intermediates name x = .ok () → pki.validity leaf = .ok w →
      w.1.toInt ≤ x ∧ x ≤ w.2.toInt

/-- The validity of the certificate cannot be read. -/
def Unreadable (pki : Pki Cert Name) (c : Cert) : Prop := ∀ w, pki.validity c ≠ .ok w

/-- The instant `x` lies in the validity of every certificate recorded in the chains
whose own validity contains `seconds`. -/
def CheckedAt (pki : Pki Cert Name) (pending : List (Pending Cert Name)) (seconds x : Int64) :
    Prop :=
  ∀ p ∈ pending, ∀ c ∈ p.chain, ∀ w, pki.validity c = .ok w → InWindow seconds w →
    InWindow x w

/-! ## Windows as sets of instants -/

/-- Windows with a second in common intersect. -/
theorem intersect_of_forall {windows : List Window} {x : Int64}
    (h : ∀ w ∈ windows, InWindow x w) : ∃ w, intersect windows = some w := by
  have hstart : windows.foldl (fun start w => max start w.1) Int64.minValue ≤ x :=
    foldl_max_le.mpr ⟨Int64.minValue_le x, fun w hw => (h w hw).1⟩
  have hstop : x ≤ windows.foldl (fun stop w => min stop w.2) Int64.maxValue :=
    le_foldl_min.mpr ⟨Int64.le_maxValue x, fun w hw => (h w hw).2⟩
  exact ⟨_, if_pos (hstart.trans hstop)⟩

/-- Two windows that are not empty and hold the same instants are the same. -/
theorem window_ext {w w' : Window} {x : Int64} (hx : InWindow x w)
    (h : ∀ y, InWindow y w ↔ InWindow y w') : w = w' := by
  have hw : w.1 ≤ w.2 := hx.1.trans hx.2
  have hx' := (h x).mp hx
  have hw' : w'.1 ≤ w'.2 := hx'.1.trans hx'.2
  have h₁ := (h w.1).mp ⟨le_refl _, hw⟩
  have h₂ := (h w.2).mp ⟨hw, le_refl _⟩
  have h₃ := (h w'.1).mpr ⟨le_refl _, hw'⟩
  have h₄ := (h w'.2).mpr ⟨hw', le_refl _⟩
  exact Prod.ext (le_antisymm h₃.1 h₁.1) (le_antisymm h₂.2 h₄.2)

/-- The windows of a chain are those of its certificates. -/
theorem mem_chainWindows {pki : Pki Cert Name} {leaf : Cert} {intermediates : List Cert}
    {w : Window} :
    some w ∈ chainWindows pki leaf intermediates ↔
      ∃ c ∈ leaf :: intermediates, pki.validity c = .ok w := by
  unfold chainWindows
  rw [List.mem_map]
  constructor
  · rintro ⟨c, hc, hw⟩
    refine ⟨c, hc, ?_⟩
    unfold windowOf at hw
    cases hval : pki.validity c with
    | error e =>
      rw [hval] at hw
      cases hw
    | ok w' =>
      rw [hval] at hw
      cases hw
      rfl
  · rintro ⟨c, hc, hw⟩
    refine ⟨c, hc, ?_⟩
    rw [windowOf, hw]
    rfl

/-- A window is missing just if a certificate cannot be read. -/
theorem none_mem_chainWindows {pki : Pki Cert Name} {leaf : Cert} {intermediates : List Cert} :
    none ∈ chainWindows pki leaf intermediates ↔
      ∃ c ∈ leaf :: intermediates, Unreadable pki c := by
  unfold chainWindows
  rw [List.mem_map]
  constructor
  · rintro ⟨c, hc, hnone⟩
    refine ⟨c, hc, ?_⟩
    intro w hw
    rw [windowOf, hw] at hnone
    cases hnone
  · rintro ⟨c, hc, hunreadable⟩
    refine ⟨c, hc, ?_⟩
    unfold windowOf
    cases hval : pki.validity c with
    | error e => rfl
    | ok w => exact absurd hval (hunreadable w)

/-! ## One chain -/

/-- The window of a chain that verified is unknown exactly if one of its certificates
cannot be read: the leaf is among those that are kept. -/
theorem verifiedWindow_eq_none {pki : Pki Cert Name} {leaf : Cert} {intermediates : List Cert}
    {seconds : Int64} (hleaf : ∀ w, pki.validity leaf = .ok w → InWindow seconds w) :
    verifiedWindow (chainWindows pki leaf intermediates) seconds = none ↔
      ∃ c ∈ leaf :: intermediates, Unreadable pki c := by
  rw [← none_mem_chainWindows]
  constructor
  · intro h
    by_contra hknown
    have hany : ¬ (chainWindows pki leaf intermediates = [] ∨
        (chainWindows pki leaf intermediates).any Option.isNone = true) := by
      rw [not_or, any_isNone_iff]
      exact ⟨List.cons_ne_nil _ _, hknown⟩
    obtain ⟨w, hw, hmem⟩ := validity_of_mem hknown List.mem_cons_self
    have hused : w ∈ ((chainWindows pki leaf intermediates).filterMap id).filter
        fun w => InWindow seconds w :=
      List.mem_filter.mpr ⟨List.mem_filterMap.mpr ⟨some w, hmem, rfl⟩,
        decide_eq_true (hleaf w hw)⟩
    have hsome : ∃ w, intersect (((chainWindows pki leaf intermediates).filterMap id).filter
        fun w => InWindow seconds w) = some w := by
      apply intersect_of_forall (x := seconds)
      intro v hv
      exact of_decide_eq_true (List.mem_filter.mp hv).2
    obtain ⟨w', hw'⟩ := hsome
    rw [verifiedWindow, if_neg hany] at h
    dsimp only at h
    rw [if_neg (List.ne_nil_of_mem hused), hw'] at h
    cases h
  · intro hmem
    rw [verifiedWindow, if_pos (.inr (any_isNone_iff.mpr hmem))]

/-- What is known of a chain that was accepted. -/
theorem acceptChain_of_verifyAt {pki : Pki Cert Name} (hpki : LeafChecked pki)
    {seconds : Int64} {p : Pending Cert Name}
    (h : verifyAt pki p.chain p.serverName seconds = .ok ()) :
    ∃ window, acceptChain pki seconds p = .ok window ∧
      (window = none ↔ ∃ c ∈ p.chain, Unreadable pki c) ∧
      ∀ w, window = some w → ∀ x, InWindow x w ↔
        ∀ c ∈ p.chain, ∀ u, pki.validity c = .ok u → InWindow seconds u → InWindow x u := by
  cases hchain : p.chain with
  | nil =>
    rw [hchain] at h
    cases h
  | cons leaf intermediates =>
    rw [hchain] at h
    obtain ⟨hnonneg, hverified⟩ := verifyAt_ok_iff.mp h
    have hnonneg' : 0 ≤ seconds.toInt := Int64.le_iff_toInt_le.mp hnonneg
    have hleaf : ∀ w, pki.validity leaf = .ok w → InWindow seconds w := by
      intro w hw
      have hdates := hpki.leaf_in_date _ _ _ _ w hverified hw
      rw [Int.toNat_of_nonneg hnonneg'] at hdates
      exact ⟨Int64.le_iff_toInt_le.mpr hdates.1, Int64.le_iff_toInt_le.mpr hdates.2⟩
    refine ⟨verifiedWindow (chainWindows pki leaf intermediates) seconds, ?_,
      verifiedWindow_eq_none hleaf, ?_⟩
    · rw [acceptChain, hchain, h]
    · intro w hw x
      rw [(verifiedWindow_spec hw).2 x]
      constructor
      · intro hall c hc u hu
        exact hall u (mem_chainWindows.mpr ⟨c, hc, hu⟩)
      · intro hall u hu
        obtain ⟨c, hc, hval⟩ := mem_chainWindows.mp hu
        exact hall c hc u hval

/-- The window of a chain that is accepted. -/
theorem window_of_acceptChain {pki : Pki Cert Name} (hpki : LeafChecked pki)
    {seconds : Int64} {p : Pending Cert Name} {window : Option Window}
    (hverified : verifyAt pki p.chain p.serverName seconds = .ok ())
    (h : acceptChain pki seconds p = .ok window) :
    (window = none ↔ ∃ c ∈ p.chain, Unreadable pki c) ∧
      ∀ w, window = some w → ∀ x, InWindow x w ↔
        ∀ c ∈ p.chain, ∀ u, pki.validity c = .ok u → InWindow seconds u → InWindow x u := by
  obtain ⟨window', hwindow', hknown⟩ := acceptChain_of_verifyAt hpki hverified
  rw [h] at hwindow'
  cases hwindow'
  exact hknown

/-! ## All chains -/

/-- **The window of an accepted time**: unknown exactly if a recorded certificate cannot
be read, and otherwise the instants at which every certificate that could have been
checked is valid. -/
theorem accept_window {pki : Pki Cert Name} (hpki : LeafChecked pki)
    {pending : List (Pending Cert Name)} {seconds : Int64} (hne : pending ≠ [])
    (hall : ∀ p ∈ pending, verifyAt pki p.chain p.serverName seconds = .ok ()) :
    ∃ v, accept pki pending seconds = .ok v ∧ v.seconds = seconds ∧
      (v.window = none ↔ ∃ p ∈ pending, ∃ c ∈ p.chain, Unreadable pki c) ∧
      ∀ w, v.window = some w → InWindow seconds w ∧
        ∀ x, InWindow x w ↔ CheckedAt pki pending seconds x := by
  obtain ⟨windows, hwindows⟩ := exists_mapM fun p hp =>
    let ⟨window, hwindow, _⟩ := acceptChain_of_verifyAt hpki (hall p hp)
    ⟨window, hwindow⟩
  have hrel := mapM_eq_ok.mp hwindows
  -- what is known of the window of each chain
  have hown := fun p hp (window : Option Window) (h : acceptChain pki seconds p = .ok window) =>
    window_of_acceptChain hpki (hall p hp) h
  have hunknown : none ∈ windows ↔ ∃ p ∈ pending, ∃ c ∈ p.chain, Unreadable pki c := by
    constructor
    · intro hmem
      obtain ⟨p, hp, hchain⟩ := exists_mem_of_forall₂ hrel.flip hmem
      exact ⟨p, hp, (hown p hp none hchain).1.mp rfl⟩
    · rintro ⟨p, hp, hc⟩
      obtain ⟨window, hmem, hchain⟩ := exists_mem_of_forall₂ hrel hp
      rwa [(hown p hp window hchain).1.mpr hc] at hmem
  have hseconds : ∀ w ∈ windows.filterMap id, InWindow seconds w := by
    intro w hw
    obtain ⟨window, hmem, rfl⟩ := List.mem_filterMap.mp hw
    obtain ⟨p, hp, hchain⟩ := exists_mem_of_forall₂ hrel.flip hmem
    exact ((hown p hp _ hchain).2 w rfl seconds).mpr fun _ _ _ _ hin => hin
  obtain ⟨common, hcommon⟩ := intersect_of_forall hseconds
  refine ⟨{ seconds, window := if windows.any Option.isNone then none
      else intersect (windows.filterMap id) }, ?_, rfl, ?_, ?_⟩
  · rw [accept, if_neg (by simpa using hne)]
    exact bind_eq_ok.mpr ⟨windows, hwindows, rfl⟩
  · rw [← hunknown, ← any_isNone_iff]
    dsimp only
    split_ifs with hany
    · simp [hany]
    · rw [hcommon]
      simp [hany]
  · intro w hw
    dsimp only at hw
    split_ifs at hw with hany
    have hspec := intersect_known hw
    refine ⟨(intersect_spec hw seconds).mpr hseconds, ?_⟩
    intro x
    rw [hspec x]
    constructor
    · intro hin p hp
      obtain ⟨window, hmem, hchain⟩ := exists_mem_of_forall₂ hrel hp
      cases window with
      | none => exact absurd (any_isNone_iff.mpr hmem) hany
      | some own => exact ((hown p hp _ hchain).2 own rfl x).mp (hin own hmem)
    · intro hchecked own hmem
      obtain ⟨p, hp, hchain⟩ := exists_mem_of_forall₂ hrel.flip hmem
      exact ((hown p hp _ hchain).2 own rfl x).mpr (hchecked p hp)

/-- Two recordings that are accepted and whose certificates ask the same of every instant
have the same window. -/
theorem accept_window_congr {pki : Pki Cert Name} (hpki : LeafChecked pki)
    {pending pending' : List (Pending Cert Name)} {seconds : Int64} {v v' : Verified}
    (h : accept pki pending seconds = .ok v) (h' : accept pki pending' seconds = .ok v')
    (hreadable : (∃ p ∈ pending, ∃ c ∈ p.chain, Unreadable pki c) ↔
      ∃ p ∈ pending', ∃ c ∈ p.chain, Unreadable pki c)
    (hchecked : ∀ x, CheckedAt pki pending seconds x ↔ CheckedAt pki pending' seconds x) :
    v'.window = v.window := by
  obtain ⟨u, hu, -, hnone, hsome⟩ :=
    accept_window hpki (accept_ok h).recorded (accept_ok h).verified
  obtain ⟨u', hu', -, hnone', hsome'⟩ :=
    accept_window hpki (accept_ok h').recorded (accept_ok h').verified
  rw [h] at hu
  rw [h'] at hu'
  cases hu
  cases hu'
  cases hw : v.window with
  | none => exact hnone'.mpr (hreadable.mp (hnone.mp hw))
  | some w =>
    cases hw' : v'.window with
    | none =>
      rw [hnone.mpr (hreadable.mpr (hnone'.mp hw'))] at hw
      cases hw
    | some w' =>
      obtain ⟨hin, hmem⟩ := hsome w hw
      obtain ⟨-, hmem'⟩ := hsome' w' hw'
      have heq : w = w' := window_ext hin fun x => by rw [hmem, hmem', hchecked]
      rw [heq]

/-- The recording `p` with one more certificate behind its leaf. -/
def Pending.insert (p : Pending Cert Name) (leaf : Cert) (front : List Cert) (c : Cert)
    (back : List Cert) : Pending Cert Name :=
  { p with chain := leaf :: (front ++ c :: back) }

/-- A certificate that has a property makes no difference to whether all have it. -/
theorem forall_chain_insert (P : Cert → Prop) (before after : List (Pending Cert Name))
    {p : Pending Cert Name} {leaf c : Cert} {front back : List Cert}
    (hchain : p.chain = leaf :: (front ++ back)) (hc : P c) :
    (∀ q ∈ before ++ p.insert leaf front c back :: after, ∀ d ∈ q.chain, P d) ↔
      ∀ q ∈ before ++ p :: after, ∀ d ∈ q.chain, P d := by
  have hown : (∀ d ∈ (p.insert leaf front c back).chain, P d) ↔ ∀ d ∈ p.chain, P d := by
    rw [Pending.insert, hchain]
    simp only [List.forall_mem_cons, List.forall_mem_append, hc, true_and]
  rw [List.forall_mem_append, List.forall_mem_append, List.forall_mem_cons,
    List.forall_mem_cons, hown]

/-- **A certificate that was not valid has no vote**: one more that can be read and does
not hold at `seconds` leaves the window as it is. -/
theorem window_insert {pki : Pki Cert Name} (hpki : LeafChecked pki)
    {before after : List (Pending Cert Name)} {p : Pending Cert Name} {leaf c : Cert}
    {front back : List Cert} (hchain : p.chain = leaf :: (front ++ back)) {seconds : Int64}
    {w : Window} (hw : pki.validity c = .ok w) (hout : ¬ InWindow seconds w) {v v' : Verified}
    (h : accept pki (before ++ p :: after) seconds = .ok v)
    (h' : accept pki (before ++ p.insert leaf front c back :: after) seconds = .ok v') :
    v'.window = v.window := by
  refine accept_window_congr hpki h h' ?_ ?_
  · have hreadable : ¬ Unreadable pki c := by
      intro hunreadable
      exact hunreadable w hw
    have hsame := forall_chain_insert (fun d => ¬ Unreadable pki d) before after hchain hreadable
    rw [← not_iff_not]
    push Not
    exact hsame.symm
  · intro x
    have hvote : ∀ u, pki.validity c = .ok u → InWindow seconds u → InWindow x u := by
      intro u hu hin
      rw [hw] at hu
      cases hu
      exact absurd hin hout
    exact (forall_chain_insert (fun d => ∀ u, pki.validity d = .ok u → InWindow seconds u →
      InWindow x u) before after hchain hvote).symm

/-! ## A clock that is right -/

/-- A pair that contributed was accepted at the second it answered with. -/
theorem accept_of_askPair {pki : Pki Cert Name} {floor : Int64} {x : Exchange Cert Name}
    {seconds : Int64} {window : Option Window}
    (h : askPair pki floor x = .ok (seconds, window)) :
    ∃ pending, x = .obtained seconds pending ∧
      accept pki pending seconds = .ok ⟨seconds, window⟩ := by
  cases x with
  | failed e => cases h
  | panicked => cases h
  | obtained s pending =>
    obtain ⟨u, -, h⟩ := bind_eq_ok.mp (mapError_eq_ok.mp h)
    obtain ⟨v, haccept, h⟩ := bind_eq_ok.mp h
    cases h
    obtain rfl := (accept_ok haccept).seconds_eq
    exact ⟨pending, rfl, haccept⟩

/-- The windows that were collected are those of the pairs, none of which failed. -/
theorem mem_windows_collectAnswers {o : Options} {host : Host Cert Name} {pki : Pki Cert Name}
    {pairs : List (Resolver × TimeServer)} (htrust : host.trustStore = .ok pki)
    (hfail : (collectAnswers o host pairs).failures = []) {window : Option Window}
    (hwindow : window ∈ (collectAnswers o host pairs).windows) :
    ∃ i < pairs.length, ∃ seconds pending, host.exchange i = .obtained seconds pending ∧
      accept pki pending seconds = .ok ⟨seconds, window⟩ := by
  rw [collectAnswers, htrust] at hfail hwindow
  dsimp only at hfail hwindow
  obtain ⟨-, results, hresults, -, hwindows⟩ := foldl_join_ok hfail
  rw [hwindows, List.nil_append] at hwindow
  obtain ⟨⟨seconds, window'⟩, hmem, rfl⟩ := List.mem_map.mp hwindow
  have hask : (.ok (seconds, window') : Except Stop (Int64 × Option Window)) ∈
      results.map .ok := List.mem_map_of_mem hmem
  rw [← hresults, List.map_map, List.mem_map] at hask
  obtain ⟨⟨pair, i⟩, hpair, hask⟩ := hask
  obtain ⟨-, hi, -⟩ := List.mem_zipIdx hpair
  obtain ⟨pending, hobtained, haccept⟩ := accept_of_askPair hask
  exact ⟨i, by omega, seconds, pending, hobtained, haccept⟩

/-- **A clock that is right needs no setting**: every certificate can be read, and every
pair answered what the clock says. -/
theorem needsSetting_of_right {o : Options} {host : Host Cert Name} {pki : Pki Cert Name}
    (hpki : LeafChecked pki) {pairs : List (Resolver × TimeServer)}
    (htrust : host.trustStore = .ok pki) (hne : pairs ≠ [])
    (hfail : (collectAnswers o host pairs).failures = []) {now : Int64}
    (hright : ∀ i < pairs.length, ∀ seconds pending,
      host.exchange i = .obtained seconds pending →
        seconds = now ∧ ∀ p ∈ pending, ∀ c ∈ p.chain, ¬ Unreadable pki c) :
    needsSetting now (commonWindow (collectAnswers o host pairs).windows) = false := by
  -- each window is known and holds what the clock says
  have hwindows : ∀ window ∈ (collectAnswers o host pairs).windows,
      ∃ w, window = some w ∧ InWindow now w := by
    intro window hwindow
    obtain ⟨i, hi, seconds, pending, hobtained, haccept⟩ :=
      mem_windows_collectAnswers htrust hfail hwindow
    obtain ⟨rfl, hreadable⟩ := hright i hi seconds pending hobtained
    obtain ⟨v, hv, -, hnone, hsome⟩ :=
      accept_window hpki (accept_ok haccept).recorded (accept_ok haccept).verified
    rw [haccept] at hv
    cases hv
    cases window with
    | none =>
      obtain ⟨p, hp, c, hc, hunreadable⟩ := hnone.mp rfl
      exact absurd hunreadable (hreadable p hp c hc)
    | some w => exact ⟨w, rfl, (hsome w rfl).1⟩
  have hknown : none ∉ (collectAnswers o host pairs).windows := by
    intro hmem
    obtain ⟨w, hw, -⟩ := hwindows none hmem
    cases hw
  have hsome : (collectAnswers o host pairs).windows ≠ [] := by
    obtain ⟨-, -, -, hlen, -⟩ := collectAnswers_ok hfail
    intro hnil
    rw [hnil] at hlen
    exact hne (List.length_eq_zero_iff.mp hlen.symm)
  have hall : ∀ w ∈ (collectAnswers o host pairs).windows.filterMap id, InWindow now w := by
    intro w hw
    obtain ⟨window, hmem, rfl⟩ := List.mem_filterMap.mp hw
    obtain ⟨w', hw', hin⟩ := hwindows _ hmem
    cases hw'
    exact hin
  obtain ⟨common, hcommon⟩ := intersect_of_forall hall
  have hin : InWindow now common := (intersect_spec hcommon now).mpr hall
  have hcommonWindow : commonWindow (collectAnswers o host pairs).windows = some common := by
    rw [commonWindow, if_neg, hcommon]
    rw [not_or, any_isNone_iff]
    exact ⟨hsome, hknown⟩
  rw [← Bool.not_eq_true, needsSetting_iff, hcommonWindow]
  rintro (hnone | ⟨w, hw, hout⟩)
  · cases hnone
  · cases hw
    exact hout hin

/-- **A clock that is right is never stepped**, unless `--force` asks for it. -/
theorem not_setClock_of_right {o : Options} {seed : UInt64} {host : Host Cert Name}
    {pki : Pki Cert Name} (hpki : LeafChecked pki) (htrust : host.trustStore = .ok pki)
    (hforce : o.force = false) {now : Int64} (hclock : epochSeconds host.wallClock = .ok now)
    (hright : ∀ i seconds pending, host.exchange i = .obtained seconds pending →
      seconds = now ∧ ∀ p ∈ pending, ∀ c ∈ p.chain, ¬ Unreadable pki c) (t : Int64) :
    .setClock t ∉ (run o seed host).1 := by
  intro hset
  obtain ⟨window, hagree, hreason, -⟩ := run_setClock hset
  obtain ⟨pairs, -, hfail, hdecide, rfl⟩ := agree_ok hagree
  have hne : pairs ≠ [] := by
    rintro rfl
    cases hdecide
  have hright' := needsSetting_of_right hpki htrust hne hfail fun i _ => hright i
  rcases reasonToStandDown_eq_none hreason with hforce' | ⟨now', hnow', hneeds⟩
  · rw [hforce] at hforce'
    cases hforce'
  · rw [hclock] at hnow'
    cases hnow'
    rw [needsSetting_iff.mpr hneeds] at hright'
    cases hright'

/-- **The window is exactly what the certificates that could have been checked allow.**
For recorded chains that all verified at `seconds`: it is unknown if and only if a
certificate cannot be read, it contains `seconds`, an instant lies in it if and only if
it lies in the validity of every certificate that was valid at `seconds`, and a further
certificate that was not has no vote. A clock that says what every pair answered, all
certificates being readable, needs no setting and is not set. -/
theorem window_exactly_checked {pki : Pki Cert Name} (hpki : LeafChecked pki) :
    (∀ pending seconds, pending ≠ [] →
      (∀ p ∈ pending, verifyAt pki p.chain p.serverName seconds = .ok ()) →
      ∃ v, accept pki pending seconds = .ok v ∧
        (v.window = none ↔ ∃ p ∈ pending, ∃ c ∈ p.chain, Unreadable pki c) ∧
        ∀ w, v.window = some w → InWindow seconds w ∧
          ∀ x, InWindow x w ↔ ∀ p ∈ pending, ∀ c ∈ p.chain, ∀ u,
            pki.validity c = .ok u → InWindow seconds u → InWindow x u) ∧
    (∀ before p after leaf front c back w seconds v v', p.chain = leaf :: (front ++ back) →
      pki.validity c = .ok w → ¬ InWindow seconds w →
      accept pki (before ++ p :: after) seconds = .ok v →
      accept pki (before ++ p.insert leaf front c back :: after) seconds = .ok v' →
      v'.window = v.window) ∧
    (∀ (o : Options) (host : Host Cert Name) pairs now, host.trustStore = .ok pki →
      pairs ≠ [] → (collectAnswers o host pairs).failures = [] →
      (∀ i < pairs.length, ∀ seconds pending, host.exchange i = .obtained seconds pending →
        seconds = now ∧ ∀ p ∈ pending, ∀ c ∈ p.chain, ¬ Unreadable pki c) →
      needsSetting now (commonWindow (collectAnswers o host pairs).windows) = false) ∧
    ∀ (o : Options) seed (host : Host Cert Name) now, host.trustStore = .ok pki →
      o.force = false → epochSeconds host.wallClock = .ok now →
      (∀ i seconds pending, host.exchange i = .obtained seconds pending →
        seconds = now ∧ ∀ p ∈ pending, ∀ c ∈ p.chain, ¬ Unreadable pki c) →
      ∀ t, .setClock t ∉ (run o seed host).1 := by
  refine ⟨?_, ?_, ?_, ?_⟩
  · intro pending seconds hne hall
    obtain ⟨v, haccept, -, hnone, hsome⟩ := accept_window hpki hne hall
    exact ⟨v, haccept, hnone, hsome⟩
  · intro before p after leaf front c back w seconds v v' hchain hw hout h h'
    exact window_insert hpki hchain hw hout h h'
  · intro o host pairs now htrust hne hfail hright
    exact needsSetting_of_right hpki htrust hne hfail hright
  · intro o seed host now htrust hforce hclock hright t
    exact not_setClock_of_right hpki htrust hforce hclock hright t

/-- The sample verifier looks at the dates of the leaf. -/
theorem leafChecked_samplePki : LeafChecked samplePki where
  leaf_in_date leaf intermediates name x w h hw := by
    have h : (if 1000 ≤ x ∧ x ≤ 2000 then Except.ok () else .error "expired")
        = (.ok () : Except String Unit) := h
    split_ifs at h with hx
    cases hw
    show (1000 : Int) ≤ x ∧ (x : Int) ≤ 2000
    omega

/-- Two legs of a pair that answered with second 1500. -/
theorem window_exactly_checked_sampled :
    ∃ v, accept samplePki [⟨"DoH", [1, 2], "dns"⟩, ⟨"NTS-KE", [3], "t"⟩] 1500 = .ok v ∧
      ∀ w, v.window = some w → InWindow 1500 w := by
  obtain ⟨v, haccept, -, hsome⟩ := (window_exactly_checked leafChecked_samplePki).1
    [⟨"DoH", [1, 2], "dns"⟩, ⟨"NTS-KE", [3], "t"⟩] 1500 (List.cons_ne_nil _ _)
    (by decide +kernel)
  exact ⟨v, haccept, fun w hw => (hsome w hw).1⟩

end HostServices.TimeCorrection
