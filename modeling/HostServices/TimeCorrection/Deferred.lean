import HostServices.Lib.Int64Order
import HostServices.Lib.Fallible

/-!
# Deferred certificate validation (`time-correction/src/verify.rs`, `deferred.rs`)

Chains are recorded while a timestamp is being obtained, and verified at that
timestamp before it is believed. Reading a certificate's dates and verifying a
chain at an instant are the libraries' (`Pki`); everything the program decides
from their answers is here.

- `intersect`, `chainWindows`, `verifiedWindow`: from sent certificates to the span
  over which those that were checked are valid;
- `verifyAt`, `accept`: the second pass;
- `accept_ok`: what an accepted timestamp rests on;
- `PathVerifier`, `verifyAt_of_inWindow`: for a verifier that builds a path, the
  reported span is one over which the chain verifies.
-/

namespace HostServices.TimeCorrection

open HostServices.Lib

/-- From the first to the last second of a validity, both included. -/
abbrev Window := Int64 × Int64

/-- The second lies in the window. -/
def InWindow (x : Int64) (w : Window) : Prop := w.1 ≤ x ∧ x ≤ w.2

instance (x : Int64) (w : Window) : Decidable (InWindow x w) :=
  inferInstanceAs (Decidable (_ ∧ _))

/-- What is outside the program: `x509-parser`, which reads the validity of a
certificate, and the `webpki` verifier, which is given a leaf, the other
certificates sent, a name and an instant in seconds since the epoch. -/
structure Pki (Cert Name : Type) where
  validity : Cert → Except String Window
  verifyServerCert : Cert → List Cert → Name → Nat → Except String Unit

variable {Cert Name : Type}

/-! ## Windows -/

/-- The window of a certificate: from its first second to its last. -/
def windowOf (pki : Pki Cert Name) (der : Cert) : Except String Window :=
  match pki.validity der with
  | .ok w => .ok w
  | .error e => .error s!"unparseable certificate: {e}"

/-- The instants at which every window is simultaneously open. -/
def intersect (windows : List Window) : Option Window :=
  let start := windows.foldl (fun start w => max start w.1) Int64.minValue
  let stop := windows.foldl (fun stop w => min stop w.2) Int64.maxValue
  if start ≤ stop then some (start, stop) else none

/-- The windows of everything a peer sent, `none` where one could not be read. -/
def chainWindows (pki : Pki Cert Name) (leaf : Cert) (intermediates : List Cert) :
    List (Option Window) :=
  (leaf :: intermediates).map fun der => (windowOf pki der).toOption

/-- The span over which the path that was verified at `seconds` is valid. -/
def verifiedWindow (windows : List (Option Window)) (seconds : Int64) : Option Window :=
  if windows = [] ∨ windows.any Option.isNone then none
  else
    let used := (windows.filterMap id).filter fun w => InWindow seconds w
    -- over nothing `intersect` would say that every instant is inside
    if used = [] then none else intersect used

/-! ## The second pass -/

/-- `unix_time`: there is no time before the epoch. -/
def unixTime (seconds : Int64) : Except String Nat :=
  if seconds < 0 then .error s!"timestamp {seconds} predates the Unix epoch"
  else .ok seconds.toInt.toNat

/-- Re-verify a chain at the time the server claimed it was. -/
def verifyAt (pki : Pki Cert Name) (chain : List Cert) (serverName : Name)
    (seconds : Int64) : Except String Unit :=
  match chain with
  | [] => .error "the peer presented no certificates"
  | leaf :: intermediates => do
    let now ← unixTime seconds
    match pki.verifyServerCert leaf intermediates serverName now with
    | .ok () => .ok ()
    | .error e =>
      .error s!"the chain is not valid at the time the server reported ({seconds}): {e}"

/-- A chain that is waiting for a time to be checked against. -/
structure Pending (Cert Name : Type) where
  leg : String
  chain : List Cert
  serverName : Name

/-- A timestamp that has been checked against every chain gathered on the way to
it, and the span over which the certificates that check used are valid. -/
structure Verified where
  seconds : Int64
  window : Option Window

/-- One round of the loop of `accept`: the chain verifies, and this is its
window. -/
def acceptChain (pki : Pki Cert Name) (seconds : Int64) (p : Pending Cert Name) :
    Except String (Option Window) :=
  match verifyAt pki p.chain p.serverName seconds with
  | .error e => .error s!"{p.leg}: {e}"
  | .ok () =>
    match p.chain with
    | [] => .error s!"{p.leg}: an empty chain was recorded"
    | leaf :: intermediates =>
      .ok (verifiedWindow (chainWindows pki leaf intermediates) seconds)

/-- Pass 2, for every leg at once. -/
def accept (pki : Pki Cert Name) (pending : List (Pending Cert Name)) (seconds : Int64) :
    Except String Verified :=
  if pending.isEmpty then
    .error "no certificate chains were recorded, so nothing vouches for this time"
  else do
    let windows ← pending.mapM (acceptChain pki seconds)
    -- one chain of unknown window makes the whole window unknown
    .ok { seconds
          window := if windows.any Option.isNone then none
            else intersect (windows.filterMap id) }

/-! ## Which instants a window holds -/

theorem foldl_max_le {windows : List Window} {a x : Int64} :
    windows.foldl (fun start w => max start w.1) a ≤ x ↔
      a ≤ x ∧ ∀ w ∈ windows, w.1 ≤ x := by
  induction windows generalizing a with
  | nil => simp
  | cons w windows ih => rw [List.foldl_cons, ih, max_le_iff, List.forall_mem_cons, and_assoc]

theorem le_foldl_min {windows : List Window} {a x : Int64} :
    x ≤ windows.foldl (fun stop w => min stop w.2) a ↔
      x ≤ a ∧ ∀ w ∈ windows, x ≤ w.2 := by
  induction windows generalizing a with
  | nil => simp
  | cons w windows ih => rw [List.foldl_cons, ih, le_min_iff, List.forall_mem_cons, and_assoc]

/-- **The intersection is one**: an instant is in it if and only if it is in every
window. -/
theorem intersect_spec {windows : List Window} {w : Window} (h : intersect windows = some w)
    (x : Int64) : InWindow x w ↔ ∀ v ∈ windows, InWindow x v := by
  unfold intersect at h
  dsimp only at h
  split_ifs at h
  cases h
  unfold InWindow
  rw [foldl_max_le, le_foldl_min]
  constructor
  · rintro ⟨⟨-, hstart⟩, ⟨-, hstop⟩⟩ v hv
    exact ⟨hstart v hv, hstop v hv⟩
  · intro h
    refine ⟨⟨?_, fun v hv => (h v hv).1⟩, ⟨?_, fun v hv => (h v hv).2⟩⟩
    · exact Int64.minValue_le x
    · exact Int64.le_maxValue x

/-- An instant is in the intersection of windows that are all known if and only if
it is in every one of them. -/
theorem intersect_known {windows : List (Option Window)} {w : Window}
    (h : intersect (windows.filterMap id) = some w) (x : Int64) :
    InWindow x w ↔ ∀ v, some v ∈ windows → InWindow x v := by
  rw [intersect_spec h]
  constructor
  · intro hall v hv
    exact hall v (List.mem_filterMap.mpr ⟨some v, hv, rfl⟩)
  · intro hall v hv
    obtain ⟨v', hv', rfl⟩ := List.mem_filterMap.mp hv
    exact hall v hv'

theorem any_isNone_iff {α : Type} {l : List (Option α)} :
    l.any Option.isNone = true ↔ none ∈ l := by
  rw [List.any_eq_true]
  constructor
  · rintro ⟨x, hx, hnone⟩
    rwa [Option.isNone_iff_eq_none.mp hnone] at hx
  · intro h
    exact ⟨none, h, rfl⟩

/-- **The verified window**: every certificate of the chain could be read, and an
instant is inside if and only if all certificates that were valid at `seconds` are
valid then. -/
theorem verifiedWindow_spec {windows : List (Option Window)} {seconds : Int64} {w : Window}
    (h : verifiedWindow windows seconds = some w) :
    none ∉ windows ∧ ∀ x, InWindow x w ↔
      ∀ v, some v ∈ windows → InWindow seconds v → InWindow x v := by
  unfold verifiedWindow at h
  dsimp only at h
  split_ifs at h with hunknown hnone
  refine ⟨fun hmem => hunknown (.inr (any_isNone_iff.mpr hmem)), fun x => ?_⟩
  rw [intersect_spec h]
  constructor
  · intro hall v hv hsec
    refine hall v (List.mem_filter.mpr ⟨?_, decide_eq_true hsec⟩)
    exact List.mem_filterMap.mpr ⟨some v, hv, rfl⟩
  · intro hall v hv
    obtain ⟨hmem, hsec⟩ := List.mem_filter.mp hv
    obtain ⟨v', hv', rfl⟩ := List.mem_filterMap.mp hmem
    exact hall v hv' (of_decide_eq_true hsec)

/-! ## What an accepted timestamp rests on -/

/-- A chain that is accepted was verified at the time. -/
theorem acceptChain_ok {pki : Pki Cert Name} {seconds : Int64} {p : Pending Cert Name}
    {window : Option Window} (h : acceptChain pki seconds p = .ok window) :
    verifyAt pki p.chain p.serverName seconds = .ok () ∧
      ∃ leaf intermediates, p.chain = leaf :: intermediates ∧
        verifiedWindow (chainWindows pki leaf intermediates) seconds = window := by
  unfold acceptChain at h
  cases hverify : verifyAt pki p.chain p.serverName seconds with
  | error e => rw [hverify] at h; cases h
  | ok u =>
    rw [hverify] at h
    cases hchain : p.chain with
    | nil => rw [hchain] at h; cases h
    | cons leaf intermediates =>
      rw [hchain] at h
      cases h
      exact ⟨rfl, leaf, intermediates, rfl, rfl⟩

/-- What `accept` vouches for when it returns. -/
structure Vouched (pki : Pki Cert Name) (pending : List (Pending Cert Name))
    (seconds : Int64) (v : Verified) : Prop where
  seconds_eq : v.seconds = seconds
  recorded : pending ≠ []
  verified : ∀ p ∈ pending, verifyAt pki p.chain p.serverName seconds = .ok ()
  window : ∀ w, v.window = some w → ∀ p ∈ pending, ∃ leaf intermediates own,
    p.chain = leaf :: intermediates ∧
    verifiedWindow (chainWindows pki leaf intermediates) seconds = some own ∧
    ∀ x, InWindow x w → InWindow x own

/-- **The second pass ran on everything**: a timestamp comes out of `accept` only
with chains recorded and every one of them verified at it. -/
theorem accept_ok {pki : Pki Cert Name} {pending : List (Pending Cert Name)}
    {seconds : Int64} {v : Verified} (h : accept pki pending seconds = .ok v) :
    Vouched pki pending seconds v := by
  unfold accept at h
  split at h
  · cases h
  · rename_i hne
    obtain ⟨windows, hwindows, h⟩ := bind_eq_ok.mp h
    cases h
    have hall := mapM_eq_ok.mp hwindows
    refine ⟨rfl, by simpa using hne, ?_, ?_⟩
    · intro p hp
      obtain ⟨window, -, hchain⟩ := exists_mem_of_forall₂ hall hp
      exact (acceptChain_ok hchain).1
    · intro w hw p hp
      dsimp only at hw
      split_ifs at hw with hknown
      obtain ⟨window, hmem, hchain⟩ := exists_mem_of_forall₂ hall hp
      obtain ⟨-, leaf, intermediates, hpchain, hwindow⟩ := acceptChain_ok hchain
      cases window with
      | none => exact absurd (any_isNone_iff.mpr hmem) hknown
      | some own =>
        exact ⟨leaf, intermediates, own, hpchain, hwindow,
          fun x hx => (intersect_known hw x).mp hx own hmem⟩

/-- A chain passes if the time is no earlier than the epoch and the verifier accepts it then. -/
theorem verifyAt_ok_iff {pki : Pki Cert Name} {leaf : Cert} {intermediates : List Cert}
    {name : Name} {seconds : Int64} :
    verifyAt pki (leaf :: intermediates) name seconds = .ok () ↔
      0 ≤ seconds ∧
        pki.verifyServerCert leaf intermediates name seconds.toInt.toNat = .ok () := by
  unfold verifyAt unixTime
  by_cases hneg : seconds < 0
  · have : ¬ 0 ≤ seconds := not_le_of_gt hneg
    simp [hneg, this, bind, Except.bind]
  · have hnonneg : 0 ≤ seconds := le_of_not_gt hneg
    rw [if_neg hneg]
    show (match pki.verifyServerCert leaf intermediates name seconds.toInt.toNat with
      | .ok () => Except.ok ()
      | .error e => _) = _ ↔ _
    cases pki.verifyServerCert leaf intermediates name seconds.toInt.toNat with
    | ok u => simp [hnonneg]
    | error e => simp

/-- Only an instant since the epoch can be verified at. -/
theorem nonneg_of_verifyAt {pki : Pki Cert Name} {chain : List Cert} {name : Name}
    {seconds : Int64} (h : verifyAt pki chain name seconds = .ok ()) : 0 ≤ seconds := by
  cases chain with
  | nil => cases h
  | cons leaf intermediates => exact (verifyAt_ok_iff.mp h).1

/-! ## A verifier that builds a path -/

/-- A verifier that accepts a chain at an instant exactly when some path among the
sent certificates that includes the leaf passes checks that do not depend on the
instant, and every certificate on it is valid at that instant; for a certificate
whose dates can be read, that is being between them. -/
structure PathVerifier (pki : Pki Cert Name) where
  usable : Cert → List Cert → Name → List Cert → Prop
  validAt : Cert → Nat → Prop
  accepts_iff : ∀ leaf intermediates name x,
    pki.verifyServerCert leaf intermediates name x = .ok () ↔
      ∃ path, leaf ∈ path ∧ (∀ c ∈ path, c ∈ leaf :: intermediates) ∧
        usable leaf intermediates name path ∧ ∀ c ∈ path, validAt c x
  validAt_iff : ∀ c w x, pki.validity c = .ok w →
    (validAt c x ↔ w.1.toInt ≤ x ∧ x ≤ w.2.toInt)

/-- A certificate is in date within its window. -/
theorem PathVerifier.validAt_iff_inWindow {pki : Pki Cert Name} (pv : PathVerifier pki)
    {c : Cert} {w : Window} (hw : pki.validity c = .ok w) {x : Int64} (hx : 0 ≤ x) :
    pv.validAt c x.toInt.toNat ↔ InWindow x w := by
  have hx' : 0 ≤ x.toInt := Int64.le_iff_toInt_le.mp hx
  rw [pv.validAt_iff c w _ hw, InWindow, Int64.le_iff_toInt_le, Int64.le_iff_toInt_le,
    Int.toNat_of_nonneg hx']

/-- A certificate of a chain all of whose windows are known has its dates. -/
theorem validity_of_mem {pki : Pki Cert Name} {leaf : Cert} {intermediates : List Cert}
    (hknown : none ∉ chainWindows pki leaf intermediates) {c : Cert}
    (hc : c ∈ leaf :: intermediates) :
    ∃ w, pki.validity c = .ok w ∧ some w ∈ chainWindows pki leaf intermediates := by
  have hmem : (windowOf pki c).toOption ∈ chainWindows pki leaf intermediates :=
    List.mem_map_of_mem hc
  unfold windowOf at hmem
  cases hval : pki.validity c with
  | error e =>
    rw [hval] at hmem
    exact absurd hmem hknown
  | ok w =>
    rw [hval] at hmem
    exact ⟨w, rfl, hmem⟩

/-- **The window is sound**: a chain that verified at `seconds` verifies at every
instant of its verified window that lies after the epoch. The path that was used
may be any: a certificate that was not valid at `seconds` is not on it. -/
theorem verifyAt_of_inWindow {pki : Pki Cert Name} (pv : PathVerifier pki) {leaf : Cert}
    {intermediates : List Cert} {name : Name} {seconds now : Int64} {w : Window}
    (hverified : verifyAt pki (leaf :: intermediates) name seconds = .ok ())
    (hwindow : verifiedWindow (chainWindows pki leaf intermediates) seconds = some w)
    (hnow : 0 ≤ now) (hin : InWindow now w) :
    verifyAt pki (leaf :: intermediates) name now = .ok () := by
  obtain ⟨hseconds, haccept⟩ := verifyAt_ok_iff.mp hverified
  obtain ⟨path, hleaf, hsent, husable, hvalid⟩ := (pv.accepts_iff _ _ _ _).mp haccept
  obtain ⟨hknown, hspec⟩ := verifiedWindow_spec hwindow
  refine verifyAt_ok_iff.mpr ⟨hnow, (pv.accepts_iff _ _ _ _).mpr ?_⟩
  refine ⟨path, hleaf, hsent, husable, fun c hc => ?_⟩
  obtain ⟨v, hv, hmem⟩ := validity_of_mem hknown (hsent c hc)
  have hthen : InWindow seconds v :=
    (pv.validAt_iff_inWindow hv hseconds).mp (hvalid c hc)
  exact (pv.validAt_iff_inWindow hv hnow).mpr ((hspec now).mp hin v hmem hthen)

end HostServices.TimeCorrection
