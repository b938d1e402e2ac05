import HostServices.Tunnel.Forward

/-!
# What comes out of the tunnel

- `End.Sound`, `Inv`: what holds of each side, and of both;
- `tunnel_faithful`: nothing is lost, repeated or reordered, and an end is an end;
- `forward_verdict`: what `forward_bidi` returns, and what it leaves behind.
-/

namespace HostServices.Tunnel

open HostServices.Lib

/-! ## One side -/

/-- What a side keeps to. -/
structure End.Sound (e : End) : Prop where
  before : e.phase ≠ .forwarding → e.out = {} ∧ e.into = {} ∧ e.cancelled = false ∧
    e.interrupted = false ∧ e.main = .awaitsIn
  sent : e.wire.bytes.taken = e.greeted ++ e.out.bytes.given
  /-- the stream is left when `copy_to_stream` is over, or will never run -/
  left : e.wire.ending = none ↔ e.out.status = .running ∧ e.phase ≠ .over ∧ e.phase ≠ .refused
  out_ok : e.out.status = .ok →
    e.out.ended = true ∧ e.out.bytes.held = [] ∧ e.wire.ending = some .finished
  out_cancelled : e.out.status = .cancelled → e.wire.ending = some .reset
  into_ok : e.into.status = .ok → e.into.ended = true ∧ e.into.bytes.held = []
  cancelled : e.cancelled = true ↔
    e.interrupted = true ∨ e.out.status = .error ∨ e.into.status = .error
  out_stopped : e.out.status = .cancelled → e.cancelled = true
  into_stopped : e.into.status = .cancelled → e.cancelled = true
  awaits_out : e.main = .awaitsOut → e.into.status = .ok
  returned_ok : e.main = .returned true → e.into.status = .ok ∧ e.out.status = .ok
  returned_error : e.main = .returned false → e.cancelled = true ∧
    (e.into.status = .error ∨ e.into.status = .cancelled ∨
      e.out.status = .error ∨ e.out.status = .cancelled)

namespace End.Sound

variable {side : Side} {e other : End}

/-- What `copy_to_stream` does while it runs. -/
theorem out_runs (h : e.Sound) (hruns : e.Runs .out) {out : Copy} {bytes : Relay UInt8}
    (hstatus : out.status = .running) (hsent : bytes.taken = e.greeted ++ out.bytes.given) :
    { e with out, wire := { e.wire with bytes } : End }.Sound := by
  have hsame : out.status = e.out.status := hstatus.trans hruns.2.symm
  exact {
    before := fun hphase => absurd hruns.1 hphase
    sent := hsent
    left := by simpa only [hsame] using h.left
    out_ok := fun hok => by rw [hstatus] at hok; cases hok
    out_cancelled := fun hcancelled => by rw [hstatus] at hcancelled; cases hcancelled
    into_ok := h.into_ok
    cancelled := by simpa only [hsame] using h.cancelled
    out_stopped := by simpa only [hsame] using h.out_stopped
    into_stopped := h.into_stopped
    awaits_out := h.awaits_out
    returned_ok := by simpa only [hsame] using h.returned_ok
    returned_error := by simpa only [hsame] using h.returned_error }

/-- What `copy_from_stream` does while it runs. -/
theorem into_runs (h : e.Sound) (hruns : e.Runs .into) {into : Copy}
    (hstatus : into.status = .running) : { e with into : End }.Sound := by
  have hsame : into.status = e.into.status := hstatus.trans hruns.2.symm
  exact { h with
    before := fun hphase => absurd hruns.1 hphase
    into_ok := fun hok => by rw [hstatus] at hok; cases hok
    cancelled := by simpa only [hsame] using h.cancelled
    into_stopped := by simpa only [hsame] using h.into_stopped
    awaits_out := by simpa only [hsame] using h.awaits_out
    returned_ok := by simpa only [hsame] using h.returned_ok
    returned_error := by simpa only [hsame] using h.returned_error }

/-- `copy_to_stream` is over, and leaves the stream. -/
theorem out_over (h : e.Sound) (hruns : e.Runs .out) {status : Status} {left : Ending}
    {cancelled : Bool}
    (hok : status = .ok → e.out.ended = true ∧ e.out.bytes.held = [] ∧ left = .finished)
    (hcancelled : status = .cancelled → left = .reset ∧ cancelled = true)
    (herror : cancelled = true ↔ e.cancelled = true ∨ status = .error)
    (hover : status ≠ .running) :
    { e.leave left with out := { e.out with status }, cancelled : End }.Sound := by
  have hrunning : e.out.status = .running := hruns.2
  exact {
    before := fun hphase => absurd hruns.1 hphase
    sent := h.sent
    left := ⟨nofun, fun hrunning => absurd hrunning.1 hover⟩
    out_ok := fun h => ⟨(hok h).1, (hok h).2.1, congrArg some (hok h).2.2⟩
    out_cancelled := fun h => congrArg some (hcancelled h).1
    into_ok := h.into_ok
    cancelled := by
      have := h.cancelled
      simp only [hrunning, reduceCtorEq, false_or] at this
      show cancelled = true ↔ _ ∨ status = .error ∨ _
      rw [herror, this]
      tauto
    out_stopped := fun h => (hcancelled h).2
    into_stopped := fun hstopped => herror.mpr (.inl (h.into_stopped hstopped))
    awaits_out := h.awaits_out
    returned_ok := fun hmain => by
      have := (h.returned_ok hmain).2
      rw [hrunning] at this
      cases this
    returned_error := fun hmain => by
      obtain ⟨hcancelled, hfailed⟩ := h.returned_error hmain
      rw [hrunning] at hfailed
      refine ⟨herror.mpr (.inl hcancelled), ?_⟩
      rcases hfailed with hinto | hinto | hout | hout
      · exact .inl hinto
      · exact .inr (.inl hinto)
      · cases hout
      · cases hout }

/-- `copy_from_stream` is over. -/
theorem into_over (h : e.Sound) (hruns : e.Runs .into) {status : Status} {cancelled : Bool}
    (hok : status = .ok → e.into.ended = true ∧ e.into.bytes.held = [])
    (hcancelled : status = .cancelled → cancelled = true)
    (herror : cancelled = true ↔ e.cancelled = true ∨ status = .error) :
    { e with into := { e.into with status }, cancelled : End }.Sound := by
  have hrunning : e.into.status = .running := hruns.2
  exact { h with
    before := fun hphase => absurd hruns.1 hphase
    into_ok := hok
    cancelled := by
      have := h.cancelled
      simp only [hrunning, reduceCtorEq, or_false] at this
      show cancelled = true ↔ _ ∨ _ ∨ status = .error
      rw [herror, this]
      tauto
    out_stopped := fun hstopped => herror.mpr (.inl (h.out_stopped hstopped))
    into_stopped := hcancelled
    awaits_out := fun hmain => by
      have := h.awaits_out hmain
      rw [hrunning] at this
      cases this
    returned_ok := fun hmain => by
      have := (h.returned_ok hmain).1
      rw [hrunning] at this
      cases this
    returned_error := fun hmain => by
      obtain ⟨hcancelled, hfailed⟩ := h.returned_error hmain
      rw [hrunning] at hfailed
      refine ⟨herror.mpr (.inl hcancelled), ?_⟩
      rcases hfailed with hinto | hinto | hout | hout
      · cases hinto
      · cases hinto
      · exact .inr (.inr (.inl hout))
      · exact .inr (.inr (.inr hout)) }

theorem not_forwarding (hearly : e.phase = .starting ∨ e.phase = .connecting) :
    e.phase ≠ .forwarding := by
  rcases hearly with hphase | hphase <;> rw [hphase] <;> decide

/-- An end that has not started to forward has not left the stream, and has written nothing but
what it greets with. -/
theorem early (h : e.Sound) (hearly : e.phase = .starting ∨ e.phase = .connecting) :
    e.wire.ending = none ∧ e.wire.bytes.taken = e.greeted := by
  have hout := (h.before (not_forwarding hearly)).1
  constructor
  · refine h.left.mpr ⟨by rw [hout], ?_⟩
    rcases hearly with hphase | hphase <;> rw [hphase] <;> decide
  · rw [h.sent, hout]
    exact List.append_nil _

/-- A side that does not forward yet, and whatever it does next. -/
theorem turned (h : e.Sound) (hearly : e.phase = .starting ∨ e.phase = .connecting)
    {phase : Phase} {greeted heard : List UInt8} {wire : Wire}
    (hsent : wire.bytes.taken = greeted)
    (hleft : wire.ending = none ↔ phase ≠ .over ∧ phase ≠ .refused) :
    { e with phase, greeted, heard, wire : End }.Sound := by
  obtain ⟨hout, hinto, hcancelled, hinterrupted, hmain⟩ := h.before (not_forwarding hearly)
  rw [hout, hinto, hcancelled, hinterrupted, hmain]
  exact {
    before := fun _ => ⟨rfl, rfl, rfl, rfl, rfl⟩
    sent := by rw [hsent]; exact (List.append_nil _).symm
    left := by rw [hleft]; exact (and_iff_right rfl).symm
    out_ok := nofun
    out_cancelled := nofun
    into_ok := nofun
    cancelled := ⟨nofun, fun h => by rcases h with h | h | h <;> cases h⟩
    out_stopped := nofun
    into_stopped := nofun
    awaits_out := nofun
    returned_ok := nofun
    returned_error := nofun }

theorem interrupted (h : e.Sound) (hphase : e.phase = .forwarding) :
    { e with interrupted := true, cancelled := true : End }.Sound :=
  { h with
    before := fun hne => absurd hphase hne
    cancelled := iff_of_true rfl (.inl rfl)
    out_stopped := fun _ => rfl
    into_stopped := fun _ => rfl
    returned_error := fun hmain => ⟨rfl, (h.returned_error hmain).2⟩ }

/-- A task that did not end well has cancelled the token. -/
theorem cancelled_of_failed (h : e.Sound)
    (hfailed : e.into.status = .error ∨ e.into.status = .cancelled ∨
      e.out.status = .error ∨ e.out.status = .cancelled) : e.cancelled = true := by
  rcases hfailed with hinto | hinto | hout | hout
  · exact h.cancelled.mpr (.inr (.inr hinto))
  · exact h.into_stopped hinto
  · exact h.cancelled.mpr (.inr (.inl hout))
  · exact h.out_stopped hout

theorem joined (h : e.Sound) (hphase : e.phase = .forwarding)
    (hmain : ∀ ok, e.main ≠ .returned ok) (hover : e.awaited ≠ .running) :
    { e with main := e.main.next e.awaited : End }.Sound := by
  have hstays : ∀ main : Main, (main = .awaitsOut → e.into.status = .ok) →
      (main = .returned true → e.into.status = .ok ∧ e.out.status = .ok) →
      (main = .returned false → e.into.status = .error ∨ e.into.status = .cancelled ∨
        e.out.status = .error ∨ e.out.status = .cancelled) → { e with main : End }.Sound :=
    fun main hawaits hok herror => { h with
      before := fun hne => absurd hphase hne
      awaits_out := hawaits
      returned_ok := hok
      returned_error := fun hreturned =>
        ⟨h.cancelled_of_failed (herror hreturned), herror hreturned⟩ }
  unfold awaited at hover ⊢
  cases hmain' : e.main with
  | awaitsIn =>
    rw [hmain'] at hover
    cases hinto : e.into.status with
    | running => exact absurd hinto hover
    | ok => exact hstays _ (fun _ => hinto) nofun nofun
    | error => exact hstays _ nofun nofun fun _ => .inl hinto
    | cancelled => exact hstays _ nofun nofun fun _ => .inr (.inl hinto)
  | awaitsOut =>
    rw [hmain'] at hover
    cases hout : e.out.status with
    | running => exact absurd hout hover
    | ok => exact hstays _ nofun (fun _ => ⟨h.awaits_out hmain', hout⟩) nofun
    | error => exact hstays _ nofun nofun fun _ => .inr (.inr (.inl hout))
    | cancelled => exact hstays _ nofun nofun fun _ => .inr (.inr (.inr hout))
  | returned ok => exact absurd hmain' (hmain ok)

theorem act {a : Act} (h : e.Sound) (hmay : e.may side other a) : (e.act a).Sound := by
  cases a with
  | greet n =>
    obtain ⟨hending, hsent⟩ := h.early (.inl hmay.2.1)
    have hgreeted : (e.wire.bytes.take ((handshake.drop e.greeted.length).take n)).taken
        = e.greeted ++ (handshake.drop e.greeted.length).take n := by
      rw [Relay.taken_take, hsent]
    rw [End.act]
    dsimp only
    split_ifs with hwhole
    · exact h.turned (.inl hmay.2.1) hgreeted (iff_of_true hending ⟨nofun, nofun⟩)
    · refine h.turned (.inl hmay.2.1) hgreeted (iff_of_true hending ?_)
      rw [hmay.2.1]
      exact ⟨nofun, nofun⟩
  | connect =>
    obtain ⟨hending, hsent⟩ := h.early (.inr hmay)
    exact h.turned (.inr hmay) hsent (iff_of_true hending ⟨nofun, nofun⟩)
  | giveUp left =>
    exact h.turned hmay (h.early hmay).2 (iff_of_false nofun fun hne => hne.1 rfl)
  | read chunk => exact h.out_runs hmay.1 hmay.1.2 h.sent
  | readEnd => exact h.out_runs hmay.1 hmay.1.2 h.sent
  | send n =>
    refine h.out_runs hmay.1 hmay.1.2 ?_
    rw [Relay.taken_take, h.sent, Relay.given_give, List.append_assoc]
  | finish =>
    exact @out_over e h hmay.1 .ok .finished e.cancelled (fun _ => ⟨hmay.2.1, hmay.2.2, rfl⟩)
      nofun (by simp) nofun
  | receiveEnd => exact h.into_runs hmay.1 hmay.1.2
  | write n => exact h.into_runs hmay.1 hmay.1.2
  | done => exact @into_over e h hmay.1 .ok e.cancelled (fun _ => hmay.2) nofun (by simp)
  | fail task left =>
    cases task with
    | out => exact @out_over e h hmay .error left true nofun nofun (by simp) nofun
    | into => exact @into_over e h hmay .error true nofun nofun (by simp)
  | cancel task =>
    cases task with
    | out =>
      exact @out_over e h hmay.1 .cancelled .reset e.cancelled nofun (fun _ => ⟨rfl, hmay.2⟩)
        (by simp) nofun
    | into =>
      exact @into_over e h hmay.1 .cancelled e.cancelled nofun (fun _ => hmay.2) (by simp)
  | interrupt => exact h.interrupted hmay.1
  | join => exact h.joined hmay.1 hmay.2.1 hmay.2.2

theorem deliver (h : e.Sound) (n : Nat) : (e.deliver n).Sound :=
  { h with sent := (Relay.taken_give _ n).trans h.sent }

theorem receive (h : e.Sound) (hruns : e.Runs .into) (piece : List UInt8) :
    (e.receive piece).Sound :=
  h.into_runs hruns hruns.2

theorem hear (h : e.Sound) (hphase : e.phase = .starting) (piece : List UInt8) (left : Ending) :
    (e.hear piece left).Sound := by
  obtain ⟨hending, hsent⟩ := h.early (.inl hphase)
  rw [End.hear]
  dsimp only
  split_ifs with hshort hright
  · refine h.turned (.inl hphase) hsent (iff_of_true hending ?_)
    rw [hphase]
    exact ⟨nofun, nofun⟩
  · exact h.turned (.inl hphase) hsent (iff_of_true hending ⟨nofun, nofun⟩)
  · exact h.turned (.inl hphase) hsent (iff_of_false nofun fun hne => hne.2 rfl)

end End.Sound

/-! ## Both sides -/

/-- What the dialer has greeted with. -/
structure End.Dialing (e : End) : Prop where
  greeted : e.greeted <+: handshake
  heard : e.heard = []
  greeted_some : e.phase = .starting → e.greeted.length < handshake.length
  greeted_all : e.phase = .forwarding → e.greeted = handshake
  not_connecting : e.phase ≠ .connecting
  not_refused : e.phase ≠ .refused

/-- What the listener has heard. -/
structure End.Answering (e : End) : Prop where
  greeted : e.greeted = []
  heard_some : e.phase = .starting → e.heard.length < handshake.length
  heard_all : e.phase = .connecting ∨ e.phase = .forwarding → e.heard = handshake
  not_refused : e.phase ≠ .refused

/-- What the one has read, the other's wire has given; an end that is seen was put there, and
there is nothing before it any more. -/
structure Linked (a b : End) : Prop where
  given : a.wire.bytes.given = b.heard ++ b.into.bytes.taken
  ended : b.into.ended = true → a.wire.ending = some .finished ∧ a.wire.bytes.held = []

/-- The invariant of a stream. -/
structure Inv (s : Stream) : Prop where
  sound : ∀ side, (s side).Sound
  dialing : (s .dialer).Dialing
  answering : (s .listener).Answering
  linked : ∀ side, Linked (s side) (s side.other)

namespace End

variable (e : End) (a : Act)

theorem act_heard : (e.act a).heard = e.heard := by
  cases a with
  | greet n => rw [act]; dsimp only; split_ifs <;> rfl
  | fail task left => cases task <;> rfl
  | cancel task => cases task <;> rfl
  | _ => rfl

theorem act_given : (e.act a).wire.bytes.given = e.wire.bytes.given := by
  cases a with
  | greet n => rw [act]; dsimp only; split_ifs <;> rfl
  | fail task left => cases task <;> rfl
  | cancel task => cases task <;> rfl
  | _ => rfl

theorem act_taken : (e.act a).into.bytes.taken = e.into.bytes.taken := by
  cases a with
  | greet n => rw [act]; dsimp only; split_ifs <;> rfl
  | write n => exact Relay.taken_give _ n
  | fail task left => cases task <;> rfl
  | cancel task => cases task <;> rfl
  | _ => rfl

variable {e a} {side : Side} {other : End}

/-- An end is only told by the stream. -/
theorem ended_of_act (hended : (e.act a).into.ended = true) :
    e.into.ended = true ∨ a = .receiveEnd := by
  cases a with
  | greet n => rw [act] at hended; dsimp only at hended; split_ifs at hended <;> exact .inl hended
  | receiveEnd => exact .inr rfl
  | fail task left => cases task <;> exact .inl hended
  | cancel task => cases task <;> exact .inl hended
  | _ => exact .inl hended

/-- What has been left is not written to any more. -/
theorem act_wire (h : e.Sound) (hmay : e.may side other a) (hleft : e.wire.ending ≠ none) :
    (e.act a).wire = e.wire := by
  have hearly : ∀ {P : Prop}, e.phase = .starting ∨ e.phase = .connecting → P :=
    fun hphase => absurd (h.early hphase).1 hleft
  have hruns : ∀ {P : Prop}, e.Runs .out → P := fun ⟨hphase, hstatus⟩ =>
    absurd (h.left.mpr ⟨hstatus, by rw [hphase]; exact nofun, by rw [hphase]; exact nofun⟩) hleft
  cases a with
  | greet n => exact hearly (.inl hmay.2.1)
  | giveUp left => exact hearly hmay
  | send n => exact hruns hmay.1
  | finish => exact hruns hmay.1
  | fail task left =>
    cases task with
    | out => exact hruns hmay
    | into => rfl
  | cancel task =>
    cases task with
    | out => exact hruns hmay.1
    | into => rfl
  | _ => rfl

/-- The dialer keeps to its part. -/
theorem Dialing.act (h : e.Dialing) (hmay : e.may side other a) : (e.act a).Dialing := by
  cases a with
  | greet n =>
    have hpiece : e.greeted ++ (handshake.drop e.greeted.length).take n <+: handshake := by
      obtain ⟨rest, hrest⟩ := h.greeted
      rw [← hrest, List.drop_left]
      exact (List.prefix_append_right_inj _).mpr (List.take_prefix _ _)
    rw [End.act]
    dsimp only
    split_ifs with hwhole
    · exact ⟨hpiece, h.heard, nofun, fun _ => hwhole, nofun, nofun⟩
    · refine ⟨hpiece, h.heard, fun _ => ?_, fun hphase => ?_, h.not_connecting, h.not_refused⟩
      · exact Nat.lt_of_le_of_ne hpiece.length_le fun hlen => hwhole (hpiece.eq_of_length hlen)
      · rw [hmay.2.1] at hphase
        cases hphase
  | connect => exact absurd hmay h.not_connecting
  | giveUp left => exact ⟨h.greeted, h.heard, nofun, nofun, nofun, nofun⟩
  | fail task left => cases task <;> exact { h with }
  | cancel task => cases task <;> exact { h with }
  | _ => exact { h with }

/-- What the listener does keeps what is known of it. -/
theorem Answering.act (h : e.Answering) (hmay : e.may .listener other a) :
    (e.act a).Answering := by
  cases a with
  | greet n => exact absurd hmay.1 nofun
  | connect => exact ⟨h.greeted, nofun, fun _ => h.heard_all (.inl hmay), nofun⟩
  | giveUp left =>
    refine ⟨h.greeted, nofun, ?_, nofun⟩
    rintro (hphase | hphase) <;> cases hphase
  | fail task left => cases task <;> exact { h with }
  | cancel task => cases task <;> exact { h with }
  | _ => exact { h with }

/-- What the dialer has written starts with the handshake, as far as it goes. -/
theorem Dialing.taken_start (h : e.Dialing) (hsound : e.Sound) :
    e.wire.bytes.taken <+: handshake ++ e.out.bytes.given := by
  rw [hsound.sent]
  by_cases hphase : e.phase = .forwarding
  · simp only [h.greeted_all hphase, List.prefix_rfl]
  · rw [(hsound.before hphase).1]
    show e.greeted ++ [] <+: handshake ++ []
    rw [List.append_nil, List.append_nil]
    exact h.greeted

/-- What is long enough, and starts like the handshake, is the handshake. -/
theorem Answering.hear {dialer : End} {n : Nat} {left : Ending} (h : e.Answering)
    (hsound : e.Sound) (hphase : e.phase = .starting)
    (hlength : e.heard.length + n ≤ handshake.length)
    (hdialing : dialer.Dialing) (hdialer : dialer.Sound) (hlinked : Linked dialer e) :
    (e.hear (dialer.wire.bytes.held.take n) left).Answering := by
  have hinto : e.into = {} := (hsound.before (by rw [hphase]; decide)).2.1
  have hgiven :
      e.heard ++ dialer.wire.bytes.held.take n <+: handshake ++ dialer.out.bytes.given := by
    refine List.IsPrefix.trans ?_ (hdialing.taken_start hdialer)
    have hheard : dialer.wire.bytes.given = e.heard := by
      rw [hlinked.given, hinto]
      exact List.append_nil _
    rw [Relay.taken, hheard]
    exact (List.prefix_append_right_inj _).mpr (List.take_prefix _ _)
  rw [End.hear]
  dsimp only
  split_ifs with hshort hright
  · refine ⟨h.greeted, fun _ => hshort, ?_, h.not_refused⟩
    rw [hphase]
    rintro (hne | hne) <;> cases hne
  · refine ⟨h.greeted, fun hne => ?_, fun _ => hright, fun hne => ?_⟩ <;> cases hne
  · refine absurd ?_ hright
    have hle : (e.heard ++ dialer.wire.bytes.held.take n).length ≤ handshake.length := by
      rw [List.length_append, List.length_take]
      omega
    exact (List.prefix_of_prefix_length_le hgiven (List.prefix_append _ _) hle).eq_of_length
      (Nat.le_antisymm hle (Nat.le_of_not_lt hshort))

end End

namespace Linked

variable {a b : End} {act : Act} {side : Side} {other : End}

theorem act_left (h : Linked a b) (ha : a.Sound) (hmay : a.may side other act) :
    Linked (a.act act) b where
  given := by rw [End.act_given, h.given]
  ended hended := by
    have hleft : a.wire.ending ≠ none := by rw [(h.ended hended).1]; exact nofun
    rw [End.act_wire ha hmay hleft]
    exact h.ended hended

theorem act_right (h : Linked a b) (hmay : b.may side a act) : Linked a (b.act act) where
  given := by rw [End.act_heard, End.act_taken, h.given]
  ended hended := by
    rcases End.ended_of_act hended with hended | rfl
    · exact h.ended hended
    · exact ⟨hmay.2.2.2, hmay.2.2.1⟩

theorem receive (h : Linked a b) (hended : b.into.ended = false) (n : Nat) :
    Linked (a.deliver n) (b.receive (a.wire.bytes.held.take n)) where
  given := by
    show a.wire.bytes.given ++ _ = b.heard ++ (b.into.bytes.take _).taken
    rw [h.given, Relay.taken_take, List.append_assoc]
  ended h := by rw [show b.into.ended = true from h] at hended; cases hended

theorem hear (h : Linked a b) (hinto : b.into = {}) (n : Nat) (left : Ending) :
    Linked (a.deliver n) (b.hear (a.wire.bytes.held.take n) left) := by
  have hheard : a.wire.bytes.given ++ a.wire.bytes.held.take n
      = (b.heard ++ a.wire.bytes.held.take n) ++ b.into.bytes.taken := by
    rw [h.given, hinto]
    show (b.heard ++ []) ++ _ = _ ++ []
    rw [List.append_nil, List.append_nil]
  have hended : b.into.ended = true → False := by rw [hinto]; exact nofun
  rw [End.hear]
  dsimp only
  split_ifs <;> exact ⟨hheard, fun h => (hended h).elim⟩

/-- What concerns the other direction only. -/
theorem of_same {a' b' : End} (h : Linked a b) (hwire : a'.wire = a.wire)
    (hheard : b'.heard = b.heard) (hinto : b'.into = b.into) : Linked a' b' where
  given := by rw [hwire, hheard, hinto, h.given]
  ended hended := by
    rw [hinto] at hended
    rw [hwire]
    exact h.ended hended

end Linked

/-! ## Throughout -/

namespace Inv

variable {s : Stream}

theorem opened : Inv opened where
  sound _ := {
    before := fun _ => ⟨rfl, rfl, rfl, rfl, rfl⟩
    sent := rfl
    left := ⟨fun _ => ⟨rfl, nofun, nofun⟩, fun _ => rfl⟩
    out_ok := nofun
    out_cancelled := nofun
    into_ok := nofun
    cancelled := ⟨nofun, by rintro (h | h | h) <;> cases h⟩
    out_stopped := nofun
    into_stopped := nofun
    awaits_out := nofun
    returned_ok := nofun
    returned_error := nofun }
  dialing := ⟨List.nil_prefix, rfl, fun _ => by decide, nofun, nofun, nofun⟩
  answering := by
    refine ⟨rfl, fun _ => by decide, ?_, nofun⟩
    rintro (hphase | hphase) <;> cases hphase
  linked _ := ⟨rfl, nofun⟩

/-- From what holds of the two ends. -/
theorem of_ends (hdialer : (s .dialer).Sound) (hlistener : (s .listener).Sound)
    (hdialing : (s .dialer).Dialing) (hanswering : (s .listener).Answering)
    (hthere : Linked (s .dialer) (s .listener)) (hback : Linked (s .listener) (s .dialer)) :
    Inv s where
  sound side := by
    cases side with
    | dialer => exact hdialer
    | listener => exact hlistener
  dialing := hdialing
  answering := hanswering
  linked side := by
    cases side with
    | dialer => exact hthere
    | listener => exact hback

theorem act {side : Side} {a : Act} (h : Inv s) (hmay : (s side).may side (s side.other) a) :
    Inv (step s (.act side a)) := by
  cases side with
  | dialer =>
    exact of_ends ((h.sound .dialer).act hmay) (h.sound .listener) (h.dialing.act hmay)
      h.answering ((h.linked .dialer).act_left (h.sound .dialer) hmay)
      ((h.linked .listener).act_right hmay)
  | listener =>
    exact of_ends (h.sound .dialer) ((h.sound .listener).act hmay) h.dialing
      (h.answering.act hmay) ((h.linked .dialer).act_right hmay)
      ((h.linked .listener).act_left (h.sound .listener) hmay)

theorem receive {side : Side} {n : Nat} (h : Inv s) (hallowed : allowed s (.receive side n)) :
    Inv (step s (.receive side n)) := by
  obtain ⟨hruns, hended, -, -⟩ := hallowed
  cases side with
  | dialer =>
    exact of_ends ((h.sound .dialer).receive hruns _) ((h.sound .listener).deliver n)
      { h.dialing with } { h.answering with }
      ((h.linked .dialer).of_same rfl rfl rfl) ((h.linked .listener).receive hended n)
  | listener =>
    exact of_ends ((h.sound .dialer).deliver n) ((h.sound .listener).receive hruns _)
      { h.dialing with } { h.answering with }
      ((h.linked .dialer).receive hended n) ((h.linked .listener).of_same rfl rfl rfl)

theorem hear {n : Nat} {left : Ending} (h : Inv s) (hallowed : allowed s (.hear n left)) :
    Inv (step s (.hear n left)) := by
  obtain ⟨hphase, -, hlength, -⟩ := hallowed
  have hearly := (h.sound .listener).early (.inl hphase)
  obtain ⟨-, hinto, -⟩ := (h.sound .listener).before (by rw [hphase]; exact nofun)
  have hback : (s .dialer).into.ended = true → False := fun hended => by
    have hending := ((h.linked .listener).ended hended).1
    rw [show (s Side.listener).wire.ending = none from hearly.1] at hending
    cases hending
  have hgiven : ∀ piece,
      ((s .listener).hear piece left).wire.bytes = (s .listener).wire.bytes := by
    intro piece
    rw [End.hear]
    dsimp only
    split_ifs <;> rfl
  exact of_ends ((h.sound .dialer).deliver n) ((h.sound .listener).hear hphase _ left)
    { h.dialing with }
    (h.answering.hear (h.sound .listener) hphase hlength h.dialing (h.sound .dialer)
      (h.linked .dialer))
    ((h.linked .dialer).hear hinto n left)
    { given := (congrArg Relay.given (hgiven _)).trans (h.linked .listener).given
      ended := fun hended => (hback hended).elim }

theorem step (h : Inv s) {e : Event} (he : allowed s e) : Inv (step s e) := by
  cases e with
  | act side a => exact h.act he
  | hear n left => exact h.hear he
  | receive side n => exact h.receive he

/-- The invariant holds in every state reached. -/
theorem of_reached (h : Reached Tunnel.step allowed Tunnel.opened s) : Inv s :=
  h.invariant opened fun _ _ hinv he => hinv.step he

/-- Nobody forwards before it has heard all that the other greets with. -/
theorem heard (h : Inv s) {side : Side} (hphase : (s side.other).phase = .forwarding) :
    (s side.other).heard = (s side).greeted := by
  cases side with
  | listener => exact h.dialing.heard.trans h.answering.greeted.symm
  | dialer =>
    have hheard : (s .listener).heard = handshake := h.answering.heard_all (.inr hphase)
    refine hheard.trans ?_
    by_cases hforwarding : (s .dialer).phase = .forwarding
    · exact (h.dialing.greeted_all hforwarding).symm
    · have hout := ((h.sound .dialer).before hforwarding).1
      have hfirst := Relay.given_first (s .dialer).wire.bytes
      rw [(h.linked .dialer).given, (h.sound .dialer).sent, hout] at hfirst
      change (s .listener).heard ++ _ <+: (s .dialer).greeted ++ [] at hfirst
      rw [hheard, List.append_nil] at hfirst
      have hwhole := (List.prefix_append _ _).trans hfirst
      exact hwhole.eq_of_length (Nat.le_antisymm hwhole.length_le h.dialing.greeted.length_le)

/-- Nothing is given before the forwarding begins. -/
theorem into_of_early (h : Inv s) {side : Side} (hphase : (s side).phase ≠ .forwarding) :
    (s side).into = {} :=
  ((h.sound side).before hphase).2.1

/-- What one side's `copy_from_stream` has taken off the stream is a first part of what the
other's `copy_to_stream` has given to it. -/
theorem fed (h : Inv s) (side : Side) :
    (s side.other).into.bytes.taken <+: (s side).out.bytes.given := by
  by_cases hphase : (s side.other).phase = .forwarding
  · have hfirst := Relay.given_first (s side).wire.bytes
    rw [(h.linked side).given, (h.sound side).sent, h.heard hphase] at hfirst
    exact (List.prefix_append_right_inj _).mp hfirst
  · rw [h.into_of_early hphase]
    exact List.nil_prefix

theorem fed_of_held_nil (h : Inv s) {side : Side} (hphase : (s side.other).phase = .forwarding)
    (hheld : (s side).wire.bytes.held = []) :
    (s side.other).into.bytes.taken = (s side).out.bytes.given := by
  have hall := Relay.given_of_held_nil hheld
  rw [(h.linked side).given, (h.sound side).sent, h.heard hphase] at hall
  exact List.append_cancel_left hall

/-- An end is told that the other one has finished only after everything it wrote. -/
theorem fed_all (h : Inv s) {side : Side} (hended : (s side.other).into.ended = true) :
    (s side.other).into.bytes.taken = (s side).out.bytes.given := by
  have hphase : (s side.other).phase = .forwarding := by
    by_contra hne
    rw [h.into_of_early hne] at hended
    cases hended
  exact h.fed_of_held_nil hphase ((h.linked side).ended hended).2

/-- An end that is seen stands for an end, or for a failure; a cancelled copy never looks like
one. -/
theorem end_of_ended (h : Inv s) {side : Side} (hended : (s side.other).into.ended = true) :
    (s side).out.status = .ok ∨ (s side).out.status = .error ∨ (s side).phase = .over := by
  have hending := ((h.linked side).ended hended).1
  cases hout : (s side).out.status with
  | ok => exact .inl rfl
  | error => exact .inr (.inl rfl)
  | cancelled =>
    have := (h.sound side).out_cancelled hout
    rw [hending] at this
    cases this
  | running =>
    refine .inr (.inr ?_)
    by_contra hover
    have hrefused : (s side).phase ≠ .refused := by
      cases side with
      | dialer => exact h.dialing.not_refused
      | listener => exact h.answering.not_refused
    rw [(h.sound side).left.mpr ⟨hout, hover, hrefused⟩] at hending
    cases hending

end Inv

/-! ## What holds of every stream -/

variable {s : Stream}

/-- The listener connects to the service for a complete handshake only, and never refuses one.
What a local program is given is a first part of what the other one has sent, byte for byte; if
`copy_from_stream` has ended well, it is all that was handed over, and that is all there was
unless the other side failed. -/
theorem tunnel_faithful (h : Reached step allowed opened s) :
    (s .listener).phase ≠ .refused ∧
    ((s .listener).phase = .connecting ∨ (s .listener).phase = .forwarding →
      (s .listener).heard = handshake) ∧
    ∀ side : Side,
      (s side.other).into.bytes.given <+: (s side).out.bytes.taken ∧
      ((s side.other).into.status = .ok →
        (s side.other).into.bytes.given = (s side).out.bytes.given ∧
        ((s side).out.ended = true ∧ (s side).out.bytes.given = (s side).out.bytes.taken ∨
          (s side).out.status = .error ∨ (s side).phase = .over)) := by
  have hinv := Inv.of_reached h
  refine ⟨hinv.answering.not_refused, hinv.answering.heard_all, fun side => ⟨?_, fun hok => ?_⟩⟩
  · exact Relay.given_of_fed (hinv.fed side)
  · obtain ⟨hended, hheld⟩ := (hinv.sound side.other).into_ok hok
    refine ⟨(Relay.given_of_held_nil hheld).trans (hinv.fed_all hended), ?_⟩
    rcases hinv.end_of_ended hended with hout | hfailed
    · obtain ⟨hout, hnone, -⟩ := (hinv.sound side).out_ok hout
      exact .inl ⟨hout, Relay.given_of_held_nil hnone⟩
    · exact .inr hfailed

/-- If `forward_bidi` returns `Ok`, the local program has been given all that the other side
handed over, and all that it sent until it ended has been handed over; on both sides, it is all
that either sent. If it returns an error, one of the two copies failed or was cancelled, and the
other one is told to stop. The token is cancelled by nothing but ctrl-c or a copy that failed. -/
theorem forward_verdict (h : Reached step allowed opened s) :
    (∀ side : Side,
      ((s side).main = .returned true →
        (s side).into.bytes.given = (s side.other).out.bytes.given ∧
        (s side).out.ended = true ∧ (s side).out.bytes.given = (s side).out.bytes.taken) ∧
      ((s side).main = .returned false → (s side).cancelled = true ∧
        ((s side).into.status = .error ∨ (s side).into.status = .cancelled ∨
          (s side).out.status = .error ∨ (s side).out.status = .cancelled)) ∧
      ((s side).cancelled = true ↔ (s side).interrupted = true ∨
        (s side).out.status = .error ∨ (s side).into.status = .error)) ∧
    ((∀ side, (s side).main = .returned true) →
      ∀ side : Side, (s side.other).into.bytes.given = (s side).out.bytes.taken) := by
  have hinv := Inv.of_reached h
  have hreturned : ∀ side : Side, (s side).main = .returned true →
      (s side).into.bytes.given = (s side.other).out.bytes.given ∧
      (s side).out.ended = true ∧ (s side).out.bytes.given = (s side).out.bytes.taken := by
    intro side hmain
    obtain ⟨hinto, hout⟩ := (hinv.sound side).returned_ok hmain
    obtain ⟨hended, hheld⟩ := (hinv.sound side).into_ok hinto
    obtain ⟨houtEnded, houtHeld, -⟩ := (hinv.sound side).out_ok hout
    refine ⟨?_, houtEnded, Relay.given_of_held_nil houtHeld⟩
    have hfed := @Inv.fed_all s hinv side.other
    rw [side.other_other] at hfed
    rw [Relay.given_of_held_nil hheld]
    exact hfed hended
  refine ⟨fun side => ⟨hreturned side, (hinv.sound side).returned_error,
    (hinv.sound side).cancelled⟩, fun hall side => ?_⟩
  have hgiven := (hreturned side.other (hall _)).1
  rw [side.other_other] at hgiven
  exact hgiven.trans (hreturned side (hall _)).2.2

/-- One side asks, and the other one answers. -/
def exchange : List Event :=
  [.act .dialer (.greet 2), .hear 1 .reset, .act .dialer (.greet 3), .hear 4 .reset,
    .act .dialer (.read [63]), .act .dialer (.send 1), .act .listener .connect,
    .act .dialer .readEnd, .act .dialer .finish, .receive .listener 1,
    .act .listener .receiveEnd, .act .listener (.write 1), .act .listener .done,
    .act .listener (.read [52, 50]), .act .listener (.send 1), .receive .dialer 1,
    .act .listener .readEnd, .act .listener (.send 1), .act .listener .finish,
    .act .listener .join, .act .listener .join, .receive .dialer 1, .act .dialer (.write 2),
    .act .dialer .receiveEnd, .act .dialer .done, .act .dialer .join, .act .dialer .join]

/-- The stream after the exchange. -/
def exchanged : Stream := exchange.foldl step opened

theorem tunnel_faithful_exchange :
    (exchanged .dialer).into.bytes.given = [52, 50] ∧
      (exchanged .listener).out.bytes.taken = [52, 50] ∧
      (exchanged .dialer).into.bytes.given <+: (exchanged .listener).out.bytes.taken :=
  ⟨by decide, by decide,
    ((tunnel_faithful (Permitted.reached (by decide) .start)).2.2 .listener).1⟩

theorem forward_verdict_exchange :
    (∀ side, (exchanged side).main = .returned true) ∧
      ∀ side : Side,
        (exchanged side.other).into.bytes.given = (exchanged side).out.bytes.taken := by
  have hreturned : ∀ side, (exchanged side).main = .returned true := by
    intro side
    cases side <;> decide
  exact ⟨hreturned, (forward_verdict (Permitted.reached (by decide) .start)).2 hreturned⟩

end HostServices.Tunnel
