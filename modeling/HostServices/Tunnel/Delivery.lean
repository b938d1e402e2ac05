import HostServices.Tunnel.Stream

/-!
# What a quiet tunnel delivers

As long as nothing fails and nobody interrupts it, the tunnel brings over all that is put into it:
what it does on its own comes to an end, and then everything is where it belongs.

- `Event.calm`, `Event.onward`: nothing goes wrong, and nothing more is read;
- `work`: what is left to be done;
- `tunnel_delivers`: it is done within so many steps, and all of it.
-/

namespace HostServices.Tunnel

open HostServices.Lib

variable {s : Stream} {e other : End} {a : Act} {side : Side}

/-! ## Steps without trouble -/

/-- Nothing fails, and nobody interrupts. -/
def Act.calm : Act → Bool
  | .giveUp _ | .fail _ _ | .cancel _ | .interrupt => false
  | _ => true

/-- The event is a calm one. -/
def Event.calm : Event → Bool
  | .act _ a => a.calm
  | .hear _ _ | .receive _ _ => true

/-- Neither local program is read from. -/
def Event.onward : Event → Bool
  | .act _ (.read _) | .act _ .readEnd => false
  | e => e.calm

/-- A calm event that is allowed. -/
def calmly (s : Stream) (e : Event) : Prop := e.calm = true ∧ allowed s e

/-- A calm event that reads nothing more from a local program, and is allowed. -/
def onwards (s : Stream) (e : Event) : Prop := e.onward = true ∧ allowed s e

instance (s : Stream) (e : Event) : Decidable (calmly s e) := inferInstanceAs (Decidable (_ ∧ _))

/-- Nothing has gone wrong so far. -/
structure End.Untroubled (e : End) : Prop where
  phase : e.phase ≠ .over
  out : e.out.status = .running ∨ e.out.status = .ok
  into : e.into.status = .running ∨ e.into.status = .ok
  main : e.main ≠ .returned false

namespace End.Untroubled

theorem joined (h : e.Untroubled) (hover : e.awaited ≠ .running) :
    e.main.next e.awaited ≠ .returned false := by
  have hok : e.awaited = .ok := by
    unfold awaited at hover ⊢
    split at hover
    · exact h.into.resolve_left hover
    · exact h.out.resolve_left hover
    · exact h.out.resolve_left hover
  rw [hok]
  cases hmain : e.main with
  | awaitsIn => exact nofun
  | awaitsOut => exact nofun
  | returned ok =>
    show Main.returned ok ≠ .returned false
    rw [← hmain]
    exact h.main

theorem act (h : e.Untroubled) (hmay : e.may side other a) (hcalm : a.calm = true) :
    (e.act a).Untroubled := by
  cases a with
  | greet n =>
    rw [End.act]
    dsimp only
    split_ifs
    · exact { h with phase := fun hover => by cases hover }
    · exact { h with }
  | connect => exact { h with phase := fun hover => by cases hover }
  | finish => exact ⟨h.phase, .inr rfl, h.into, h.main⟩
  | done => exact ⟨h.phase, h.out, .inr rfl, h.main⟩
  | join => exact ⟨h.phase, h.out, h.into, h.joined hmay.2.2⟩
  | giveUp left => cases hcalm
  | fail task left => cases hcalm
  | cancel task => cases hcalm
  | interrupt => cases hcalm
  | _ => exact { h with }

theorem hear (h : e.Untroubled) (piece : List UInt8) (left : Ending) :
    (e.hear piece left).Untroubled := by
  rw [End.hear]
  dsimp only
  split_ifs
  · exact { h with }
  · exact { h with phase := fun hover => by cases hover }
  · exact { h with phase := fun hover => by cases hover }

end End.Untroubled

/-- Without trouble nothing is ever cancelled. -/
theorem untroubled (h : Reached step calmly opened s) : ∀ side, (s side).Untroubled := by
  refine Reached.invariant (P := fun s : Stream => ∀ side, (s side).Untroubled) h
    (fun _ => ⟨nofun, .inl rfl, .inl rfl, nofun⟩) ?_
  intro s event hs ⟨hcalm, hallowed⟩ side
  cases event with
  | act actor a =>
    by_cases hside : side = actor
    · subst hside
      rw [step, Function.update_self]
      exact (hs side).act hallowed hcalm
    · rw [step, Function.update_of_ne hside]
      exact hs side
  | hear n left =>
    cases side with
    | dialer => exact { hs .dialer with }
    | listener => exact (hs .listener).hear _ left
  | receive receiver n =>
    cases receiver <;> cases side <;> exact { hs _ with }

/-! ## It comes to an end -/

/-- A byte of the handshake is written, sent and read. -/
def Phase.work (greeted : List UInt8) : Phase → Nat
  | .starting => 2 + 3 * (handshake.length - greeted.length)
  | .connecting => 1
  | .forwarding | .over | .refused => 0

/-- A task that runs has still to end. -/
def Status.work : Status → Nat
  | .running => 1
  | .ok | .error | .cancelled => 0

/-- The steps that a copy has before it beside those of its bytes. -/
def Copy.work (c : Copy) : Nat := (!c.ended).toNat + c.status.work

/-- The tasks that are still waited for. -/
def Main.work : Main → Nat
  | .awaitsIn => 2
  | .awaitsOut => 1
  | .returned _ => 0

/-- A byte that was read from a socket is sent, received and written. -/
def End.work (e : End) : Nat :=
  3 * e.out.bytes.held.length + 2 * e.wire.bytes.held.length + e.into.bytes.held.length
    + e.phase.work e.greeted + e.out.work + e.into.work + e.main.work

/-- What is left to be done. -/
def work (s : Stream) : Nat := (s .dialer).work + (s .listener).work

/-- Whatever was waited for is one thing less to wait for. -/
theorem Main.next_work {main : Main} {status : Status} (hmain : ∀ ok, main ≠ .returned ok)
    (hover : status ≠ .running) : (main.next status).work < main.work := by
  cases main with
  | returned ok => exact absurd rfl (hmain ok)
  | awaitsIn => cases status <;> first | exact absurd rfl hover | decide
  | awaitsOut => cases status <;> first | exact absurd rfl hover | decide

namespace End

/-- What a side does on its own is work done. -/
theorem work_act (hmay : e.may side other a) (honward : (Event.act side a).onward = true) :
    (e.act a).work < e.work := by
  cases a with
  | greet n =>
    obtain ⟨-, hphase, hn, hlength⟩ := hmay
    have hpiece : ((handshake.drop e.greeted.length).take n).length = n := by
      rw [List.length_take, List.length_drop]
      omega
    simp only [act, work, hphase]
    split_ifs <;> simp [Phase.work, hpiece] <;> omega
  | connect =>
    have hphase : e.phase = .connecting := hmay
    simp only [act, work, hphase, Phase.work]
    omega
  | send n =>
    obtain ⟨-, hn, hheld⟩ := hmay
    simp only [act, work, Copy.work, Relay.held_give, Relay.held_take, List.length_drop,
      List.length_append, List.length_take, Nat.min_eq_left hheld]
    omega
  | finish =>
    have hrunning : e.out.status = .running := hmay.1.2
    simp only [act, work, leave, Copy.work, hrunning, Status.work]
    omega
  | receiveEnd =>
    simp only [act, work, Copy.work, hmay.2.1, Bool.not_true, Bool.not_false, Bool.toNat_true,
      Bool.toNat_false]
    omega
  | write n =>
    obtain ⟨-, hn, hheld⟩ := hmay
    simp only [act, work, Copy.work, Relay.held_give, List.length_drop]
    omega
  | done =>
    have hrunning : e.into.status = .running := hmay.1.2
    simp only [act, work, Copy.work, hrunning, Status.work]
    omega
  | join =>
    have hless := Main.next_work hmay.2.1 hmay.2.2
    simp only [act, work]
    omega
  | _ => cases honward

/-- Reading a byte off the stream is worth two. -/
theorem work_deliver {n : Nat} (hn : n ≤ e.wire.bytes.held.length) :
    (e.deliver n).work + 2 * n = e.work := by
  simp only [work, deliver, Relay.held_give, List.length_drop]
  omega

theorem work_receive (e : End) (piece : List UInt8) :
    (e.receive piece).work = e.work + piece.length := by
  simp only [work, receive, Relay.held_take, List.length_append, Copy.work]
  omega

theorem work_hear (hphase : e.phase = .starting) (piece : List UInt8) (left : Ending) :
    (e.hear piece left).work ≤ e.work := by
  rw [hear]
  dsimp only
  split_ifs
  · exact Nat.le_refl _
  · simp only [work, hphase, Phase.work]
    omega
  · simp only [work, leave, hphase, Phase.work]
    omega

end End

/-- **Every step onwards is work done.** -/
theorem work_step {event : Event} (he : onwards s event) : work (step s event) < work s := by
  obtain ⟨honward, hallowed⟩ := he
  cases event with
  | act side a =>
    have hless : ((s side).act a).work < (s side).work := End.work_act hallowed honward
    cases side with
    | dialer =>
      show ((s .dialer).act a).work + (s .listener).work < _
      exact Nat.add_lt_add_right hless _
    | listener =>
      show (s .dialer).work + ((s .listener).act a).work < _
      exact Nat.add_lt_add_left hless _
  | hear n left =>
    obtain ⟨hphase, hn, -, hheld⟩ := hallowed
    have hdialer := End.work_deliver hheld
    have hlistener := End.work_hear hphase ((s .dialer).wire.bytes.held.take n) left
    show ((s .dialer).deliver n).work + ((s .listener).hear _ left).work
      < (s .dialer).work + (s .listener).work
    omega
  | receive side n =>
    obtain ⟨-, -, hn, hheld⟩ := hallowed
    have hother := End.work_deliver hheld
    have hside := End.work_receive (s side) ((s side.other).wire.bytes.held.take n)
    rw [List.length_take, Nat.min_eq_left hheld] at hside
    cases side with
    | dialer =>
      show ((s .dialer).receive _).work + ((s .listener).deliver n).work
        < (s .dialer).work + (s .listener).work
      change ((s .listener).deliver n).work + 2 * n = (s .listener).work at hother
      omega
    | listener =>
      show ((s .dialer).deliver n).work + ((s .listener).receive _).work
        < (s .dialer).work + (s .listener).work
      change ((s .dialer).deliver n).work + 2 * n = (s .dialer).work at hother
      omega

/-! ## It is all delivered -/

/-- A state in which the tunnel can do nothing more, unless something is read or goes wrong. -/
structure Settled (s : Stream) : Prop where
  inv : Inv s
  untroubled : ∀ side, (s side).Untroubled
  settled : ∀ event, ¬ onwards s event

namespace Settled

theorem dialer_forwards (h : Settled s) : (s .dialer).phase = .forwarding := by
  cases hphase : (s .dialer).phase with
  | forwarding => rfl
  | connecting => exact absurd hphase h.inv.dialing.not_connecting
  | refused => exact absurd hphase h.inv.dialing.not_refused
  | starting =>
    exact absurd ⟨rfl, rfl, hphase, Nat.one_pos, h.inv.dialing.greeted_some hphase⟩
      (h.settled (.act .dialer (.greet 1)))
  | _ => exact absurd hphase (h.untroubled .dialer).phase

/-- The whole handshake has been written, and the listener reads on until it has it. -/
theorem listener_forwards (h : Settled s) : (s .listener).phase = .forwarding := by
  cases hphase : (s .listener).phase with
  | forwarding => rfl
  | connecting => exact absurd ⟨rfl, hphase⟩ (h.settled (.act .listener .connect))
  | refused => exact absurd hphase h.inv.answering.not_refused
  | starting =>
    have hheard := h.inv.answering.heard_some hphase
    refine absurd ⟨rfl, hphase, Nat.one_pos, hheard, ?_⟩ (h.settled (.hear 1 .reset))
    rw [Nat.one_le_iff_ne_zero, Ne, List.length_eq_zero_iff]
    intro hheld
    have hall := Relay.given_of_held_nil hheld
    rw [(h.inv.linked .dialer).given, (h.inv.sound .dialer).sent,
      h.inv.dialing.greeted_all h.dialer_forwards] at hall
    have hinto : (s Side.dialer.other).into = {} :=
      ((h.inv.sound .listener).before (by rw [hphase]; exact nofun)).2.1
    rw [hinto] at hall
    have hlength := congrArg List.length hall
    simp only [List.length_append] at hlength
    change (s .listener).heard.length + 0 = _ at hlength
    omega
  | _ => exact absurd hphase (h.untroubled .listener).phase

/-- Where nothing can happen both sides forward. -/
theorem forwards (h : Settled s) (side : Side) : (s side).phase = .forwarding := by
  cases side with
  | dialer => exact h.dialer_forwards
  | listener => exact h.listener_forwards

theorem out_held (h : Settled s) (side : Side) : (s side).out.bytes.held = [] := by
  rcases (h.untroubled side).out with hrunning | hok
  · by_contra hheld
    exact h.settled (.act side (.send 1))
      ⟨rfl, ⟨h.forwards side, hrunning⟩, Nat.one_pos, List.length_pos_iff.mpr hheld⟩
  · exact ((h.inv.sound side).out_ok hok).2.1

theorem wire_held (h : Settled s) (side : Side) : (s side).wire.bytes.held = [] := by
  by_contra hheld
  have hended : (s side.other).into.ended = false := by
    by_contra hended
    exact hheld ((h.inv.linked side).ended (eq_true_of_ne_false hended)).2
  rcases (h.untroubled side.other).into with hrunning | hok
  · refine h.settled (.receive side.other 1)
      ⟨rfl, ⟨h.forwards _, hrunning⟩, hended, Nat.one_pos, ?_⟩
    rw [side.other_other]
    exact List.length_pos_iff.mpr hheld
  · rw [((h.inv.sound side.other).into_ok hok).1] at hended
    cases hended

theorem into_held (h : Settled s) (side : Side) : (s side).into.bytes.held = [] := by
  rcases (h.untroubled side).into with hrunning | hok
  · by_contra hheld
    exact h.settled (.act side (.write 1))
      ⟨rfl, ⟨h.forwards side, hrunning⟩, Nat.one_pos, List.length_pos_iff.mpr hheld⟩
  · exact ((h.inv.sound side).into_ok hok).2

/-- In a settled state, all that was read from one program has been given to the other. -/
theorem delivered (h : Settled s) (side : Side) :
    (s side.other).into.bytes.given = (s side).out.bytes.taken := by
  rw [Relay.given_of_held_nil (h.into_held side.other),
    h.inv.fed_of_held_nil (h.forwards side.other) (h.wire_held side),
    Relay.given_of_held_nil (h.out_held side)]

/-- A program that has ended has been told on. -/
theorem out_ok (h : Settled s) (hended : (s side).out.ended = true) :
    (s side).out.status = .ok := by
  rcases (h.untroubled side).out with hrunning | hok
  · exact absurd ⟨rfl, ⟨h.forwards side, hrunning⟩, hended, h.out_held side⟩
      (h.settled (.act side .finish))
  · exact hok

/-- An end goes all the way. -/
theorem into_ok (h : Settled s) (hended : (s side).out.ended = true) :
    (s side.other).into.status = .ok := by
  rcases (h.untroubled side.other).into with hrunning | hok
  · exfalso
    have hruns : (s side.other).Runs .into := ⟨h.forwards _, hrunning⟩
    cases hinto : (s side.other).into.ended with
    | true =>
      exact h.settled (.act side.other .done) ⟨rfl, hruns, hinto, h.into_held _⟩
    | false =>
      refine h.settled (.act side.other .receiveEnd) ⟨rfl, hruns, hinto, ?_⟩
      rw [side.other_other]
      exact ⟨h.wire_held side, ((h.inv.sound side).out_ok (h.out_ok hended)).2.2⟩
  · exact hok

/-- Once both have ended both sides are done. -/
theorem returned (h : Settled s) (hended : ∀ side, (s side).out.ended = true) (side : Side) :
    (s side).main = .returned true := by
  have hout := h.out_ok (hended side)
  have hinto : (s side).into.status = .ok := by
    have := h.into_ok (hended side.other)
    rwa [side.other_other] at this
  have hjoin : (∀ ok, (s side).main ≠ .returned ok) → (s side).awaited = .ok → False :=
    fun hmain hok => h.settled (.act side .join)
      ⟨rfl, h.forwards side, hmain, by rw [hok]; exact nofun⟩
  cases hmain : (s side).main with
  | awaitsIn =>
    refine (hjoin (by rw [hmain]; exact nofun) ?_).elim
    rw [End.awaited, hmain]
    exact hinto
  | awaitsOut =>
    refine (hjoin (by rw [hmain]; exact nofun) ?_).elim
    rw [End.awaited, hmain]
    exact hout
  | returned ok =>
    cases ok with
    | true => rfl
    | false => exact absurd hmain (h.untroubled side).main

end Settled

/-- As long as nothing fails and nobody interrupts it, the tunnel gets on by itself: there is only
so much it can do until something more is read, and when it has done that, both sides forward,
each local program has been given all that was read from the other one, and an end has gone all
the way to the other side, whether or not the opposite direction has ended. When both have, both
sides have returned `Ok`. -/
theorem tunnel_delivers (h : Reached step calmly opened s) :
    (∀ events, Permitted step onwards s events → events.length ≤ work s) ∧
    ((∀ event, ¬ onwards s event) →
      (∀ side : Side, (s side).phase = .forwarding ∧
        (s side.other).into.bytes.given = (s side).out.bytes.taken ∧
        ((s side).out.ended = true →
          (s side).out.status = .ok ∧ (s side.other).into.status = .ok)) ∧
      ((∀ side, (s side).out.ended = true) → ∀ side, (s side).main = .returned true)) := by
  refine ⟨fun events hevents => hevents.length_le fun _ _ => work_step, fun hsettled => ?_⟩
  have hs : Settled s := ⟨Inv.of_reached (h.mono fun _ _ => And.right), untroubled h, hsettled⟩
  exact ⟨fun side => ⟨hs.forwards side, hs.delivered side,
    fun hended => ⟨hs.out_ok hended, hs.into_ok hended⟩⟩, hs.returned⟩

theorem tunnel_delivers_exchange :
    (∀ event, ¬ onwards exchanged event) ∧
      (exchanged .listener).into.bytes.given = (exchanged .dialer).out.bytes.taken ∧
      (exchanged .listener).main = .returned true := by
  have hdelivers := @tunnel_delivers exchanged (Permitted.reached (by decide) .start)
  have hdone : ∀ event, ¬ onwards exchanged event := by
    intro event hevent
    have hle : 1 ≤ work exchanged := hdelivers.1 [event] ⟨hevent, trivial⟩
    revert hle
    decide
  have hended : ∀ side, (exchanged side).out.ended = true := by
    intro side
    cases side <;> decide
  exact ⟨hdone, ((hdelivers.2 hdone).1 .dialer).2.1, (hdelivers.2 hdone).2 hended .listener⟩

end HostServices.Tunnel
