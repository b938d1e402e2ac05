import HostServices.Lib.Relay
import HostServices.Lib.Runs
import HostServices.Lib.Utf8
import Mathlib.Logic.Function.Basic

/-!
# A stream of the tunnel (`packages/iroh-ssh`)

Whatever connects to the dialing side is carried over a stream of its own to a connection that
the listening side makes. The dialer opens the stream and writes a handshake; the listener reads
it, connects to the service, and from then on both run `forward_bidi`: two copy loops in tasks of
their own, a cancellation token they share, and a third task that waits for ctrl-c. The copy loop
(`Copy`) and the QUIC stream (`Wire`) are not of the repository; they stand for what is
documented of them, with any cut into pieces and any failure.

Here both processes run side by side, one step at a time in any order. A read or a write may
fail at any time, which is also how a lost connection shows. Left out: that a task panics, and
`RecvStream::stop`, which only makes the other side's writes fail.

- `Copy`, `End.act`: what each task does;
- `step`, `allowed`: the two processes, and the stream between them.
-/

namespace HostServices.Tunnel

open HostServices.Lib

/-- `HANDSHAKE` -/
def handshake : List UInt8 := utf8Bytes "hello"

/-! ## One side -/

/-- Where a copy task stands. -/
inductive Status
  | running
  | ok
  | error
  | cancelled
  deriving DecidableEq, Repr

/-- `tokio::io::copy`: its buffer, and whether its reader has ended. What is documented of it
and assumed here: it reads until the end of its reader, writes what it read in that order and
returns, or returns the error of the first read or write that fails. How much it reads or
writes at a time is left open, and so is when one fails. -/
structure Copy where
  bytes : Relay UInt8 := {}
  ended : Bool := false
  status : Status := .running
  deriving DecidableEq

/-- How the sender leaves a stream. What becomes of one that is just dropped is up to the QUIC
library. -/
inductive Ending
  | finished
  | reset
  deriving DecidableEq, Repr

/-- One direction of a QUIC stream: a reliable relay, and how its sender left it. What is
documented of it and assumed here: the bytes arrive in order, once each, in any pieces; the end
is read behind all of them, and a reset may be seen before them. Flow control (a write that
waits for the reader) is left out: a write that waits is a step that is taken later. -/
structure Wire where
  bytes : Relay UInt8 := {}
  ending : Option Ending := none
  deriving DecidableEq

/-- Where the program of a side stands. -/
inductive Phase
  /-- the handshake is written or read -/
  | starting
  /-- the listener connects to the service -/
  | connecting
  | forwarding
  /-- something failed before there was anything to forward -/
  | over
  /-- `ensure_any!(buf == HANDSHAKE, ..)` -/
  | refused
  deriving DecidableEq, Repr

/-- What `forward_bidi` itself waits for. -/
inductive Main
  | awaitsIn
  | awaitsOut
  | returned (ok : Bool)
  deriving DecidableEq, Repr

/-- One side: its program, and the direction of the stream that it writes. -/
structure End where
  phase : Phase := .starting
  /-- what it has written of the handshake -/
  greeted : List UInt8 := []
  /-- what it has read of the handshake -/
  heard : List UInt8 := []
  /-- `copy_to_stream` -/
  out : Copy := {}
  /-- `copy_from_stream` -/
  into : Copy := {}
  /-- the cancellation token -/
  cancelled : Bool := false
  interrupted : Bool := false
  main : Main := .awaitsIn
  wire : Wire := {}
  deriving DecidableEq

/-- The two copy tasks of a side. -/
inductive Task
  | out
  | into
  deriving DecidableEq, Repr

/-- What a side does on its own. -/
inductive Act
  /-- the dialer writes some of the handshake -/
  | greet (n : Nat)
  | connect
  /-- it fails before it forwards, and drops the stream -/
  | giveUp (left : Ending)
  /-- `copy_to_stream` reads the local socket -/
  | read (chunk : List UInt8)
  | readEnd
  | send (n : Nat)
  | finish
  /-- `copy_from_stream` is told that there is nothing more on the stream -/
  | receiveEnd
  | write (n : Nat)
  | done
  | fail (task : Task) (left : Ending)
  | cancel (task : Task)
  | interrupt
  /-- a task that `forward_bidi` waits for is over -/
  | join
  deriving DecidableEq

/-- `forward_in.await?`, and then `forward_out.await?`. -/
def Main.next : Main → Status → Main
  | .awaitsIn, .ok => .awaitsOut
  | .awaitsOut, .ok => .returned true
  | .awaitsIn, _ | .awaitsOut, _ => .returned false
  | .returned ok, _ => .returned ok

namespace End

variable (e : End)

/-- The task that is waited for. -/
def awaited : Status :=
  match e.main with
  | .awaitsIn => e.into.status
  | .awaitsOut | .returned _ => e.out.status

/-- The stream is left for good. -/
def leave (left : Ending) : End := { e with wire := { e.wire with ending := some left } }

/-- What the side is after it has acted. -/
def act : Act → End
  | .greet n =>
    let piece := (handshake.drop e.greeted.length).take n
    let e := { e with
      greeted := e.greeted ++ piece
      wire := { e.wire with bytes := e.wire.bytes.take piece } }
    if e.greeted = handshake then { e with phase := .forwarding } else e
  | .connect => { e with phase := .forwarding }
  | .giveUp left => { e.leave left with phase := .over }
  | .read chunk => { e with out := { e.out with bytes := e.out.bytes.take chunk } }
  | .readEnd => { e with out := { e.out with ended := true } }
  | .send n =>
    { e with
      out := { e.out with bytes := e.out.bytes.give n }
      wire := { e.wire with bytes := e.wire.bytes.take (e.out.bytes.held.take n) } }
  | .finish => { e.leave .finished with out := { e.out with status := .ok } }
  | .receiveEnd => { e with into := { e.into with ended := true } }
  | .write n => { e with into := { e.into with bytes := e.into.bytes.give n } }
  | .done => { e with into := { e.into with status := .ok } }
  -- whichever task fails cancels the token
  | .fail .out left =>
    { e.leave left with out := { e.out with status := .error }, cancelled := true }
  | .fail .into _ => { e with into := { e.into with status := .error }, cancelled := true }
  | .cancel .out => { e.leave .reset with out := { e.out with status := .cancelled } }
  | .cancel .into => { e with into := { e.into with status := .cancelled } }
  | .interrupt => { e with interrupted := true, cancelled := true }
  | .join => { e with main := e.main.next e.awaited }

/-- A task that runs. -/
def Runs (task : Task) : Prop :=
  e.phase = .forwarding ∧ (match task with | .out => e.out | .into => e.into).status = .running

instance (task : Task) : Decidable (e.Runs task) := inferInstanceAs (Decidable (_ ∧ _))

/-- The other side has read `n` bytes. -/
def deliver (n : Nat) : End := { e with wire := { e.wire with bytes := e.wire.bytes.give n } }

/-- The listener reads a piece of the handshake, which is compared when it is complete. -/
def hear (piece : List UInt8) (left : Ending) : End :=
  let e := { e with heard := e.heard ++ piece }
  if e.heard.length < handshake.length then e
  else if e.heard = handshake then { e with phase := .connecting }
  else { e.leave left with phase := .refused }

/-- `copy_from_stream` reads a piece off the stream. -/
def receive (piece : List UInt8) : End :=
  { e with into := { e.into with bytes := e.into.bytes.take piece } }

end End

/-! ## Both -/

/-- The two sides of a stream. -/
inductive Side
  | dialer
  | listener
  deriving DecidableEq, Repr

/-- The side opposite. -/
def Side.other : Side → Side
  | .dialer => .listener
  | .listener => .dialer

theorem Side.other_other : ∀ side : Side, side.other.other = side
  | .dialer => rfl
  | .listener => rfl

/-- What happens: a side acts on its own, or bytes of the stream arrive. -/
inductive Event
  | act (side : Side) (a : Act)
  | hear (n : Nat) (left : Ending)
  | receive (side : Side) (n : Nat)
  deriving DecidableEq

/-- A stream with its two ends. -/
abbrev Stream := Side → End

/-- One step of either process. -/
def step (s : Stream) : Event → Stream
  | .act side a => Function.update s side ((s side).act a)
  | .hear n left =>
    Function.update (Function.update s .dialer ((s .dialer).deliver n)) .listener
      ((s .listener).hear ((s .dialer).wire.bytes.held.take n) left)
  | .receive side n =>
    Function.update (Function.update s side.other ((s side.other).deliver n)) side
      ((s side).receive ((s side.other).wire.bytes.held.take n))

/-- When a side may do what it does on its own. -/
def End.may (side : Side) (e other : End) : Act → Prop
  | .greet n => side = .dialer ∧ e.phase = .starting ∧ 0 < n ∧
      e.greeted.length + n ≤ handshake.length
  | .connect => e.phase = .connecting
  | .giveUp _ => e.phase = .starting ∨ e.phase = .connecting
  | .read chunk => e.Runs .out ∧ e.out.ended = false ∧ chunk ≠ []
  | .readEnd => e.Runs .out ∧ e.out.ended = false
  | .send n => e.Runs .out ∧ 0 < n ∧ n ≤ e.out.bytes.held.length
  | .finish => e.Runs .out ∧ e.out.ended = true ∧ e.out.bytes.held = []
  -- a stream that was reset never shows an end
  | .receiveEnd => e.Runs .into ∧ e.into.ended = false ∧ other.wire.bytes.held = [] ∧
      other.wire.ending = some .finished
  | .write n => e.Runs .into ∧ 0 < n ∧ n ≤ e.into.bytes.held.length
  | .done => e.Runs .into ∧ e.into.ended = true ∧ e.into.bytes.held = []
  | .fail task _ => e.Runs task
  | .cancel task => e.Runs task ∧ e.cancelled = true
  | .interrupt => e.phase = .forwarding ∧ ∀ ok, e.main ≠ .returned ok
  | .join => e.phase = .forwarding ∧ (∀ ok, e.main ≠ .returned ok) ∧ e.awaited ≠ .running

/-- When an event can happen. -/
def allowed (s : Stream) : Event → Prop
  | .act side a => (s side).may side (s side.other) a
  | .hear n _ => (s .listener).phase = .starting ∧ 0 < n ∧
      (s .listener).heard.length + n ≤ handshake.length ∧
      n ≤ (s .dialer).wire.bytes.held.length
  | .receive side n => (s side).Runs .into ∧ (s side).into.ended = false ∧ 0 < n ∧
      n ≤ (s side.other).wire.bytes.held.length

instance (side : Side) (e other : End) : (a : Act) → Decidable (e.may side other a)
  | .connect => inferInstanceAs (Decidable (e.phase = .connecting))
  | .giveUp _ => inferInstanceAs (Decidable (_ ∨ _))
  | .fail task _ => inferInstanceAs (Decidable (e.Runs task))
  | .greet _ | .read _ | .readEnd | .send _ | .finish | .receiveEnd | .write _ | .done
  | .cancel _ | .interrupt | .join => inferInstanceAs (Decidable (_ ∧ _))

instance (s : Stream) : (e : Event) → Decidable (allowed s e)
  | .act side a => inferInstanceAs (Decidable ((s side).may side (s side.other) a))
  | .hear _ _ | .receive _ _ => inferInstanceAs (Decidable (_ ∧ _))

/-- The stream when it has been opened. -/
def opened : Stream := fun _ => {}

end HostServices.Tunnel
