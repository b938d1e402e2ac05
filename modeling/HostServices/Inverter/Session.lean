import HostServices.Inverter.Parse
import HostServices.Inverter.Port
import HostServices.Lib.Fallible
import Mathlib.Data.Finset.Card

/-!
# Asking the inverter (`inverter-monitoring/src/main.rs`)

One exchange writes a request and reads a frame. The session keeps what outlives a
cycle: which commands the unit refused, and how often an exchange came to nothing.
`poll_cycle` and `read_identity` go through their commands in the same way, and differ
in what they make of a payload that does not parse.

- `exchange`, `readCommand`, `pollCycle`, `readIdentity`: the source's functions, over
  any transport;
- `runCalls`: any sequence of calls on one session;
- `Kept`: a relation that every step keeps is kept by every run.
-/

namespace HostServices.Inverter

open HostServices.Lib

/-! ## Readings -/

/-- What a payload is read as. -/
inductive Reading
  | text (value : String)
  | mode (value : ModeReading)
  | qpigs (value : Qpigs)
  | qpigs2 (value : Qpigs2)
  | qpiws (value : Qpiws)
  deriving DecidableEq, Repr

/-- The parser of a command's payload. -/
def Command.read (c : Command) (payload : List UInt8) : Except String Reading :=
  match c with
  | .qmod => (parseQmod payload).map .mode
  | .qpigs => (parseQpigs payload).map .qpigs
  | .qpigs2 => (parseQpigs2 payload).map .qpigs2
  | .qpiws => (parseQpiws payload).map .qpiws
  | .qid | .qvfw | .qvfw3 | .qmn | .qgmn => (parseIdentity c.text payload).map .text

/-- Counters describing the serial link itself. -/
structure Link where
  connectedSeconds : Nat := 0
  discardedFrames : Nat := 0
  unsupportedCommands : Nat := 0
  deriving DecidableEq, Repr

/-- Everything one poll cycle managed to read. -/
structure Cycle where
  mode : Option ModeReading := none
  qpigs : Option Qpigs := none
  qpigs2 : Option Qpigs2 := none
  qpiws : Option Qpiws := none
  link : Link := {}
  deriving DecidableEq, Repr

/-- What a reading is stored as; that of an identity command is not kept here. -/
def Cycle.store (cycle : Cycle) : Option Reading → Cycle
  | some (.mode m) => { cycle with mode := some m }
  | some (.qpigs q) => { cycle with qpigs := some q }
  | some (.qpigs2 q) => { cycle with qpigs2 := some q }
  | some (.qpiws q) => { cycle with qpiws := some q }
  | some (.text _) | none => cycle

/-- The reading a cycle holds for a command. -/
def Cycle.reading (cycle : Cycle) : Command → Option Reading
  | .qmod => cycle.mode.map .mode
  | .qpigs => cycle.qpigs.map .qpigs
  | .qpigs2 => cycle.qpigs2.map .qpigs2
  | .qpiws => cycle.qpiws.map .qpiws
  | _ => none

/-- The attribute an identity command's answer becomes. -/
def identityKey : Command → String
  | .qid => "serial_number"
  | .qvfw => "firmware"
  | .qvfw3 => "firmware_panel"
  | .qmn => "model"
  | .qgmn => "model_code"
  | _ => "" -- `_ => continue`, not reached: only identity commands are asked

/-! ## What a cycle holds -/

theorem Cycle.reading_empty (c : Command) : ({} : Cycle).reading c = none := by
  cases c <;> rfl

theorem Cycle.reading_link (cycle : Cycle) (link : Link) (c : Command) :
    { cycle with link }.reading c = cycle.reading c := by
  cases c <;> rfl

/-- What a live command reads goes where the cycle keeps that command's reading, and nowhere
else. -/
theorem Cycle.reading_store {cycle : Cycle} {c d : Command} {payload : List UInt8}
    {stored : Reading} (hread : d.read payload = .ok stored) :
    (cycle.store (some stored)).reading c =
      if c = d ∧ d ∈ liveCommands then some stored else cycle.reading c := by
  cases d <;> obtain ⟨value, -, rfl⟩ := map_eq_ok.mp hread <;> cases c <;> rfl

section Collect

variable {readings : List (Command × Option Reading)} {c : Command}
  (hread : ∀ d stored, (d, some stored) ∈ readings → ∃ payload, d.read payload = .ok stored)

include hread

/-- Readings of other commands do not change that of a command. -/
theorem Cycle.reading_foldl_of_notMem {cycle : Cycle} (hc : c ∉ readings.map Prod.fst) :
    (readings.foldl (fun (cycle : Cycle) r => cycle.store r.2) cycle).reading c
      = cycle.reading c := by
  induction readings generalizing cycle with
  | nil => rfl
  | cons r readings ih =>
    obtain ⟨d, stored⟩ := r
    rw [List.map_cons, List.mem_cons, not_or] at hc
    rw [List.foldl_cons, ih (fun d stored hmem => hread d stored (List.mem_cons_of_mem _ hmem))
      hc.2]
    cases stored with
    | none => rfl
    | some stored =>
      obtain ⟨payload, hpayload⟩ := hread d stored List.mem_cons_self
      rw [Cycle.reading_store hpayload, if_neg fun h => hc.1 h.1]

/-- A cycle keeps the reading of each command in a field of its own. -/
theorem Cycle.reading_foldl_of_mem {cycle : Cycle} {reading : Option Reading}
    (hlive : ∀ d ∈ readings.map Prod.fst, d ∈ liveCommands)
    (hnodup : (readings.map Prod.fst).Nodup) (h : (c, reading) ∈ readings) :
    (readings.foldl (fun (cycle : Cycle) r => cycle.store r.2) cycle).reading c
      = reading.or (cycle.reading c) := by
  induction readings generalizing cycle with
  | nil => cases h
  | cons r readings ih =>
    obtain ⟨d, stored⟩ := r
    have hrest : ∀ d stored, (d, some stored) ∈ readings → ∃ payload,
        d.read payload = .ok stored :=
      fun d stored hmem => hread d stored (List.mem_cons_of_mem _ hmem)
    rw [List.map_cons, List.nodup_cons] at hnodup
    rw [List.foldl_cons]
    rcases List.mem_cons.mp h with heq | hmem
    · cases heq
      rw [Cycle.reading_foldl_of_notMem hrest hnodup.1]
      cases reading with
      | none => rfl
      | some reading =>
        obtain ⟨payload, hpayload⟩ := hread c reading List.mem_cons_self
        rw [Cycle.reading_store hpayload, if_pos ⟨rfl, hlive c List.mem_cons_self⟩]
        rfl
    · rw [ih hrest (fun d hd => hlive d (List.mem_cons_of_mem _ hd)) hnodup.2 hmem]
      have hc : c ∈ readings.map Prod.fst := List.mem_map_of_mem hmem
      have hne : c ≠ d := fun heq => hnodup.1 (heq ▸ hc)
      cases stored with
      | none => rfl
      | some stored =>
        obtain ⟨payload, hpayload⟩ := hread d stored List.mem_cons_self
        rw [Cycle.reading_store hpayload, if_neg fun h => hne h.1]

variable (hcommands : readings.map Prod.fst = liveCommands)

include hcommands

/-- What a cycle holds for a live command is what the command's turn came to. -/
theorem Cycle.reading_collected {reading : Option Reading} (h : (c, reading) ∈ readings) :
    (readings.foldl (fun (cycle : Cycle) r => cycle.store r.2) {}).reading c = reading := by
  rw [Cycle.reading_foldl_of_mem hread (fun d hd => hcommands ▸ hd)
    (hcommands ▸ nodup_liveCommands) h, Cycle.reading_empty, Option.or_none]

/-- What a cycle holds for a command was read for it. -/
theorem Cycle.mem_of_reading {reading : Reading}
    (h : (readings.foldl (fun (cycle : Cycle) r => cycle.store r.2) {}).reading c
      = some reading) : (c, some reading) ∈ readings := by
  by_cases hc : c ∈ readings.map Prod.fst
  · obtain ⟨⟨d, stored⟩, hmem, rfl⟩ := List.mem_map.mp hc
    rw [Cycle.reading_collected hread hcommands hmem] at h
    exact h ▸ hmem
  · rw [Cycle.reading_foldl_of_notMem hread hc, Cycle.reading_empty] at h
    cases h

end Collect

/-! ## The session -/

/-- A failure of one exchange: the cycle degrades, or the port is gone. -/
inductive Failure
  | transient (reason : String)
  | fatal (reason : String)

/-- What outlives one cycle. -/
structure Session where
  discardedFrames : Nat := 0
  unsupportedCommands : Nat := 0
  unsupported : Finset Command := ∅
  deriving DecidableEq

/-- `Session::link`: the counters of the session, and how long it has lasted. -/
def Session.link (session : Session) (connectedSeconds : Nat) : Link where
  connectedSeconds := connectedSeconds
  discardedFrames := session.discardedFrames
  unsupportedCommands := session.unsupportedCommands

/-- `session.discarded_frames += n`. -/
def Session.discard (session : Session) (n : Nat) : Session :=
  { session with discardedFrames := session.discardedFrames + n }

/-- The bookkeeping of a `NAK`. -/
def Session.refuse (session : Session) (c : Command) : Session :=
  { session with
    unsupported := insert c session.unsupported
    unsupportedCommands := session.unsupportedCommands + 1 }

@[simp] theorem Session.discard_unsupported (session : Session) (n : Nat) :
    (session.discard n).unsupported = session.unsupported := rfl

@[simp] theorem Session.discard_unsupportedCommands (session : Session) (n : Nat) :
    (session.discard n).unsupportedCommands = session.unsupportedCommands := rfl

@[simp] theorem Session.discard_discardedFrames (session : Session) (n : Nat) :
    (session.discard n).discardedFrames = session.discardedFrames + n := rfl

@[simp] theorem Session.refuse_unsupported (session : Session) (c : Command) :
    (session.refuse c).unsupported = insert c session.unsupported := rfl

@[simp] theorem Session.refuse_unsupportedCommands (session : Session) (c : Command) :
    (session.refuse c).unsupportedCommands = session.unsupportedCommands + 1 := rfl

@[simp] theorem Session.refuse_discardedFrames (session : Session) (c : Command) :
    (session.refuse c).discardedFrames = session.discardedFrames := rfl

/-- The text of a byte as `{:02X}` prints it. -/
def upperHex (byte : UInt8) : String := ((hexByte byte).drop 2).toString.toUpper

/-- `Display` of a frame error. -/
def FrameError.message : FrameError → String
  | .tooShort len => s!"frame of {len} byte(s) is too short"
  | .notAResponse byte => s!"frame starts with {hexByte byte}, not '('"
  | .unterminated => "frame does not end with <CR>"
  | .crc computed received =>
    s!"CRC mismatch: computed {upperHex computed.1} {upperHex computed.2}, " ++
      s!"received {upperHex received.1} {upperHex received.2}"

section

/- `timeout` is the deadline as it is printed. -/
variable {σ : Type} (t : Transport σ) (timeout : String)

/-- Send one command and return its payload, or `none` if the unit refused it. -/
def exchange (c : Command) (s : σ) : Except Failure (Option (List UInt8)) × σ :=
  match t.writeRequest c.request s with
  | (.error e, s) => (.error (.fatal s!"writing {c.text}: {e}"), s)
  | (.ok (), s) =>
    match t.readFrame s with
    | (.error e, s) => (.error (.fatal s!"reading {c.text}: {e}"), s)
    | (.ok none, s) => (.error (.transient s!"{c.text} timed out after {timeout}"), s)
    | (.ok (some frame), s) =>
      match parseResponse frame with
      | .ok (.payload payload) => (.ok (some payload), s)
      | .ok .nak => (.ok none, s)
      | .error err => (.error (.transient s!"{c.text}: {err.message}"), s)

/-- One command, with the session's bookkeeping applied. -/
def readCommand (c : Command) (session : Session) (s : σ) :
    Except String (Option (List UInt8)) × Session × σ :=
  if c ∈ session.unsupported then (.ok none, session, s)
  else
    match exchange t timeout c s with
    | (.ok (some payload), s) => (.ok (some payload), session, s)
    -- the only way into `unsupported`, and there is none out of it
    | (.ok none, s) => (.ok none, session.refuse c, s)
    -- no answer, or one that does not frame: the cycle goes on without it
    | (.error (.transient _), s) => (.ok none, session.discard 1, s)
    | (.error (.fatal reason), s) => (.error reason, session, s)

/-- What becomes of the answer to a command: a payload that does not parse counts as
`unreadable` discarded frames. -/
def interpret (unreadable : Nat) (c : Command) (session : Session) :
    Option (List UInt8) → Option Reading × Session
  | none => (none, session)
  | some payload =>
    match c.read payload with
    | .ok reading => (some reading, session)
    | .error _ => (none, session.discard unreadable)

/-- The loop over commands that `poll_cycle` and `read_identity` share. -/
def readEach (unreadable : Nat) : List Command → Session → σ →
    Except String (List (Command × Option Reading)) × Session × σ
  | [], session, s => (.ok [], session, s)
  | c :: commands, session, s =>
    match readCommand t timeout c session s with
    | (.error e, session, s) => (.error e, session, s)
    | (.ok payload, session, s) =>
      -- a payload that does not parse costs its own value only
      let (reading, session) := interpret unreadable c session payload
      match readEach unreadable commands session s with
      | (.error e, session, s) => (.error e, session, s)
      | (.ok rest, session, s) => (.ok ((c, reading) :: rest), session, s)

/-- The four live commands. A payload that does not parse is the same class of event as
a bad CRC. -/
def pollCycle (connectedSeconds : Nat) (session : Session) (s : σ) :
    Except String Cycle × Session × σ :=
  match readEach t timeout 1 liveCommands session s with
  | (.error e, session, s) => (.error e, session, s)
  | (.ok readings, session, s) =>
    let cycle : Cycle := readings.foldl (fun (cycle : Cycle) r => cycle.store r.2) {}
    (.ok { cycle with link := session.link connectedSeconds }, session, s)

/-- The identity string in a reading. -/
def Reading.string? : Option Reading → Option String
  | some (.text value) => some value
  | _ => none

/-- The five identity commands, whose answers become resource attributes. A payload that
does not parse is dropped, and counted nowhere. -/
def readIdentity (session : Session) (s : σ) :
    Except String (List (String × Option String)) × Session × σ :=
  match readEach t timeout 0 staticCommands session s with
  | (.error e, session, s) => (.error e, session, s)
  | (.ok readings, session, s) =>
    (.ok (readings.map fun r => (identityKey r.1, Reading.string? r.2)), session, s)

end

/-! ## Any sequence of calls -/

/-- What a run asks of the session at a time: the identity, or a cycle. -/
inductive Call
  | identity
  | poll (connectedSeconds : Nat)
  deriving DecidableEq, Repr

/-- The commands that are asked for it, in order. -/
def Call.commands : Call → List Command
  | .identity => staticCommands
  | .poll _ => liveCommands

theorem Call.nodup_commands (call : Call) : call.commands.Nodup := by
  cases call with
  | identity => exact nodup_staticCommands
  | poll connectedSeconds => exact nodup_liveCommands

/-- How many discarded frames a payload that does not parse counts as. -/
def Call.unreadable : Call → Nat
  | .identity => 0
  | .poll _ => 1

/-- What it answers. -/
inductive Output
  | identity (attributes : List (String × Option String))
  | cycle (cycle : Cycle)
  deriving DecidableEq, Repr

section

variable {σ : Type} (t : Transport σ) (timeout : String)

/-- The call as the source makes it. -/
def Call.perform (call : Call) (session : Session) (s : σ) :
    Except String Output × Session × σ :=
  match call with
  | .identity =>
    match readIdentity t timeout session s with
    | (.ok attributes, session, s) => (.ok (.identity attributes), session, s)
    | (.error e, session, s) => (.error e, session, s)
  | .poll connectedSeconds =>
    match pollCycle t timeout connectedSeconds session s with
    | (.ok cycle, session, s) => (.ok (.cycle cycle), session, s)
    | (.error e, session, s) => (.error e, session, s)

/-- Calls one after the other, up to the first that fails; `turn` is what happens to the
port between two calls. -/
def runCalls (turn : σ → σ) : List Call → Session → σ →
    Except String (List Output) × Session × σ
  | [], session, s => (.ok [], session, s)
  | call :: calls, session, s =>
    match call.perform t timeout session s with
    | (.error e, session, s) => (.error e, session, s)
    | (.ok output, session, s) =>
      -- the session, and with it what the unit refused, outlives the call
      match runCalls turn calls session (turn s) with
      | (.error e, session, s) => (.error e, session, s)
      | (.ok outputs, session, s) => (.ok (output :: outputs), session, s)

/-! ## What a loop does -/

/-- What a call makes of its readings. -/
def Call.collect (call : Call) (session : Session)
    (readings : List (Command × Option Reading)) : Output :=
  match call with
  | .identity => .identity (readings.map fun r => (identityKey r.1, Reading.string? r.2))
  | .poll connectedSeconds =>
    .cycle { readings.foldl (fun (cycle : Cycle) r => cycle.store r.2) {} with
      link := session.link connectedSeconds }

/-- A call asks its commands one after the other, and collects the readings. -/
theorem Call.perform_eq (call : Call) (session : Session) (s : σ) :
    call.perform t timeout session s =
      let run := readEach t timeout call.unreadable call.commands session s
      (run.1.map (call.collect run.2.1), run.2) := by
  cases call with
  | identity =>
    rw [Call.perform, readIdentity, Call.unreadable, Call.commands]
    rcases readEach t timeout 0 staticCommands session s with ⟨_ | _, _, _⟩ <;> rfl
  | poll connectedSeconds =>
    rw [Call.perform, pollCycle, Call.unreadable, Call.commands]
    rcases readEach t timeout 1 liveCommands session s with ⟨_ | _, _, _⟩ <;> rfl

variable {t timeout}

/-- Where the port stands after a command. -/
theorem readCommand_port (c : Command) (session : Session) (s : σ) :
    (readCommand t timeout c session s).2.2 =
      if c ∈ session.unsupported then s
      else match t.writeRequest c.request s with
        | (.error _, s) => s
        | (.ok (), s) => (t.readFrame s).2 := by
  rw [readCommand]
  split_ifs with hc
  · rfl
  · unfold exchange
    rcases t.writeRequest c.request s with ⟨_ | _, s₁⟩
    · rfl
    · dsimp only
      rcases t.readFrame s₁ with ⟨_ | _ | frame, s₂⟩
      · rfl
      · rfl
      · dsimp only
        rcases parseResponse frame with _ | _ | _ <;> rfl

/-- A payload comes from a frame that was read after the request was written. -/
theorem readCommand_payload {c : Command} {session session' : Session} {s s' : σ}
    {payload : List UInt8}
    (h : readCommand t timeout c session s = (.ok (some payload), session', s')) :
    ∃ s₁ frame, t.writeRequest c.request s = (.ok (), s₁) ∧
      t.readFrame s₁ = (.ok (some frame), s') ∧
      parseResponse frame = .ok (.payload payload) := by
  rw [readCommand] at h
  rw [ite_eq_iff] at h
  rcases h with ⟨-, h⟩ | ⟨-, h⟩
  · cases h
  unfold exchange at h
  rcases hwrite : t.writeRequest c.request s with ⟨_ | _, s₁⟩ <;> rw [hwrite] at h
  · cases h
  · dsimp only at h
    rcases hread : t.readFrame s₁ with ⟨_ | _ | frame, s₂⟩ <;> rw [hread] at h
    · cases h
    · cases h
    · dsimp only at h
      rcases hparse : parseResponse frame with _ | _ | _ <;> rw [hparse] at h
      · cases h
      · cases h
        exact ⟨s₁, frame, rfl, hread, hparse⟩
      · cases h

/-- Where a loop stands in the end, by its first command. -/
theorem readEach_cons_state (unreadable : Nat) (c : Command) (commands : List Command)
    (session : Session) (s : σ) :
    (readEach t timeout unreadable (c :: commands) session s).2 =
      match readCommand t timeout c session s with
      | (.error _, session, s) => (session, s)
      | (.ok payload, session, s) =>
        (readEach t timeout unreadable commands
          (interpret unreadable c session payload).2 s).2 := by
  rw [readEach]
  rcases readCommand t timeout c session s with ⟨_ | payload, session₁, s₁⟩
  · rfl
  · dsimp only
    rcases readEach t timeout unreadable commands (interpret unreadable c session₁ payload).2 s₁
      with ⟨_ | _, _, _⟩ <;> rfl

/-- What a loop that came to its end did with its first command. -/
theorem readEach_cons_ok {unreadable : Nat} {c : Command} {commands : List Command}
    {session session' : Session} {s s' : σ} {readings : List (Command × Option Reading)}
    (h : readEach t timeout unreadable (c :: commands) session s = (.ok readings, session', s')) :
    ∃ payload session₁ s₁ rest,
      readCommand t timeout c session s = (.ok payload, session₁, s₁) ∧
      readEach t timeout unreadable commands (interpret unreadable c session₁ payload).2 s₁
        = (.ok rest, session', s') ∧
      readings = (c, (interpret unreadable c session₁ payload).1) :: rest := by
  rw [readEach] at h
  rcases hread : readCommand t timeout c session s with ⟨_ | payload, session₁, s₁⟩
  · rw [hread] at h
    cases h
  · rw [hread] at h
    dsimp only at h
    rcases hrest : readEach t timeout unreadable commands
      (interpret unreadable c session₁ payload).2 s₁ with ⟨_ | rest, session₂, s₂⟩
    · rw [hrest] at h
      cases h
    · rw [hrest] at h
      cases h
      exact ⟨payload, session₁, s₁, rest, rfl, hrest, rfl⟩

theorem runCalls_cons_state (turn : σ → σ) (call : Call) (calls : List Call)
    (session : Session) (s : σ) :
    (runCalls t timeout turn (call :: calls) session s).2 =
      match call.perform t timeout session s with
      | (.error _, session, s) => (session, s)
      | (.ok _, session, s) => (runCalls t timeout turn calls session (turn s)).2 := by
  rw [runCalls]
  rcases call.perform t timeout session s with ⟨_ | _, session₁, s₁⟩
  · rfl
  · dsimp only
    rcases runCalls t timeout turn calls session₁ (turn s₁) with ⟨_ | _, _, _⟩ <;> rfl

/-- A run that goes through has gone through its first call. -/
theorem runCalls_cons_ok {turn : σ → σ} {call : Call} {calls : List Call}
    {session session' : Session} {s s' : σ} {outputs : List Output}
    (h : runCalls t timeout turn (call :: calls) session s = (.ok outputs, session', s')) :
    ∃ readings session₁ s₁ rest,
      readEach t timeout call.unreadable call.commands session s = (.ok readings, session₁, s₁) ∧
      runCalls t timeout turn calls session₁ (turn s₁) = (.ok rest, session', s') ∧
      outputs = call.collect session₁ readings :: rest := by
  rw [runCalls, Call.perform_eq] at h
  rcases hread : readEach t timeout call.unreadable call.commands session s
    with ⟨_ | readings, session₁, s₁⟩
  · rw [hread] at h
    cases h
  · rw [hread] at h
    dsimp only [Except.map] at h
    rcases hrest : runCalls t timeout turn calls session₁ (turn s₁) with ⟨_ | rest, session₂, s₂⟩
    · rw [hrest] at h
      cases h
    · rw [hrest] at h
      cases h
      exact ⟨readings, session₁, s₁, rest, rfl, hrest, rfl⟩

/-- A longer run goes on from where the shorter one stood. -/
theorem runCalls_append_state (turn : σ → σ) (calls more : List Call) (session : Session) (s : σ) :
    (runCalls t timeout turn (calls ++ more) session s).2 =
      match runCalls t timeout turn calls session s with
      | (.error _, session, s) => (session, s)
      | (.ok _, session, s) => (runCalls t timeout turn more session s).2 := by
  induction calls generalizing session s with
  | nil => rfl
  | cons call calls ih =>
    rw [List.cons_append, runCalls_cons_state, runCalls]
    rcases call.perform t timeout session s with ⟨_ | _, session₁, s₁⟩
    · rfl
    · dsimp only
      rw [ih]
      rcases runCalls t timeout turn calls session₁ (turn s₁) with ⟨_ | _, _, _⟩ <;> rfl

/-- A relation between states of a run that holds across every step of it. -/
structure Kept (t : Transport σ) (timeout : String) (turn : σ → σ)
    (R : Session × σ → Session × σ → Prop) : Prop where
  refl : ∀ x, R x x
  trans : ∀ {x y z}, R x y → R y z → R x z
  read : ∀ c session s, R (session, s) (readCommand t timeout c session s).2
  discard : ∀ n session s, R (session, s) (session.discard n, s)
  turn : ∀ session s, R (session, s) (session, turn s)

namespace Kept

variable {turn : σ → σ} {R : Session × σ → Session × σ → Prop} (hR : Kept t timeout turn R)

include hR

theorem interpret (unreadable : Nat) (c : Command) (session : Session) (s : σ)
    (payload : Option (List UInt8)) :
    R (session, s) ((Inverter.interpret unreadable c session payload).2, s) := by
  cases payload with
  | none => exact hR.refl _
  | some payload =>
    rw [Inverter.interpret]
    cases c.read payload with
    | ok reading => exact hR.refl _
    | error reason => exact hR.discard unreadable session s

/-- Reading command by command keeps to the relation. -/
theorem readEach (unreadable : Nat) (commands : List Command) (session : Session) (s : σ) :
    R (session, s) (Inverter.readEach t timeout unreadable commands session s).2 := by
  induction commands generalizing session s with
  | nil => exact hR.refl _
  | cons c commands ih =>
    have hread := hR.read c session s
    rw [readEach_cons_state]
    rcases hres : readCommand t timeout c session s with ⟨_ | payload, session₁, s₁⟩ <;>
      rw [hres] at hread
    · exact hread
    · exact hR.trans hread (hR.trans (hR.interpret unreadable c session₁ s₁ payload) (ih _ _))

/-- A loop over more commands goes on from where the shorter one stood. -/
theorem readEach_append (unreadable : Nat) (commands more : List Command) (session : Session)
    (s : σ) :
    R (Inverter.readEach t timeout unreadable commands session s).2
      (Inverter.readEach t timeout unreadable (commands ++ more) session s).2 := by
  induction commands generalizing session s with
  | nil => exact hR.readEach unreadable more session s
  | cons c commands ih =>
    rw [List.cons_append, readEach_cons_state, readEach_cons_state]
    rcases readCommand t timeout c session s with ⟨_ | payload, session₁, s₁⟩
    · exact hR.refl _
    · exact ih _ _

/-- A run keeps to the relation. -/
theorem runCalls (calls : List Call) (session : Session) (s : σ) :
    R (session, s) (Inverter.runCalls t timeout turn calls session s).2 := by
  induction calls generalizing session s with
  | nil => exact hR.refl _
  | cons call calls ih =>
    have hcall := hR.readEach call.unreadable call.commands session s
    rw [runCalls_cons_state, Call.perform_eq]
    rcases hres : Inverter.readEach t timeout call.unreadable call.commands session s
      with ⟨_ | readings, session₁, s₁⟩ <;> rw [hres] at hcall
    · exact hcall
    · exact hR.trans hcall (hR.trans (hR.turn session₁ s₁) (ih _ _))

/-- A command that was read. -/
theorem of_readCommand {c : Command} {session session' : Session} {s s' : σ}
    {result : Except String (Option (List UInt8))}
    (h : readCommand t timeout c session s = (result, session', s')) :
    R (session, s) (session', s') := by
  have hread := hR.read c session s
  rwa [h] at hread

/-- A loop that came to its end. -/
theorem of_readEach {unreadable : Nat} {commands : List Command} {session session' : Session}
    {s s' : σ} {result : Except String (List (Command × Option Reading))}
    (h : Inverter.readEach t timeout unreadable commands session s = (result, session', s')) :
    R (session, s) (session', s') := by
  have hread := hR.readEach unreadable commands session s
  rwa [h] at hread

/-- A run that came to its end. -/
theorem of_runCalls {calls : List Call} {session session' : Session} {s s' : σ}
    {result : Except String (List Output)}
    (h : Inverter.runCalls t timeout turn calls session s = (result, session', s')) :
    R (session, s) (session', s') := by
  have hrun := hR.runCalls calls session s
  rwa [h] at hrun

end Kept

end

end HostServices.Inverter
