import HostServices.Inverter.Discover

/-!
# The run of the inverter's monitor (`inverter-monitoring/src/main.rs`)

The inverter is searched for once. From then on a tick polls the four live commands, publishes
what came back, and every so often asks for the identity again; the run ends at an error of the
port, or when nothing came back for three ticks on end.

- `tick`, `run`: the source's loop;
- `TickSpec`: what one tick can do;
- `asks_only_the_inverter`: what is written in a run, and to whom;
- `publishes_what_was_read`: where the values of a batch come from;
- `ends_in_silence`: which cycles are published, and when a run gives up.
-/

namespace HostServices.Inverter

open HostServices.Lib

/-! ## The code -/

/-- The options that `run` reads. -/
structure Options where
  devDir : String
  /-- the deadline of one response, as it is printed -/
  responseTimeout : String
  /-- in milliseconds -/
  staticRefresh : Nat
  resourceAttributes : List (String × Value)
  once : Bool

/-- `MAX_SILENT_CYCLES`. -/
def maxSilentCycles : Nat := 3

/-- Where the inverter is. -/
structure Connected where
  device : String
  tty : String
  /-- in milliseconds -/
  connectedAt : Nat

/-- What is kept from one tick to the next. -/
structure Ticking where
  silentCycles : Nat := 0
  lastStatic : Nat
  identity : List (String × Option String)
  session : Session

/-- The text of a file without the blanks around it. -/
def readTrimmed (text : Option String) : Option String :=
  text.map fun text => String.ofList (trim text.toList)

/-- What the run fails with when nothing was answered. -/
def silence (device : String) (silentCycles : Nat) : String :=
  s!"{device} answered nothing for {silentCycles} consecutive cycles"

section Code

variable (host : Host) (options : Options)

/-- `resource_attributes`: the host, the device and the unit. -/
def resourceAttributes (connected : Connected) (identity : List (String × Option String))
    (log : List Deed) : List (String × Value) :=
  let hostName := (readTrimmed (host.hostname log)).toList.map fun name =>
    ("host.name", Value.str name)
  let bootId := (readTrimmed (host.bootId log)).toList.map fun id => ("boot_id", Value.str id)
  ("service.name", .str "inverter-monitoring") :: hostName ++ bootId ++
    identityAttributes connected.device (host.byIdOf log connected.tty) identity ++
    options.resourceAttributes

/-- `poll_cycle`; the time since the connection is taken when the commands are through. -/
def poll (connected : Connected) (session : Session) (log : List Deed) :
    Except String Cycle × Session × List Deed :=
  let t := host.transport connected.tty
  let (_, _, through) := readEach t options.responseTimeout 1 liveCommands session log
  let elapsed := host.now through - connected.connectedAt
  pollCycle t options.responseTimeout (elapsed / 1000) session log

/-- The identity is asked for again when its time has come; then the tick waits for the next. -/
def refresh (connected : Connected) (ticking : Ticking) (log : List Deed) :
    Except (Except Stop Unit) Ticking × List Deed :=
  if options.staticRefresh ≤ host.now log - ticking.lastStatic then
    match readIdentity (host.transport connected.tty) options.responseTimeout ticking.session log
      with
    | (.error e, _, log) => (.error (.error (.err e)), log)
    | (.ok identity, session, log) =>
      (.ok { ticking with identity, session, lastStatic := host.now log }, log ++ [.slept])
  else (.ok ticking, log ++ [.slept])

/-- One round of the loop of `run`: how the run ends, or what it goes on with. -/
def tick (connected : Connected) (ticking : Ticking) (log : List Deed) :
    Except (Except Stop Unit) Ticking × List Deed :=
  match poll host options connected ticking.session log with
  | (.error e, _, log) => (.error (.error (.err e)), log)
  | (.ok cycle, session, log) =>
    let log := log ++ [.polled cycle]
    let silentCycles := if cycle.isEmpty then ticking.silentCycles + 1 else 0
    if cycle.isEmpty ∧ maxSilentCycles ≤ silentCycles then
      (.error (.error (.err (silence connected.device silentCycles))), log)
    else
      let log := log ++
        [.published (resourceAttributes host options connected ticking.identity log)
          (records cycle)]
      if options.once then (.error (.ok ()), log)
      else refresh host options connected { ticking with silentCycles, session } log

/-- The loop of `run`; `none` if it has not come to an end after `ticks` rounds. -/
def tickLoop (connected : Connected) :
    Nat → Ticking → List Deed → Option (Except Stop Unit) × List Deed
  | 0, _, log => (none, log)
  | ticks + 1, ticking, log =>
    match tick host options connected ticking log with
    | (.error ended, log) => (some ended, log)
    | (.ok ticking, log) => tickLoop connected ticks ticking log

/-- `run`, as far as it comes within so many sweeps for the inverter and so many ticks. -/
def run (sweeps ticks : Nat) : Option (Except Stop Unit) × List Deed :=
  match connectWithin host options.devDir sweeps [] with
  | (none, log) => (none, log)
  | (some (.error e), log) => (some (.error e), log)
  | (some (.ok (candidate, _)), log) =>
    let log := log ++ [.remembered candidate.pathId]
    let connected : Connected :=
      { device := candidate.pathId, tty := candidate.tty, connectedAt := host.now log }
    match readIdentity (host.transport candidate.tty) options.responseTimeout {} log with
    | (.error e, _, log) => (some (.error (.err e)), log)
    | (.ok identity, session, log) =>
      tickLoop host options connected ticks { lastStatic := host.now log, identity, session } log

end Code

/-! ## What a series of questions does -/

/-- The requests that were written. -/
def requests (log : List Deed) : List (List UInt8) :=
  log.filterMap fun
    | .wrote _ request _ => some request
    | _ => none

theorem requests_append (log log' : List Deed) :
    requests (log ++ log') = requests log ++ requests log' :=
  List.filterMap_append

/-- A question to the device, or what came back. -/
inductive Exchanging (tty : String) : Deed → Prop
  | wrote (c : Command) (result : Except String Unit) :
    Exchanging tty (.wrote tty c.request result)
  | read (reply : Except String (Option (List UInt8))) : Exchanging tty (.read tty reply)

/-- Nothing was done but to ask the device some of the commands, each of them once at most. -/
structure Exchanged (tty : String) (commands : List Command) (deeds : List Deed) : Prop where
  only : ∀ deed ∈ deeds, Exchanging tty deed
  once : (requests deeds).Sublist (commands.map Command.request)

/-- The port failed. -/
inductive Broken (tty : String) : Deed → Prop
  | wrote (request : List UInt8) (message : String) :
    Broken tty (.wrote tty request (.error message))
  | read (message : String) : Broken tty (.read tty (.error message))

/-- The last thing that happened is that the port failed. -/
def Lost (tty : String) (deeds : List Deed) : Prop :=
  ∃ front deed, deeds = front ++ [deed] ∧ Broken tty deed

theorem Lost.append {tty : String} {deeds : List Deed} (h : Lost tty deeds) (before : List Deed) :
    Lost tty (before ++ deeds) := by
  obtain ⟨front, deed, rfl, hbroken⟩ := h
  exact ⟨before ++ front, deed, (List.append_assoc ..).symm, hbroken⟩

/-- What the answer to a command reads as, if it is an intact frame whose payload reads. -/
def Command.answered (c : Command) : Except String (Option (List UInt8)) → Option Reading
  | .ok (some frame) =>
    match parseResponse frame with
    | .ok (.payload payload) => (c.read payload).toOption
    | _ => none
  | _ => none

theorem Command.exists_payload_of_answered {c : Command}
    {answer : Except String (Option (List UInt8))} {reading : Reading}
    (h : c.answered answer = some reading) : ∃ payload, c.read payload = .ok reading := by
  unfold answered at h
  split at h
  · split at h
    · next payload _ =>
      rcases hread : c.read payload with e | stored <;> rw [hread] at h <;> cases h
      exact ⟨payload, hread⟩
    · cases h
  · cases h

/-- The request of the command was not written. -/
def Unasked (c : Command) (deeds : List Deed) : Prop :=
  ∀ tty result, .wrote tty c.request result ∉ deeds

theorem Unasked.append {c : Command} {deeds deeds' : List Deed} (h : Unasked c deeds)
    (h' : Unasked c deeds') : Unasked c (deeds ++ deeds') :=
  fun tty result hmem => (List.mem_append.mp hmem).elim (h tty result) (h' tty result)

/-- A command that was not to be asked was not asked. -/
theorem Exchanged.unasked {tty : String} {commands : List Command} {deeds : List Deed}
    (h : Exchanged tty commands deeds) {c : Command} (hc : c ∉ commands) : Unasked c deeds := by
  intro tty' result hmem
  have hrequest : c.request ∈ requests deeds := List.mem_filterMap.mpr ⟨_, hmem, rfl⟩
  obtain ⟨d, hd, heq⟩ := List.mem_map.mp (h.once.subset hrequest)
  exact hc (request_injective heq ▸ hd)

/-- The last time that the command was asked, the device was asked it, and what came back, the
next thing that was read from there, reads so. -/
def Answered (tty : String) (c : Command) (reading : Option Reading) (deeds : List Deed) : Prop :=
  ∃ front answer back, deeds = front ++ .wrote tty c.request (.ok ()) :: .read tty answer :: back ∧
    Unasked c back ∧ reading = c.answered answer

theorem Answered.append {tty : String} {c : Command} {reading : Option Reading} {deeds : List Deed}
    (h : Answered tty c reading deeds) (before : List Deed) {after : List Deed}
    (hafter : Unasked c after) : Answered tty c reading (before ++ deeds ++ after) := by
  obtain ⟨front, answer, back, rfl, hback, hreading⟩ := h
  exact ⟨before ++ front, answer, back ++ after, by simp, hback.append hafter, hreading⟩

/-- What a command's turn came to: a command that the unit refused is not asked again, and any
other has what came back; the refusal itself reads as nothing. -/
inductive Turn (tty : String) (session session' : Session) (deeds : List Deed) (c : Command) :
    Option Reading → Prop
  | passed (hrefused : c ∈ session.unsupported) (hunasked : Unasked c deeds) :
    Turn tty session session' deeds c none
  | asked {reading : Option Reading} (htold : Answered tty c reading deeds)
    (hrefused : c ∈ session'.unsupported → reading = none) :
    Turn tty session session' deeds c reading

/-- A loop over commands that came to its end with these readings. -/
structure Series (tty : String) (commands : List Command) (session : Session)
    (readings : List (Command × Option Reading)) (session' : Session) (deeds : List Deed) :
    Prop where
  exchanged : Exchanged tty commands deeds
  commands_eq : readings.map Prod.fst = commands
  turns : ∀ c reading, (c, reading) ∈ readings → Turn tty session session' deeds c reading
  refused : ∀ c ∈ session'.unsupported, c ∈ session.unsupported ∨ c ∈ commands

/-- What a single command can do. -/
inductive CommandSpec (tty : String) (c : Command) (session : Session) :
    Except String (Option (List UInt8)) → Session → List Deed → Prop
  | passed (hc : c ∈ session.unsupported) : CommandSpec tty c session (.ok none) session []
  | unwritten (e message : String) : CommandSpec tty c session (.error message) session
      [.wrote tty c.request (.error e)]
  | unread (e message : String) : CommandSpec tty c session (.error message) session
      [.wrote tty c.request (.ok ()), .read tty (.error e)]
  | answered {frame payload : List UInt8} (hc : c ∉ session.unsupported)
      (hframe : parseResponse frame = .ok (.payload payload)) :
      CommandSpec tty c session (.ok (some payload)) session
        [.wrote tty c.request (.ok ()), .read tty (.ok (some frame))]
  | refused {frame : List UInt8} (hframe : parseResponse frame = .ok .nak) :
      CommandSpec tty c session (.ok none) (session.refuse c)
        [.wrote tty c.request (.ok ()), .read tty (.ok (some frame))]
  | lost {answer : Option (List UInt8)} (hc : c ∉ session.unsupported)
      (hanswer : c.answered (.ok answer) = none) :
      CommandSpec tty c session (.ok none) (session.discard 1)
        [.wrote tty c.request (.ok ()), .read tty (.ok answer)]

section Exchange

variable {host : Host} {tty timeout : String}

/-- What a command does, and what it leaves in the log. -/
theorem readCommand_spec (c : Command) (session : Session) (log : List Deed) :
    ∃ deeds, (readCommand (host.transport tty) timeout c session log).2.2 = log ++ deeds ∧
      CommandSpec tty c session (readCommand (host.transport tty) timeout c session log).1
        (readCommand (host.transport tty) timeout c session log).2.1 deeds := by
  rw [readCommand]
  split_ifs with hc
  · exact ⟨[], (List.append_nil _).symm, .passed hc⟩
  unfold exchange Host.transport
  dsimp only
  rcases host.writeRequest log tty c.request with e | ⟨⟩
  · exact ⟨_, rfl, .unwritten e _⟩
  dsimp only
  generalize hasked : log ++ [.wrote tty c.request (.ok ())] = asked
  have hlog : ∀ reply, asked ++ [.read tty reply]
      = log ++ [.wrote tty c.request (.ok ()), .read tty reply] := by
    intro reply
    rw [← hasked, List.append_assoc]
    rfl
  rcases host.readFrame asked tty with e | _ | frame
  · exact ⟨_, hlog _, .unread e _⟩
  · exact ⟨_, hlog _, .lost hc rfl⟩
  · dsimp only
    rcases hframe : parseResponse frame with e | payload | _
    · refine ⟨_, hlog _, .lost hc ?_⟩
      rw [Command.answered, hframe]
    · exact ⟨_, hlog _, .answered hc hframe⟩
    · exact ⟨_, hlog _, .refused hframe⟩

variable {c : Command} {session session' : Session} {deeds : List Deed}

theorem CommandSpec.exchanged {result : Except String (Option (List UInt8))}
    (h : CommandSpec tty c session result session' deeds) : Exchanged tty [c] deeds := by
  have hboth : ∀ reply, Exchanged tty [c]
      [.wrote tty c.request (.ok ()), .read tty reply] := fun reply =>
    ⟨List.forall_mem_cons.mpr ⟨.wrote c _, List.forall_mem_singleton.mpr (.read _)⟩,
      List.Sublist.refl _⟩
  cases h with
  | passed hc => exact ⟨List.forall_mem_nil _, List.nil_sublist _⟩
  | unwritten e message =>
    exact ⟨List.forall_mem_singleton.mpr (.wrote c _), List.Sublist.refl _⟩
  | unread e message => exact hboth _
  | answered hc hframe => exact hboth _
  | refused hframe => exact hboth _
  | lost hc hanswer => exact hboth _

/-- A failure of the port is in the log. -/
theorem CommandSpec.broken {message : String}
    (h : CommandSpec tty c session (.error message) session' deeds) : Lost tty deeds := by
  cases h with
  | unwritten e => exact ⟨[], _, rfl, .wrote _ _⟩
  | unread e => exact ⟨[_], _, rfl, .read _⟩

/-- The turn of a command, with what becomes of its payload. -/
theorem CommandSpec.turn {payload : Option (List UInt8)}
    (h : CommandSpec tty c session (.ok payload) session' deeds) (unreadable : Nat) :
    Turn tty session (interpret unreadable c session' payload).2 deeds c
        (interpret unreadable c session' payload).1 ∧
      ∀ d ≠ c, d ∈ (interpret unreadable c session' payload).2.unsupported →
        d ∈ session.unsupported := by
  have htold : ∀ answer, Answered tty c (c.answered answer)
      [.wrote tty c.request (.ok ()), .read tty answer] := fun answer =>
    ⟨[], answer, [], rfl, fun _ _ hmem => (nomatch hmem), rfl⟩
  cases h with
  | passed hc => exact ⟨.passed hc fun _ _ hmem => (nomatch hmem), fun _ _ hd => hd⟩
  | @answered frame payload hc hframe =>
    have hanswered : c.answered (.ok (some frame)) = (c.read payload).toOption := by
      rw [Command.answered, hframe]
    have hasked := htold (.ok (some frame))
    rw [hanswered] at hasked
    rw [interpret]
    rcases hread : c.read payload with e | reading <;> rw [hread] at hasked
    · exact ⟨.asked hasked fun _ => rfl, fun _ _ hd => hd⟩
    · exact ⟨.asked hasked fun hrefused => absurd hrefused hc, fun _ _ hd => hd⟩
  | @refused frame hframe =>
    have hanswered : c.answered (.ok (some frame)) = none := by
      rw [Command.answered, hframe]
    have hasked := htold (.ok (some frame))
    rw [hanswered] at hasked
    exact ⟨.asked hasked fun _ => rfl,
      fun _ hne hd => (Finset.mem_insert.mp hd).resolve_left hne⟩
  | @lost answer hc hanswer =>
    have hasked := htold (.ok answer)
    rw [hanswer] at hasked
    exact ⟨.asked hasked fun _ => rfl, fun _ _ hd => hd⟩

theorem Exchanged.append {commands commands' : List Command} {deeds deeds' : List Deed}
    (h : Exchanged tty commands deeds) (h' : Exchanged tty commands' deeds') :
    Exchanged tty (commands ++ commands') (deeds ++ deeds') where
  only := List.forall_mem_append.mpr ⟨h.only, h'.only⟩
  once := by
    rw [requests_append, List.map_append]
    exact h.once.append h'.once

/-- A loop over commands that stopped early asked some of them. -/
theorem Exchanged.more {c : Command} {deeds : List Deed} (h : Exchanged tty [c] deeds)
    (commands : List Command) : Exchanged tty (c :: commands) deeds :=
  ⟨h.only, h.once.trans (List.sublist_append_left _ _)⟩

/-- The first of a number of commands, and a round of the others. -/
theorem Series.cons {commands : List Command} {session₁ : Session} {asked : List Deed}
    {reading : Option Reading} {readings : List (Command × Option Reading)}
    (hturn : Turn tty session session₁ asked c reading)
    (hkept : ∀ d ≠ c, d ∈ session₁.unsupported → d ∈ session.unsupported)
    (hasked : Exchanged tty [c] asked) (hc : c ∉ commands)
    (h : Series tty commands session₁ readings session' deeds) :
    Series tty (c :: commands) session ((c, reading) :: readings) session' (asked ++ deeds) := by
  refine ⟨hasked.append h.exchanged, congrArg (c :: ·) h.commands_eq, ?_, ?_⟩
  · intro d reading' hmem
    rcases List.mem_cons.mp hmem with heq | hmem
    · cases heq
      have hlater : Unasked c deeds := h.exchanged.unasked hc
      cases hturn with
      | passed hrefused hunasked => exact .passed hrefused (hunasked.append hlater)
      | asked htold hrefused =>
        exact .asked (htold.append [] hlater)
          fun hmem => hrefused ((h.refused c hmem).resolve_right hc)
    · have hd : d ∈ commands := h.commands_eq ▸ List.mem_map_of_mem hmem
      have hne : d ≠ c := fun heq => hc (heq ▸ hd)
      have hearlier : Unasked d asked := hasked.unasked (List.mem_singleton.not.mpr hne)
      cases h.turns d reading' hmem with
      | passed hrefused hunasked =>
        exact .passed (hkept d hne hrefused) (hearlier.append hunasked)
      | asked htold hrefused =>
        have hlater := htold.append asked fun _ _ hmem => List.not_mem_nil hmem
        rw [List.append_nil] at hlater
        exact .asked hlater hrefused
  · intro d hd
    rw [List.mem_cons]
    by_cases hne : d = c
    · exact .inr (.inl hne)
    · exact (h.refused d hd).imp (hkept d hne) .inr

/-- Several commands take their turns one after the other. -/
theorem readEach_spec (unreadable : Nat) {commands : List Command} (hnodup : commands.Nodup)
    (session : Session) (log : List Deed) :
    ∃ deeds, (readEach (host.transport tty) timeout unreadable commands session log).2.2
        = log ++ deeds ∧ Exchanged tty commands deeds ∧
      (∀ e, (readEach (host.transport tty) timeout unreadable commands session log).1 = .error e →
        Lost tty deeds) ∧
      ∀ readings, (readEach (host.transport tty) timeout unreadable commands session log).1
          = .ok readings →
        Series tty commands session readings
          (readEach (host.transport tty) timeout unreadable commands session log).2.1 deeds := by
  induction commands generalizing session log with
  | nil =>
    have hnothing : Exchanged tty [] [] := ⟨List.forall_mem_nil _, List.nil_sublist _⟩
    rw [readEach]
    refine ⟨[], (List.append_nil _).symm, hnothing, (fun _ h => by cases h), ?_⟩
    rintro _ ⟨⟩
    exact ⟨hnothing, rfl, fun _ _ hmem => absurd hmem List.not_mem_nil, fun _ hc => .inl hc⟩
  | cons c commands ih =>
    obtain ⟨hc, hnodup⟩ := List.nodup_cons.mp hnodup
    obtain ⟨asked, hasked, hspec⟩ := @readCommand_spec host tty timeout c session log
    rw [readEach]
    rcases hcommand : readCommand (host.transport tty) timeout c session log
      with ⟨e | payload, session₁, log₁⟩ <;> rw [hcommand] at hasked hspec <;> cases hasked
    · exact ⟨asked, rfl, hspec.exchanged.more commands, fun _ _ => hspec.broken,
        fun _ h => by cases h⟩
    obtain ⟨hturn, hkept⟩ := hspec.turn unreadable
    obtain ⟨deeds, hdeeds, hrest, hfailed, hseries⟩ :=
      ih hnodup (interpret unreadable c session₁ payload).2 (log ++ asked)
    dsimp only
    generalize readEach (host.transport tty) timeout unreadable commands
      (interpret unreadable c session₁ payload).2 (log ++ asked) = read
      at hdeeds hfailed hseries ⊢
    rcases read with ⟨e | rest, session₂, log₂⟩
    · exact ⟨asked ++ deeds, hdeeds.trans (List.append_assoc ..), hspec.exchanged.append hrest,
        fun _ _ => (hfailed e rfl).append asked, fun _ h => by cases h⟩
    · refine ⟨asked ++ deeds, hdeeds.trans (List.append_assoc ..), hspec.exchanged.append hrest,
        (fun _ h => by cases h), ?_⟩
      rintro _ ⟨⟩
      exact (hseries rest rfl).cons hturn hkept hspec.exchanged hc

end Exchange

/-! ## What a cycle holds, and what is known of the unit -/

/-- A cycle that was polled: what it holds for a live command is what the command's turn came
to. -/
structure Polled (tty : String) (session : Session) (cycle : Cycle) (session' : Session)
    (deeds : List Deed) : Prop where
  exchanged : Exchanged tty liveCommands deeds
  turns : ∀ c ∈ liveCommands, Turn tty session session' deeds c (cycle.reading c)
  refused : ∀ c ∈ session'.unsupported, c ∈ session.unsupported ∨ c ∈ liveCommands

/-- The attributes that the readings of the identity commands become. -/
def identityOf (told : Command → Option Reading) : List (String × Option String) :=
  staticCommands.map fun c => (identityKey c, Reading.string? (told c))

/-- What the program holds of the unit is what came back the last time each of the identity
commands was asked; of a command that the unit refused this is nothing. -/
structure Known (tty : String) (told : Command → Option Reading) (session : Session)
    (deeds : List Deed) : Prop where
  last : ∀ c ∈ staticCommands, Answered tty c (told c) deeds
  refused : ∀ c ∈ staticCommands, c ∈ session.unsupported → told c = none

section Known

variable {tty : String} {told : Command → Option Reading} {session session' : Session}
  {deeds more : List Deed}

/-- Polling the live commands leaves what is known of the unit. -/
theorem Known.polled {cycle : Cycle} (h : Known tty told session deeds)
    (hpolled : Polled tty session cycle session' more) :
    Known tty told session' (deeds ++ more) where
  last c hc := (h.last c hc).append [] (hpolled.exchanged.unasked (static_not_live hc))
  refused c hc hrefused :=
    h.refused c hc ((hpolled.refused c hrefused).resolve_right (static_not_live hc))

theorem Known.append (h : Known tty told session deeds)
    (hmore : ∀ c ∈ staticCommands, Unasked c more) : Known tty told session (deeds ++ more) where
  last c hc := (h.last c hc).append [] (hmore c hc)
  refused := h.refused

/-- A round of the identity commands brings what is known up to date. -/
theorem Series.known {readings : List (Command × Option Reading)}
    (h : Series tty staticCommands session readings session' more)
    (hbefore : ∀ c ∈ staticCommands, c ∈ session.unsupported → Answered tty c none deeds) :
    ∃ told, readings.map (fun r => (identityKey r.1, Reading.string? r.2)) = identityOf told ∧
      Known tty told session' (deeds ++ more) := by
  have hnodup : (readings.map Prod.fst).Nodup := h.commands_eq ▸ nodup_staticCommands
  let told : Command → Option Reading := fun c => (readings.lookup c).join
  have hlookup : ∀ c reading, (c, reading) ∈ readings → told c = reading := by
    intro c reading hmem
    obtain ⟨front, back, heq⟩ := List.append_of_mem hmem
    have hsome : readings.lookup c = some reading := by
      refine List.lookup_eq_some_iff.mpr ⟨front, back, heq, fun r hr => bne_iff_ne.mpr ?_⟩
      rw [heq, List.map_append, List.map_cons] at hnodup
      exact fun hsame => (List.nodup_append.mp hnodup).2.2 _ (List.mem_map_of_mem hr) _
        List.mem_cons_self hsame.symm
    show (readings.lookup c).join = reading
    rw [hsome]
    rfl
  have hexists : ∀ c ∈ staticCommands, (c, told c) ∈ readings := by
    intro c hc
    rw [← h.commands_eq] at hc
    obtain ⟨⟨d, reading⟩, hmem, rfl⟩ := List.mem_map.mp hc
    exact (hlookup d reading hmem).symm ▸ hmem
  refine ⟨told, ?_, fun c hc => ?_, fun c hc hrefused => ?_⟩
  · rw [identityOf, ← h.commands_eq, List.map_map]
    refine List.map_congr_left fun r hr => ?_
    show _ = (identityKey r.1, Reading.string? (told r.1))
    rw [hlookup r.1 r.2 hr]
  · have hturn := h.turns c (told c) (hexists c hc)
    generalize told c = reading at hturn
    cases hturn with
    | passed hrefused hunasked => exact (hbefore c hc hrefused).append [] hunasked
    | asked htold hrefused =>
      have hlater := htold.append deeds fun _ _ hmem => List.not_mem_nil hmem
      rwa [List.append_nil] at hlater
  · have hturn := h.turns c (told c) (hexists c hc)
    generalize told c = reading at hturn ⊢
    cases hturn with
    | passed _ _ => rfl
    | asked _ hnone => exact hnone hrefused

end Known

section Tick

variable {host : Host} {options : Options} {connected : Connected}

/-- A cycle is made of the answers to its commands. -/
theorem poll_spec (session : Session) (log : List Deed) :
    ∃ deeds, (poll host options connected session log).2.2 = log ++ deeds ∧
      Exchanged connected.tty liveCommands deeds ∧
      (∀ e, (poll host options connected session log).1 = .error e → Lost connected.tty deeds) ∧
      ∀ cycle, (poll host options connected session log).1 = .ok cycle →
        Polled connected.tty session cycle (poll host options connected session log).2.1
          deeds := by
  obtain ⟨deeds, hdeeds, hexchanged, hlost, hseries⟩ := @readEach_spec host connected.tty
    options.responseTimeout 1 liveCommands nodup_liveCommands session log
  unfold poll pollCycle
  dsimp only
  generalize readEach (host.transport connected.tty) options.responseTimeout 1 liveCommands session
    log = read at hdeeds hlost hseries ⊢
  rcases read with ⟨e | readings, session', log'⟩
  · exact ⟨deeds, hdeeds, hexchanged, fun _ _ => hlost e rfl, fun _ h => by cases h⟩
  · have hseries := hseries readings rfl
    refine ⟨deeds, hdeeds, hexchanged, (fun _ h => by cases h), ?_⟩
    rintro _ ⟨⟩
    refine ⟨hexchanged, fun c hc => ?_, hseries.refused⟩
    have hstored : ∀ d stored, (d, some stored) ∈ readings →
        ∃ payload, d.read payload = .ok stored := by
      intro d stored hmem
      cases hseries.turns d (some stored) hmem with
      | asked htold _ =>
        obtain ⟨_, _, _, -, -, hanswered⟩ := htold
        exact Command.exists_payload_of_answered hanswered.symm
    rw [← hseries.commands_eq] at hc
    obtain ⟨⟨d, reading⟩, hmem, rfl⟩ := List.mem_map.mp hc
    rw [Cycle.reading_link, Cycle.reading_collected hstored hseries.commands_eq hmem]
    exact hseries.turns d reading hmem

/-- The identity is made of the answers to the identity commands. -/
theorem readIdentity_spec (tty timeout : String) (session : Session) (log : List Deed) :
    ∃ deeds, (readIdentity (host.transport tty) timeout session log).2.2 = log ++ deeds ∧
      Exchanged tty staticCommands deeds ∧
      (∀ e, (readIdentity (host.transport tty) timeout session log).1 = .error e →
        Lost tty deeds) ∧
      ∀ identity, (readIdentity (host.transport tty) timeout session log).1 = .ok identity →
        ∃ readings, Series tty staticCommands session readings
            (readIdentity (host.transport tty) timeout session log).2.1 deeds ∧
          identity = readings.map fun r => (identityKey r.1, Reading.string? r.2) := by
  obtain ⟨deeds, hdeeds, hexchanged, hlost, hseries⟩ := @readEach_spec host tty timeout 0
    staticCommands nodup_staticCommands session log
  unfold readIdentity
  generalize readEach (host.transport tty) timeout 0 staticCommands session log = read
    at hdeeds hlost hseries ⊢
  rcases read with ⟨e | readings, session', log'⟩
  · exact ⟨deeds, hdeeds, hexchanged, fun _ _ => hlost e rfl, fun _ h => by cases h⟩
  · refine ⟨deeds, hdeeds, hexchanged, (fun _ h => by cases h), ?_⟩
    rintro _ ⟨⟩
    exact ⟨readings, hseries readings rfl, rfl⟩

/-- The cycle, as it is published. -/
def batch (host : Host) (options : Options) (connected : Connected)
    (identity : List (String × Option String)) (log : List Deed) (cycle : Cycle) : List Deed :=
  [.polled cycle, .published
    (resourceAttributes host options connected identity (log ++ [.polled cycle])) (records cycle)]

/-- What the last part of a tick can do. -/
inductive RefreshSpec (connected : Connected) (ticking : Ticking) (log : List Deed) :
    Except (Except Stop Unit) Ticking → List Deed → Prop
  | lost {asked : List Deed} (message : String)
    (hasked : Exchanged connected.tty staticCommands asked) (hlost : Lost connected.tty asked) :
    RefreshSpec connected ticking log (.error (.error (.err message))) (log ++ asked)
  | asked {deeds : List Deed} {ticking' : Ticking}
    {readings : List (Command × Option Reading)}
    (hseries : Series connected.tty staticCommands ticking.session readings ticking'.session deeds)
    (hsilent : ticking'.silentCycles = ticking.silentCycles)
    (hidentity : ticking'.identity
      = readings.map fun r => (identityKey r.1, Reading.string? r.2)) :
    RefreshSpec connected ticking log (.ok ticking') (log ++ deeds ++ [.slept])
  | slept : RefreshSpec connected ticking log (.ok ticking) (log ++ [.slept])

/-- What one tick can do. -/
inductive TickSpec (host : Host) (options : Options) (connected : Connected) (ticking : Ticking)
    (log : List Deed) : Except (Except Stop Unit) Ticking → List Deed → Prop
  | lost {deeds : List Deed} (message : String)
    (hdeeds : Exchanged connected.tty liveCommands deeds) (hlost : Lost connected.tty deeds) :
    TickSpec host options connected ticking log (.error (.error (.err message))) (log ++ deeds)
  | silent {deeds : List Deed} {cycle : Cycle} {session : Session}
    (hpolled : Polled connected.tty ticking.session cycle session deeds)
    (hempty : cycle.isEmpty) (hmax : maxSilentCycles ≤ ticking.silentCycles + 1) :
    TickSpec host options connected ticking log
      (.error (.error (.err (silence connected.device (ticking.silentCycles + 1)))))
      (log ++ deeds ++ [.polled cycle])
  | once {deeds : List Deed} {cycle : Cycle} {session : Session}
    (hpolled : Polled connected.tty ticking.session cycle session deeds)
    (hgo : cycle.isEmpty → ticking.silentCycles + 1 < maxSilentCycles) (honce : options.once) :
    TickSpec host options connected ticking log (.error (.ok ()))
      (log ++ deeds ++ batch host options connected ticking.identity (log ++ deeds) cycle)
  | on {deeds log' : List Deed} {cycle : Cycle} {session : Session}
    {result : Except (Except Stop Unit) Ticking}
    (hpolled : Polled connected.tty ticking.session cycle session deeds)
    (hgo : cycle.isEmpty → ticking.silentCycles + 1 < maxSilentCycles) (honce : ¬ options.once)
    (hrefresh : RefreshSpec connected
      { ticking with
        silentCycles := if cycle.isEmpty then ticking.silentCycles + 1 else 0, session }
      (log ++ deeds ++ batch host options connected ticking.identity (log ++ deeds) cycle)
      result log') :
    TickSpec host options connected ticking log result log'

/-- What a tick does for the identity. -/
theorem refresh_spec (ticking : Ticking) (log : List Deed) :
    RefreshSpec connected ticking log (refresh host options connected ticking log).1
      (refresh host options connected ticking log).2 := by
  rw [refresh]
  by_cases hdue : options.staticRefresh ≤ host.now log - ticking.lastStatic
  · rw [if_pos hdue]
    obtain ⟨deeds, hlog, hasked, hlost, hseries⟩ := @readIdentity_spec host connected.tty
      options.responseTimeout ticking.session log
    generalize readIdentity (host.transport connected.tty) options.responseTimeout ticking.session
      log = read at hlog hlost hseries ⊢
    rcases read with ⟨e | identity, session, log'⟩ <;> dsimp only at hlog <;> subst hlog
    · exact .lost e hasked (hlost e rfl)
    · obtain ⟨readings, hseries, rfl⟩ := hseries identity rfl
      exact .asked hseries rfl rfl
  · rw [if_neg hdue]
    exact .slept

/-- What a tick comes to. -/
theorem tick_spec (ticking : Ticking) (log : List Deed) :
    TickSpec host options connected ticking log (tick host options connected ticking log).1
      (tick host options connected ticking log).2 := by
  obtain ⟨deeds, hlog, hexchanged, hlost, hpolled⟩ :=
    @poll_spec host options connected ticking.session log
  rw [tick]
  generalize poll host options connected ticking.session log = polled at hlog hlost hpolled ⊢
  rcases polled with ⟨e | cycle, session, log'⟩ <;> dsimp only at hlog <;> subst hlog
  · exact .lost e hexchanged (hlost e rfl)
  have hcycle := hpolled cycle rfl
  dsimp only
  by_cases hsilent : cycle.isEmpty ∧ maxSilentCycles ≤
      (if cycle.isEmpty then ticking.silentCycles + 1 else 0)
  · rw [if_pos hsilent]
    obtain ⟨hempty, hmax⟩ := hsilent
    rw [if_pos hempty] at hmax ⊢
    exact .silent hcycle hempty hmax
  rw [if_neg hsilent]
  have hgo : cycle.isEmpty → ticking.silentCycles + 1 < maxSilentCycles := by
    intro hempty
    rw [if_pos hempty, not_and] at hsilent
    exact Nat.lt_of_not_le (hsilent hempty)
  have hbatch : log ++ deeds ++ [.polled cycle] ++ [.published (resourceAttributes host options
      connected ticking.identity (log ++ deeds ++ [.polled cycle])) (records cycle)]
      = log ++ deeds ++ batch host options connected ticking.identity (log ++ deeds) cycle :=
    List.append_assoc _ [_] [_]
  rw [hbatch]
  by_cases honce : options.once = true
  · rw [if_pos honce]
    exact .once hcycle hgo honce
  · rw [if_neg honce]
    exact .on hcycle hgo honce (refresh_spec _ _)

end Tick

/-! ## A run -/

/-- The search ended with this device, and so the program is connected to it. -/
def Connects (host : Host) (options : Options) (sweeps : Nat) (connected : Connected)
    (found : List Deed) : Prop :=
  ∃ candidate serialNumber,
    connectWithin host options.devDir sweeps [] = (some (.ok (candidate, serialNumber)), found) ∧
    connected = { device := candidate.pathId, tty := candidate.tty,
                  connectedAt := host.now (found ++ [.remembered candidate.pathId]) }

/-- **The rule of a run**: it comes to what a search that found nothing leads to, or a port that
failed before the first tick, or to what the ticks keep, and their end leads to. -/
theorem run_rule {host : Host} {options : Options}
    {Q : Option (Except Stop Unit) → List Deed → Prop}
    {I : Connected → Ticking → List Deed → Prop} (sweeps ticks : Nat)
    (hsearch : ∀ {ended log}, follows Hand.next .nothing log = some .nothing →
      (∀ u, ended ≠ some (.ok u)) →
      (∀ e, ended = some (.error e) →
        (connectWithin host options.devDir sweeps []).1 = some (.error e)) → Q ended log)
    (hlost : ∀ {message found device tty deeds},
      follows Hand.next .nothing found = some (.identified tty) →
      Exchanged tty staticCommands deeds → Lost tty deeds →
      Q (some (.error (.err message))) (found ++ [.remembered device] ++ deeds))
    (hbegin : ∀ {found deeds connected ticking told},
      Connects host options sweeps connected found →
      follows Hand.next .nothing found = some (.identified connected.tty) →
      Exchanged connected.tty staticCommands deeds → ticking.silentCycles = 0 →
      ticking.identity = identityOf told → Known connected.tty told ticking.session deeds →
      I connected ticking (found ++ [.remembered connected.device] ++ deeds))
    (hgo : ∀ {connected ticking log ticking' log'}, I connected ticking log →
      TickSpec host options connected ticking log (.ok ticking') log' → I connected ticking' log')
    (hend : ∀ {connected ticking log ended log'}, I connected ticking log →
      TickSpec host options connected ticking log (.error ended) log' → Q (some ended) log')
    (hstop : ∀ {connected ticking log}, I connected ticking log → Q none log) :
    Q (run host options sweeps ticks).1 (run host options sweeps ticks).2 := by
  have hloop : ∀ {connected ticking log}, I connected ticking log →
      Q (tickLoop host options connected ticks ticking log).1
        (tickLoop host options connected ticks ticking log).2 := by
    intro connected ticking log hinv
    induction ticks generalizing ticking log with
    | zero => exact hstop hinv
    | succ ticks ih =>
      have hspec := @tick_spec host options connected ticking log
      rw [tickLoop]
      generalize tick host options connected ticking log = ticked at hspec ⊢
      rcases ticked with ⟨ended | ticking', log'⟩
      · exact hend hinv hspec
      · exact ih (hgo hinv hspec)
  have hfollows := @connectWithin_follows host options.devDir sweeps [] rfl
  unfold run
  generalize hconnect : connectWithin host options.devDir sweeps [] = connected
    at hfollows hsearch ⊢
  rcases connected with ⟨_ | e | ⟨candidate, serialNumber⟩, log⟩
  · exact hsearch hfollows nofun nofun
  · refine hsearch hfollows nofun ?_
    rintro _ ⟨⟩
    rfl
  · obtain ⟨deeds, hlog, hasked, hfailed, hseries⟩ := @readIdentity_spec host candidate.tty
      options.responseTimeout {} (log ++ [.remembered candidate.pathId])
    dsimp only
    generalize readIdentity (host.transport candidate.tty) options.responseTimeout {}
      (log ++ [.remembered candidate.pathId]) = read at hlog hfailed hseries ⊢
    rcases read with ⟨e | identity, session, log'⟩ <;> dsimp only at hlog <;> subst hlog
    · exact hlost hfollows hasked (hfailed e rfl)
    · obtain ⟨readings, hseries, rfl⟩ := hseries identity rfl
      obtain ⟨told, htold, hknown⟩ := @Series.known _ _ _ [] _ _ hseries
        fun _ _ hrefused => absurd hrefused (Finset.notMem_empty _)
      have hinv := @hbegin log deeds
        { device := candidate.pathId, tty := candidate.tty,
          connectedAt := host.now (log ++ [.remembered candidate.pathId]) }
        { lastStatic := host.now (log ++ [.remembered candidate.pathId] ++ deeds), session,
          identity := readings.map fun r => (identityKey r.1, Reading.string? r.2) }
        told ⟨candidate, serialNumber, hconnect, rfl⟩ hfollows hasked rfl htold hknown
      exact hloop hinv

/-! ## To whom anything is written -/

/-- Nobody but the device in hand is spoken to. -/
theorem Exchanged.follows {tty : String} {commands : List Command} {deeds : List Deed}
    (h : Exchanged tty commands deeds) :
    Lib.follows Hand.next (.settled tty) deeds = some (.settled tty) := by
  have honly := h.only
  clear h
  induction deeds with
  | nil => rfl
  | cons deed deeds ih =>
    have hdeed : (Hand.settled tty).next deed = some (.settled tty) := by
      cases honly deed List.mem_cons_self with
      | wrote c result => exact Hand.next_question c result
      | read reply => exact Hand.next_reply reply
    exact follows_cons.mpr ⟨_, hdeed, ih fun d hd => honly d (List.mem_cons_of_mem _ hd)⟩

/-- A tick keeps the inverter in hand. -/
theorem TickSpec.follows {host : Host} {options : Options} {connected : Connected}
    {ticking : Ticking} {log log' : List Deed} {result : Except (Except Stop Unit) Ticking}
    (h : TickSpec host options connected ticking log result log')
    (hlog : Lib.follows Hand.next .nothing log = some (.settled connected.tty)) :
    Lib.follows Hand.next .nothing log' = some (.settled connected.tty) := by
  have hgo : ∀ {log more}, Lib.follows Hand.next .nothing log = some (.settled connected.tty) →
      Lib.follows Hand.next (.settled connected.tty) more = some (.settled connected.tty) →
      Lib.follows Hand.next .nothing (log ++ more) = some (.settled connected.tty) :=
    fun h hmore => follows_append.mpr ⟨_, h, hmore⟩
  have hbatch : ∀ log cycle, Lib.follows Hand.next (.settled connected.tty)
      (batch host options connected ticking.identity log cycle) = some (.settled connected.tty) :=
    fun _ _ => rfl
  cases h with
  | lost message hdeeds hlost => exact hgo hlog hdeeds.follows
  | silent hpolled hempty hmax => exact hgo (hgo hlog hpolled.exchanged.follows) rfl
  | once hpolled hsilent honce =>
    exact hgo (hgo hlog hpolled.exchanged.follows) (hbatch _ _)
  | on hpolled hsilent honce hrefresh =>
    have hpolling := hgo hlog hpolled.exchanged.follows
    cases hrefresh with
    | lost message hasked hlost => exact hgo (hgo hpolling (hbatch _ _)) hasked.follows
    | asked hseries _ _ =>
      exact hgo (hgo (hgo hpolling (hbatch _ _)) hseries.exchanged.follows) rfl
    | slept => exact hgo (hgo hpolling (hbatch _ _)) rfl

/-- The whole log of a run keeps to the protocol with the devices. -/
theorem run_follows (host : Host) (options : Options) (sweeps ticks : Nat) :
    ∃ hand, Lib.follows Hand.next .nothing (run host options sweeps ticks).2 = some hand := by
  have hsettled : ∀ {found deeds tty device},
      Lib.follows Hand.next .nothing found = some (.identified tty) →
      Exchanged tty staticCommands deeds →
      Lib.follows Hand.next .nothing (found ++ [.remembered device] ++ deeds)
        = some (.settled tty) :=
    fun hfound hasked =>
      follows_append.mpr ⟨_, follows_append.mpr ⟨_, hfound, rfl⟩, hasked.follows⟩
  exact run_rule (Q := fun _ log => ∃ hand, Lib.follows Hand.next .nothing log = some hand)
    (I := fun connected _ log =>
      Lib.follows Hand.next .nothing log = some (.settled connected.tty)) sweeps ticks
    (fun h _ _ => ⟨_, h⟩) (fun hfound hasked _ => ⟨_, hsettled hfound hasked⟩)
    (fun _ hfound hasked _ _ _ => hsettled hfound hasked)
    (fun hinv hspec => hspec.follows hinv)
    (fun hinv hspec => ⟨_, hspec.follows hinv⟩) (fun hinv => ⟨_, hinv⟩)

/-- What justifies that a device is opened, or something is written to it. -/
def Warranted (before : List Deed) : Deed → Prop
  | .opened _ _ => ∀ tty reply, .read tty reply ∈ before → ¬ identifies reply
  | .wrote tty request _ =>
    (∃ c earlier session, request = Command.request c ∧
      before = earlier ++ .opened tty (.ok .port) :: session ∧ Entitled tty c session) ∧
    ∀ tty' reply, .read tty' reply ∈ before → identifies reply → tty' = tty
  | _ => True

/-- **In a whole run nothing is written but the nine questions, and none of them to a device
that may not be the inverter**: a device is asked for its serial number only when it was opened,
kept quiet while it was listened to, and has been in hand since, and anything else only when it
has told its serial number besides; from then on no other device is opened, or written to. -/
theorem asks_only_the_inverter (host : Host) (options : Options) (sweeps ticks : Nat) :
    Justified Warranted (run host options sweeps ticks).2 := by
  obtain ⟨hand, hfollows⟩ := run_follows host options sweeps ticks
  intro before deed after hlog
  rw [hlog] at hfollows
  -- what a device that told its serial number says about this deed
  have hsettled : ∀ tty reply, .read tty reply ∈ before → identifies reply →
      (∀ tty' result, deed ≠ .opened tty' result) ∧
        ∀ tty' request result, deed = .wrote tty' request result → tty' = tty := by
    intro tty reply hmem hidentifies
    obtain ⟨front, back, rfl⟩ := List.append_of_mem hmem
    rw [List.append_assoc, List.cons_append] at hfollows
    exact settled_of_follows hidentifies hfollows deed
      (List.mem_append_right _ List.mem_cons_self)
  cases deed with
  | opened tty result =>
    exact fun tty' reply hmem hidentifies => (hsettled tty' reply hmem hidentifies).1 tty result rfl
  | wrote tty request result =>
    refine ⟨asked_of_follows hfollows, fun tty' reply hmem hidentifies => ?_⟩
    exact ((hsettled tty' reply hmem hidentifies).2 tty request result rfl).symm
  | _ => trivial

/-! ## What is published -/

/-- Where a batch comes from: a cycle that was polled just before, in which every live command
had its turn, and the device that the search ended with, as the last answers to the identity
commands describe it. -/
def Sourced (host : Host) (options : Options) (sweeps : Nat) (before : List Deed) :
    Deed → Prop
  | .published resource batch =>
    ∃ connected found session deeds cycle told,
      Connects host options sweeps connected found ∧
      before = found ++ [.remembered connected.device] ++ session ++ deeds ++ [.polled cycle] ∧
      Exchanged connected.tty liveCommands deeds ∧
      (∀ c ∈ liveCommands, Answered connected.tty c (cycle.reading c) deeds ∨
        cycle.reading c = none ∧ Unasked c deeds) ∧
      batch = records cycle ∧
      (∀ c ∈ staticCommands, Answered connected.tty c (told c) session) ∧
      resource = resourceAttributes host options connected (identityOf told) before
  | _ => True

theorem sourced_append {host : Host} {options : Options} {sweeps : Nat} {log more : List Deed}
    (h : Justified (Sourced host options sweeps) log)
    (hmore : ∀ resource records, .published resource records ∉ more) :
    Justified (Sourced host options sweeps) (log ++ more) := by
  refine h.append ?_
  rintro before deed after rfl
  cases deed with
  | published resource records =>
    exact absurd (List.mem_append_right _ List.mem_cons_self) (hmore resource records)
  | _ => trivial

theorem Exchanged.not_reported {tty : String} {commands : List Command} {deeds : List Deed}
    (h : Exchanged tty commands deeds) :
    (∀ cycle, .polled cycle ∉ deeds) ∧ ∀ resource records, .published resource records ∉ deeds :=
  ⟨fun _ hmem => (nomatch h.only _ hmem), fun _ _ hmem => (nomatch h.only _ hmem)⟩

/-- While the run goes on, its batches are accounted for, and it knows of the unit what it was
last told since it was connected. -/
structure Sourcing (host : Host) (options : Options) (sweeps : Nat) (connected : Connected)
    (ticking : Ticking) (log : List Deed) : Prop where
  sourced : Justified (Sourced host options sweeps) log
  known : ∃ found session told, Connects host options sweeps connected found ∧
    log = found ++ [.remembered connected.device] ++ session ∧
    ticking.identity = identityOf told ∧ Known connected.tty told ticking.session session

section Batch

variable {host : Host} {options : Options} {sweeps : Nat} {connected : Connected}
  {ticking ticking' : Ticking} {log : List Deed}

/-- A batch is accounted for by the cycle in front of it. -/
theorem sourced_batch {deeds : List Deed} {cycle : Cycle} {session' : Session}
    (h : Sourcing host options sweeps connected ticking log)
    (hpolled : Polled connected.tty ticking.session cycle session' deeds) :
    Justified (Sourced host options sweeps)
      (log ++ deeds ++ batch host options connected ticking.identity (log ++ deeds) cycle) := by
  have hdeeds := sourced_append h.sourced hpolled.exchanged.not_reported.2
  have hcycle : Justified (Sourced host options sweeps) (log ++ deeds ++ [.polled cycle]) :=
    sourced_append hdeeds (by simp)
  have hsplit : ∀ deed : Deed, log ++ deeds ++ [.polled cycle, deed]
      = log ++ deeds ++ [.polled cycle] ++ [deed] :=
    fun deed => (List.append_assoc (log ++ deeds) [_] [_]).symm
  rw [batch, hsplit]
  refine hcycle.append ?_
  intro before deed after heq
  obtain ⟨rfl, hdeed⟩ | ⟨before, rfl, hnil⟩ := List.cons_eq_append_iff.mp heq
  · cases hdeed
    rw [List.append_nil]
    obtain ⟨found, session, told, hconnects, rfl, hidentity, hknown⟩ := h.known
    refine ⟨connected, found, session, deeds, cycle, told, hconnects, rfl, hpolled.exchanged,
      fun c hc => ?_, rfl, hknown.last, by rw [hidentity]⟩
    have hturn := hpolled.turns c hc
    generalize cycle.reading c = reading at hturn
    cases hturn with
    | passed hrefused hunasked => exact .inr ⟨rfl, hunasked⟩
    | asked htold hrefused => exact .inl htold
  · cases before <;> cases hnil

/-- What the session goes on with after a tick. -/
theorem Sourcing.batch {deeds : List Deed} {cycle : Cycle} {session' : Session}
    (h : Sourcing host options sweeps connected ticking log)
    (hpolled : Polled connected.tty ticking.session cycle session' deeds) (silentCycles : Nat) :
    Sourcing host options sweeps connected
      { ticking with silentCycles := silentCycles, session := session' }
      (log ++ deeds ++
        Inverter.batch host options connected ticking.identity (log ++ deeds) cycle) := by
  refine ⟨sourced_batch h hpolled, ?_⟩
  obtain ⟨found, session, told, hconnects, hlog, hidentity, hknown⟩ := h.known
  have hunasked : ∀ before, ∀ c ∈ staticCommands, Unasked c
      (Inverter.batch host options connected ticking.identity before cycle) := by
    intro before c _ tty result hmem
    simp [Inverter.batch] at hmem
  refine ⟨found, session ++ deeds ++ Inverter.batch host options connected ticking.identity
    (log ++ deeds) cycle, told, hconnects, ?_, hidentity,
    (hknown.polled hpolled).append (hunasked _)⟩
  rw [hlog]
  simp only [List.append_assoc]

/-- What brings the identity up to date, and the wait for the next tick. -/
theorem Sourcing.asked {deeds : List Deed} {readings : List (Command × Option Reading)}
    (h : Sourcing host options sweeps connected ticking log)
    (hseries : Series connected.tty staticCommands ticking.session readings ticking'.session deeds)
    (hidentity : ticking'.identity
      = readings.map fun r => (identityKey r.1, Reading.string? r.2)) :
    Sourcing host options sweeps connected ticking' (log ++ deeds ++ [.slept]) := by
  refine ⟨sourced_append (sourced_append h.sourced hseries.exchanged.not_reported.2) (by simp), ?_⟩
  obtain ⟨found, session, told, hconnects, rfl, -, hknown⟩ := h.known
  obtain ⟨told', htold, hknown'⟩ := hseries.known fun c hc hrefused =>
    hknown.refused c hc hrefused ▸ hknown.last c hc
  refine ⟨found, session ++ deeds ++ [.slept], told', hconnects, ?_, hidentity.trans htold,
    hknown'.append ?_⟩
  · simp only [List.append_assoc]
  · intro c _ tty result hmem
    simp at hmem

theorem Sourcing.slept (h : Sourcing host options sweeps connected ticking log) :
    Sourcing host options sweeps connected ticking (log ++ [.slept]) := by
  refine ⟨sourced_append h.sourced (by simp), ?_⟩
  obtain ⟨found, session, told, hconnects, rfl, hidentity, hknown⟩ := h.known
  refine ⟨found, session ++ [.slept], told, hconnects, List.append_assoc .., hidentity,
    hknown.append ?_⟩
  intro c _ tty result hmem
  simp at hmem

/-- A tick keeps every batch accounted for, and what is known of the unit. -/
theorem TickSpec.sourced {log' : List Deed} {result : Except (Except Stop Unit) Ticking}
    (h : TickSpec host options connected ticking log result log')
    (hlog : Sourcing host options sweeps connected ticking log) :
    Justified (Sourced host options sweeps) log' ∧
      ∀ ticking', result = .ok ticking' →
        Sourcing host options sweeps connected ticking' log' := by
  cases h with
  | lost message hdeeds hlost =>
    exact ⟨sourced_append hlog.sourced hdeeds.not_reported.2, nofun⟩
  | silent hpolled hempty hmax =>
    exact ⟨sourced_append (sourced_append hlog.sourced hpolled.exchanged.not_reported.2)
      (by simp), nofun⟩
  | once hpolled hsilent honce => exact ⟨sourced_batch hlog hpolled, nofun⟩
  | @on deeds _ cycle _ _ hpolled hsilent honce hrefresh =>
    have hgone := hlog.batch hpolled (if cycle.isEmpty then ticking.silentCycles + 1 else 0)
    cases hrefresh with
    | lost message hasked hlost =>
      exact ⟨sourced_append (sourced_batch hlog hpolled) hasked.not_reported.2, nofun⟩
    | asked hseries hsame hidentity =>
      have hasked := hgone.asked hseries hidentity
      exact ⟨hasked.sourced, fun _ heq => by cases heq; exact hasked⟩
    | slept => exact ⟨hgone.slept.sourced, fun _ heq => by cases heq; exact hgone.slept⟩

end Batch

/-- **Whatever a run publishes was read off the device for it**: a batch is the records of a
cycle that was polled just before it, in which each live command was asked once at most, and
what the cycle holds for a command is what the frame says that was read right after it was
asked, or nothing; and the resource is the device that the search ended with, described by what
came back the last time each identity command was asked of it. A frame is taken for the answer
to the command before it: nothing is left from an earlier cycle, but the frame may itself be the
late answer to another command. -/
theorem publishes_what_was_read (host : Host) (options : Options) (sweeps ticks : Nat) :
    Justified (Sourced host options sweeps) (run host options sweeps ticks).2 := by
  have hnothing : Justified (Sourced host options sweeps) [] :=
    fun before deed after h => by simp at h
  have hquiet : ∀ {log : List Deed} {hand : Hand},
      Lib.follows Hand.next .nothing log = some hand → (∀ tty, hand ≠ .settled tty) →
      Justified (Sourced host options sweeps) log :=
    fun h hhand => sourced_append hnothing (unsettled_of_follows h hhand).2
  have hsettled : ∀ {found deeds tty device},
      Lib.follows Hand.next .nothing found = some (.identified tty) →
      Exchanged tty staticCommands deeds →
      Justified (Sourced host options sweeps) (found ++ [.remembered device] ++ deeds) := by
    intro found deeds tty device hfound hasked
    exact sourced_append (sourced_append (hquiet hfound nofun) (by simp)) hasked.not_reported.2
  refine run_rule (Q := fun _ log => Justified (Sourced host options sweeps) log)
    (I := Sourcing host options sweeps) sweeps ticks (fun h _ _ => hquiet h nofun)
    (fun hfound hasked _ => hsettled hfound hasked) ?_
    (fun hinv hspec => (hspec.sourced hinv).2 _ rfl)
    (fun hinv hspec => (hspec.sourced hinv).1) Sourcing.sourced
  intro found deeds connected ticking told hconnects hfound hasked _ hidentity hknown
  exact ⟨hsettled hfound hasked, found, deeds, told, hconnects, rfl, hidentity, hknown⟩

/-! ## How a run ends -/

/-- The cycles that were polled. -/
def cycles (log : List Deed) : List Cycle :=
  log.filterMap fun
    | .polled cycle => some cycle
    | _ => none

/-- The batches that were published. -/
def batches (log : List Deed) : List (List Record) :=
  log.filterMap fun
    | .published _ records => some records
    | _ => none

/-- How many cycles, at the end, read nothing. -/
def silentRun (cycles : List Cycle) : Nat := (cycles.rtakeWhile fun cycle => cycle.isEmpty).length

/-- A cycle that read something ends the silence. -/
theorem silentRun_concat (cycles : List Cycle) (cycle : Cycle) :
    silentRun (cycles ++ [cycle]) = if cycle.isEmpty then silentRun cycles + 1 else 0 := by
  rw [silentRun, List.rtakeWhile_concat]
  split_ifs
  · rw [List.length_append]
    rfl
  · rfl

theorem cycles_append (log log' : List Deed) : cycles (log ++ log') = cycles log ++ cycles log' :=
  List.filterMap_append

theorem batches_append (log log' : List Deed) :
    batches (log ++ log') = batches log ++ batches log' :=
  List.filterMap_append

/-- What neither polls nor publishes leaves the record of both as it is. -/
theorem reports_append {log more : List Deed} (hcycles : ∀ cycle, .polled cycle ∉ more)
    (hbatches : ∀ resource records, .published resource records ∉ more) :
    cycles (log ++ more) = cycles log ∧ batches (log ++ more) = batches log := by
  have hmore : cycles more = [] ∧ batches more = [] := by
    constructor <;> refine List.filterMap_eq_nil_iff.mpr fun deed hmem => ?_
    · cases deed with
      | polled cycle => exact absurd hmem (hcycles cycle)
      | _ => rfl
    · cases deed with
      | published resource records => exact absurd hmem (hbatches resource records)
      | _ => rfl
  rw [cycles_append, batches_append, hmore.1, hmore.2, List.append_nil, List.append_nil]
  exact ⟨rfl, rfl⟩

/-- What a run has reported while it goes on. -/
structure Reporting (silentCycles : Nat) (log : List Deed) : Prop where
  silent : silentCycles = silentRun (cycles log)
  patient : ∀ front back, cycles log = front ++ back → silentRun front < maxSilentCycles
  reported : batches log = (cycles log).map records

/-- What a run has reported, and how it ended. -/
structure Report (host : Host) (options : Options) (sweeps : Nat)
    (ended : Option (Except Stop Unit)) (log : List Deed) : Prop where
  /-- that many cycles without a reading are the last -/
  patient : ∀ front back, cycles log = front ++ back → back ≠ [] →
    silentRun front < maxSilentCycles
  /-- and with them the run gives up -/
  gives_up : silentRun (cycles log) = maxSilentCycles → ∃ device, .remembered device ∈ log ∧
    ended = some (.error (.err (silence device maxSilentCycles)))
  bounded : silentRun (cycles log) ≤ maxSilentCycles
  /-- every other cycle was published -/
  reported : batches log = (if silentRun (cycles log) = maxSilentCycles then (cycles log).dropLast
    else cycles log).map records
  /-- a run that was to poll once did so -/
  finished : ended = some (.ok ()) → options.once ∧ (cycles log).length = 1
  /-- only a search that found nothing, a port that failed and silence end a run otherwise -/
  failed : ∀ e, ended = some (.error e) →
    (connectWithin host options.devDir sweeps []).1 = some (.error e) ∨
    silentRun (cycles log) = maxSilentCycles ∨ ∃ tty, Lost tty log

section Reporting

variable {host : Host} {options : Options} {connected : Connected} {ticking : Ticking}
  {silentCycles sweeps : Nat} {log deeds : List Deed} {cycle : Cycle} {session : Session}

theorem Reporting.append {more : List Deed} (h : Reporting silentCycles log)
    (hmore : (∀ cycle, .polled cycle ∉ more) ∧
      ∀ resource records, .published resource records ∉ more) :
    Reporting silentCycles (log ++ more) := by
  obtain ⟨hcycles, hbatches⟩ := @reports_append log more hmore.1 hmore.2
  constructor
  · rw [hcycles]
    exact h.silent
  · rw [hcycles]
    exact h.patient
  · rw [hcycles, hbatches]
    exact h.reported

theorem cycles_batch (hpolled : Polled connected.tty ticking.session cycle session deeds) :
    cycles (log ++ deeds ++ batch host options connected ticking.identity (log ++ deeds) cycle)
      = cycles log ++ [cycle] := by
  obtain ⟨hcycles, -⟩ :=
    @reports_append log deeds hpolled.exchanged.not_reported.1 hpolled.exchanged.not_reported.2
  rw [cycles_append, hcycles]
  rfl

theorem batches_batch (hpolled : Polled connected.tty ticking.session cycle session deeds) :
    batches (log ++ deeds ++ batch host options connected ticking.identity (log ++ deeds) cycle)
      = batches log ++ [records cycle] := by
  obtain ⟨-, hbatches⟩ :=
    @reports_append log deeds hpolled.exchanged.not_reported.1 hpolled.exchanged.not_reported.2
  rw [batches_append, hbatches]
  rfl

/-- A cycle that is not the last straw is reported. -/
theorem Reporting.batch (h : Reporting silentCycles log)
    (hpolled : Polled connected.tty ticking.session cycle session deeds)
    (hgo : cycle.isEmpty → silentCycles + 1 < maxSilentCycles) :
    Reporting (if cycle.isEmpty then silentCycles + 1 else 0) (log ++ deeds ++
      Inverter.batch host options connected ticking.identity (log ++ deeds) cycle) := by
  have hsilent : silentRun (cycles log ++ [cycle])
      = if cycle.isEmpty then silentCycles + 1 else 0 := by
    rw [silentRun_concat, ← h.silent]
  constructor
  · rw [cycles_batch hpolled, hsilent]
  · rw [cycles_batch hpolled]
    intro front back heq
    rcases List.eq_nil_or_concat back with rfl | ⟨back, last, rfl⟩
    · rw [List.append_nil] at heq
      rw [← heq, hsilent]
      split_ifs with hempty
      · exact hgo hempty
      · exact Nat.succ_pos _
    · rw [List.concat_eq_append, ← List.append_assoc] at heq
      exact h.patient front back (List.append_inj_left' heq rfl)
  · rw [cycles_batch hpolled, batches_batch hpolled, h.reported, List.map_append]
    rfl

/-- A run that ends before it has been silent for too long has reported every cycle. -/
theorem Reporting.report {ended : Option (Except Stop Unit)} (h : Reporting silentCycles log)
    (hfinished : ended = some (.ok ()) → options.once ∧ (cycles log).length = 1)
    (hfailed : ∀ e, ended = some (.error e) →
      (connectWithin host options.devDir sweeps []).1 = some (.error e) ∨ ∃ tty, Lost tty log) :
    Report host options sweeps ended log := by
  have hpatient : silentRun (cycles log) < maxSilentCycles :=
    h.patient _ [] (List.append_nil _).symm
  constructor
  · exact fun front back heq _ => h.patient front back heq
  · exact fun hsilent => absurd hsilent hpatient.ne
  · exact hpatient.le
  · rw [if_neg hpatient.ne]
    exact h.reported
  · exact hfinished
  · exact fun e he => (hfailed e he).imp id .inr

/-- What the end of a tick makes of it. -/
theorem TickSpec.report {log' : List Deed} {ended : Except Stop Unit}
    (h : TickSpec host options connected ticking log (.error ended) log')
    (hreporting : Reporting ticking.silentCycles log) (honce : options.once → cycles log = [])
    (hdevice : .remembered connected.device ∈ log) :
    Report host options sweeps (some ended) log' := by
  cases h with
  | lost message hdeeds hlost =>
    exact (hreporting.append hdeeds.not_reported).report nofun
      fun _ _ => .inr ⟨_, hlost.append log⟩
  | @silent deeds cycle _ hpolled hempty hmax =>
    have hdeeds := hreporting.append hpolled.exchanged.not_reported
    have hcycles : cycles (log ++ deeds ++ [.polled cycle]) = cycles (log ++ deeds) ++ [cycle] :=
      cycles_append _ _
    have hbatches : batches (log ++ deeds ++ [.polled cycle]) = batches (log ++ deeds) :=
      (batches_append _ _).trans (List.append_nil _)
    have hthree : ticking.silentCycles + 1 = maxSilentCycles := by
      have hpatient := hreporting.patient _ [] (List.append_nil _).symm
      rw [← hreporting.silent] at hpatient
      omega
    have hsilent : silentRun (cycles (log ++ deeds ++ [.polled cycle])) = maxSilentCycles := by
      rw [hcycles, silentRun_concat, if_pos hempty, ← hdeeds.silent, hthree]
    constructor
    · rw [hcycles]
      intro front back heq hback
      obtain ⟨back, last, rfl⟩ := (List.eq_nil_or_concat back).resolve_left hback
      rw [List.concat_eq_append, ← List.append_assoc] at heq
      exact hdeeds.patient front back (List.append_inj_left' heq rfl)
    · refine fun _ => ⟨connected.device, ?_, by rw [hthree]⟩
      exact List.mem_append_left _ (List.mem_append_left _ hdevice)
    · exact hsilent.le
    · rw [if_pos hsilent, hbatches, hcycles, List.dropLast_concat]
      exact hdeeds.reported
    · exact nofun
    · exact fun _ _ => .inr (.inl hsilent)
  | once hpolled hgo hoptions =>
    refine (hreporting.batch hpolled hgo).report (fun _ => ⟨hoptions, ?_⟩) nofun
    rw [cycles_batch hpolled, honce hoptions]
    rfl
  | on hpolled hgo hoptions hrefresh =>
    cases hrefresh with
    | lost message hasked hlost =>
      exact ((hreporting.batch hpolled hgo).append hasked.not_reported).report nofun
        fun _ _ => .inr ⟨_, hlost.append _⟩

/-- A tick that the run goes on from has kept the count of silent cycles. -/
theorem TickSpec.reporting {ticking' : Ticking} {log' : List Deed}
    (h : TickSpec host options connected ticking log (.ok ticking') log')
    (hreporting : Reporting ticking.silentCycles log)
    (hdevice : .remembered connected.device ∈ log) :
    Reporting ticking'.silentCycles log' ∧ ¬ options.once ∧
      .remembered connected.device ∈ log' := by
  cases h with
  | on hpolled hgo hoptions hrefresh =>
    cases hrefresh with
    | asked hseries hsilent hidentity =>
      rw [hsilent]
      refine ⟨((hreporting.batch hpolled hgo).append
        hseries.exchanged.not_reported).append (by simp), hoptions, ?_⟩
      simp only [List.mem_append, hdevice, true_or]
    | slept =>
      refine ⟨(hreporting.batch hpolled hgo).append (by simp), hoptions, ?_⟩
      simp only [List.mem_append, hdevice, true_or]

end Reporting

/-- **What ends a run, and what does not**: answers that were lost or did not read cost their
values, and never the run; it publishes cycle after cycle, and ends only if the search for the
inverter failed, if the port did, after the one cycle it was asked for, or with the third cycle
on end that read nothing, which is the only one it does not publish. -/
theorem ends_in_silence (host : Host) (options : Options) (sweeps ticks : Nat) :
    Report host options sweeps (run host options sweeps ticks).1
      (run host options sweeps ticks).2 := by
  have hnothing : Reporting 0 [] :=
    ⟨rfl, fun front back heq => by
      obtain ⟨rfl, -⟩ := List.append_eq_nil_iff.mp heq.symm
      decide, rfl⟩
  have hquiet : ∀ {log more : List Deed} {hand : Hand},
      Lib.follows Hand.next .nothing log = some hand → (∀ tty, hand ≠ .settled tty) →
      (∀ cycle, .polled cycle ∉ more) ∧ (∀ resource records, .published resource records ∉ more) →
      Reporting 0 (log ++ more) ∧ cycles (log ++ more) = [] := by
    intro log more hand hfollows hhand hmore
    have hlog := unsettled_of_follows hfollows hhand
    refine ⟨(hnothing.append hlog).append hmore, ?_⟩
    rw [(reports_append hmore.1 hmore.2).1]
    exact (@reports_append [] log hlog.1 hlog.2).1
  have hasking : ∀ {device tty deeds}, Exchanged tty staticCommands deeds →
      (∀ cycle, .polled cycle ∉ .remembered device :: deeds) ∧
        ∀ resource records, .published resource records ∉ .remembered device :: deeds :=
    fun hasked => ⟨by simpa using hasked.not_reported.1, by simpa using hasked.not_reported.2⟩
  refine run_rule (Q := Report host options sweeps)
    (I := fun connected ticking log => Reporting ticking.silentCycles log ∧
      (options.once → cycles log = []) ∧ .remembered connected.device ∈ log) sweeps ticks
    ?_ ?_ ?_ ?_ ?_ ?_
  · intro ended log hfollows hnot hfailed
    have hreporting := (@hquiet log [] _ hfollows nofun ⟨by simp, by simp⟩).1
    rw [List.append_nil] at hreporting
    exact hreporting.report (fun h => absurd h (hnot ())) fun e he => .inl (hfailed e he)
  · intro message found device tty deeds hfound hasked hlost
    rw [List.append_assoc]
    exact (hquiet hfound nofun (hasking hasked)).1.report nofun
      fun _ _ => .inr ⟨tty, (hlost.append [.remembered device]).append found⟩
  · intro found deeds connected ticking _ _ hfound hasked hsilent _ _
    obtain ⟨hreporting, hcycles⟩ :=
      hquiet hfound nofun (@hasking connected.device _ _ hasked)
    rw [hsilent, List.append_assoc]
    exact ⟨hreporting, fun _ => hcycles, by simp⟩
  · intro connected ticking log ticking' log' hinv hspec
    obtain ⟨hreporting, hnot, hdevice⟩ := hspec.reporting hinv.1 hinv.2.2
    exact ⟨hreporting, fun honce => absurd honce hnot, hdevice⟩
  · intro connected ticking log ended log' hinv hspec
    exact hspec.report hinv.1 hinv.2.1 hinv.2.2
  · intro connected ticking log hinv
    exact hinv.1.report nofun nofun

end HostServices.Inverter
