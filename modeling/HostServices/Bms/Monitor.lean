import HostServices.Lib.Actions
import HostServices.Bms.Session

/-!
# Measuring (`bms-monitoring/src/main.rs`: `next_frame`, `drain_until`, `run`)

Once the BMS is found, `run` waits for a settings frame and then reads the port for ever,
remembers the freshest frame of each kind, and at the end of every interval publishes the
realtime frame if it is young enough.

- `World`: the port and the clock, with the instant at which each read returned;
- `Found`: a port on which the probe answered, from the moment it was opened;
- `Monitor`: the state of `run`, with what it has accepted and published so far;
- `drainUntil`, `measure`, `tick`, `run`: the source's functions;
- `readUntil_reads`: what a call of `read_until` leaves of the port and the clock.
-/

namespace HostServices.Bms

open HostServices.Lib

/-! ## The outside -/

/-- What was read, with the instant at which each read returned. -/
abbrev History := List (Instant × List UInt8)

/-- The port and the clock from one moment on: the answers of `Instant::now`, those of
`read_some` with the instant of each, and what was read so far. -/
structure World where
  clock : List Instant
  reads : List (Instant × Except String (List UInt8))
  history : History := []

namespace World

/-- What the world still has to answer, as a line that a probe can read. -/
def line (w : World) : Line := ⟨w.clock, w.reads.map Prod.snd⟩

/-- The chunk that a read delivered. -/
def chunk? (read : Instant × Except String (List UInt8)) : Option (Instant × List UInt8) :=
  match read.2 with
  | .ok chunk => some (read.1, chunk)
  | .error _ => none

/-- Where the world stands once a call has left `line` of it. -/
def advance (w : World) (line : Line) : World :=
  let used := w.reads.length - line.reads.length
  { clock := line.clock
    reads := w.reads.drop used
    history := w.history ++ (w.reads.take used).filterMap chunk? }

end World

/-- The instant of the last read. -/
def lastRead (history : History) : Instant := (history.getLast?.map Prod.fst).getD 0

/-- A port on which the BMS was found, with everything it and the clock answer from the moment
it was opened. `Instant` does not go back. -/
structure Found where
  candidate : Candidate
  clock : List Instant
  reads : List (Instant × Except String (List UInt8))
  listen : Nat
  first : Frame
  monotone : clock.Pairwise (· ≤ ·)
  answered : (probe ⟨clock, reads.map Prod.snd⟩ listen).answer = some (.ok (.bms first))

/-- The probe that found the port. -/
def Found.probed (found : Found) : Probed :=
  probe ⟨found.clock, found.reads.map Prod.snd⟩ found.listen

/-- The world as the probe leaves it. -/
def Found.world (found : Found) : World :=
  World.advance { clock := found.clock, reads := found.reads } found.probed.line

/-! ## The state of a run -/

/-- A frame, with when it was accepted. -/
structure Stamped where
  frame : Frame
  arrived : Instant

/-- The freshest frame of each kind seen so far, with when it arrived. -/
structure Freshest where
  realtime : Option Stamped := none
  settings : Option Stamped := none

/-- `Freshest::accept`: a frame takes the place of the one of its kind. -/
def Freshest.accept (freshest : Freshest) (frame : Frame) (now : Instant) : Freshest :=
  -- a frame of another code is counted by the reader and kept nowhere
  if frame.isRealtime then { freshest with realtime := some ⟨frame, now⟩ }
  else if frame.isSettings then { freshest with settings := some ⟨frame, now⟩ }
  else freshest

/-- What was accepted, with the instant of the read it came from. -/
structure Accepted extends Stamped where
  read : Instant

/-- What a status record says about the link. -/
structure Link where
  connected : Nat
  framesOk : Nat
  framesDiscarded : Nat
  wait : Nat

/-- What came of a batch. -/
inductive Upload
  | printed
  | beforeEpoch
  | dropped (error : String)
  | refused (status : Nat)
  | rejected (count : Nat) (message : String)
  | undecodable (error : String)
  | accepted

/-- A status batch, with the last reading of the clock before it was posted. -/
structure Publication where
  frame : Frame
  link : Link
  time : Instant
  upload : Upload

/-- How a tick ended: whether it was silent, when the age was checked, what had been accepted and
read by then, which whole frames were still in the reader, and what was published. -/
structure Tick where
  silent : Bool
  checked : Option Instant
  accepted : List Accepted
  history : History
  left : List Frame
  published : Option Publication

/-- The state of `run`, and beside it what the run has done so far. -/
structure Monitor where
  device : String
  world : World
  connectedAt : Instant := 0
  reader : FrameReader := {}
  freshest : Freshest := {}
  silentCycles : Nat := 0
  lastSettings : Instant := 0
  /-- how many batches were posted -/
  batches : Nat := 0
  accepted : List Accepted := []
  ticks : List Tick := []
  /-- the settings frames that were published -/
  described : List (Frame × Upload) := []

/-- The monitor when its port has been found. -/
def Monitor.start (found : Found) : Monitor where
  device := found.candidate.pathId
  world := found.world

/-- What the options fix, and the parsers, of which only success or failure matters here. -/
structure Config (ρ σ : Type) where
  interval : Nat
  settingsInterval : Nat
  frameTimeout : Nat
  once : Bool
  parseRealtime : Frame → Except String ρ
  parseSettings : Frame → Except String σ
  /-- what comes of the `n`-th batch -/
  upload : Nat → Upload

/-- Why a run does not go on. -/
inductive Status
  /-- the outside has not answered yet -/
  | waiting
  /-- `--once` -/
  | finished
  | failed (message : String)
  | gaveUp (message : String)
  deriving DecidableEq, Repr

/-- What is done on the monitor's state and may end in a `Status`. -/
abbrev Act := Action Monitor Status

/-- `MAX_SILENT_CYCLES` -/
def maxSilentCycles : Nat := 3

/-- The error that a run gives up with. -/
def pushedNothing (device : String) (cycles : Nat) : String :=
  s!"{device} pushed nothing for {cycles} consecutive measurements"

/-! ## What a run does -/

namespace Monitor

variable {ρ σ : Type} (cfg : Config ρ σ)

/-- `Instant::now()`. -/
def now : Act Instant := fun s =>
  match s.world.clock with
  | [] => (.error .waiting, s)
  | now :: clock => (.ok now, { s with world := { s.world with clock := clock } })

/-- What a call of `read_until` does to the run's port and reader. -/
def afterRead (s : Monitor) (o : Outcome) : Monitor :=
  { s with
    world := s.world.advance o.line
    reader := o.reader }

/-- `read_until` on the run's port and reader; both callers report an error in these words. -/
def readUntil (deadline : Instant) (accept : Frame → Bool) : Act (Option Frame) := fun s =>
  let o := Bms.readUntil s.world.line s.reader deadline accept
  match o.result with
  | none => (.error .waiting, s.afterRead o)
  | some (.error e) => (.error (.failed s!"{s.device}: {e}"), s.afterRead o)
  | some (.ok found) => (.ok found, s.afterRead o)

/-- Wait for the next frame of one kind, and report how long it took. -/
def nextFrame (timeout : Nat) (accept : Frame → Bool) : Act (Option (Frame × Nat)) := do
  let started ← now
  match ← readUntil (started + timeout) accept with
  | none => pure none
  | some frame =>
    let elapsed ← now
    pure (some (frame, elapsed - started))

/-- `Freshest::accept`, of a frame that came with the given read. -/
def accept (frame : Frame) (read : Instant) : Act Unit := do
  let arrived ← now
  modify fun s => { s with
    freshest := s.freshest.accept frame arrived
    accepted := s.accepted ++ [⟨⟨frame, arrived⟩, read⟩] }

/-- A frame that `drain_until` reads is taken as of the read that brought it. -/
def acceptDrained (frame : Frame) : Act Unit := do
  let s ← get
  accept frame (lastRead s.world.history)

/-- `while Instant::now() < deadline`; every turn takes a reading of the clock. -/
def drainLoop (deadline : Instant) : Nat → Act Unit
  -- never taken: there is a turn more than there are readings
  | 0 => throw .waiting
  | turns + 1 => do
    let t ← now
    if t < deadline then
      match ← readUntil deadline fun _ => true with
      | some frame =>
        acceptDrained frame
        drainLoop deadline turns
      -- the deadline passed inside the call
      | none => pure ()
    else pure ()

/-- Read until `deadline`, keeping the freshest frame of each kind. -/
def drainUntil (deadline : Instant) : Act Unit := do
  let s ← get
  drainLoop deadline (s.world.clock.length + 1)

/-- Post one batch; whatever comes of it, the run goes on. -/
def publish : Act Upload := do
  let s ← get
  modify fun s => { s with batches := s.batches + 1 }
  pure (cfg.upload s.batches)

/-- `publish_settings`: settings that do not parse are left out, and that is all. -/
def publishSettings (frame : Frame) : Act Unit :=
  match cfg.parseSettings frame with
  | .error _ => pure ()
  | .ok _ => do
    let upload ← publish cfg
    modify fun s => { s with described := s.described ++ [(frame, upload)] }

/-- `Session::link`, with the reading it took. -/
def link (wait : Nat) : Act (Link × Instant) := do
  let time ← now
  let s ← get
  pure (⟨time - s.connectedAt, s.reader.framesOk, s.reader.framesDiscarded, wait⟩, time)

/-- A tick has ended. -/
def record (silent : Bool) (checked : Option Instant) (published : Option Publication) :
    Act Unit :=
  modify fun s => { s with
    ticks := s.ticks ++
      [⟨silent, checked, s.accepted, s.world.history, s.reader.drain.1, published⟩] }

/-- No realtime frame within the timeout. -/
def silence (checked : Option Instant) : Act Unit := do
  modify fun s => { s with silentCycles := s.silentCycles + 1 }
  record true checked none
  let s ← get
  if maxSilentCycles ≤ s.silentCycles then
    throw (.gaveUp (pushedNothing s.device s.silentCycles))
  else pure ()

/-- The batch of a tick, of the realtime frame that is held, with the age it has then. -/
def publishStatus (latest : Stamped) (checked : Instant) : Act Unit := do
  let waited ← now
  let (link, time) ← link (waited - latest.arrived)
  let upload ← publish cfg
  record false (some checked) (some ⟨latest.frame, link, time, upload⟩)

/-- The freshest realtime frame is young enough. -/
def fresh (latest : Stamped) (checked : Instant) : Act Unit := do
  -- a frame that does not decode proves the link is alive all the same
  modify fun s => { s with silentCycles := 0 }
  match cfg.parseRealtime latest.frame with
  | .ok _ => publishStatus cfg latest checked
  | .error _ => record false (some checked) none

/-- What `run` does at the end of an interval. -/
def measure : Act Unit := do
  let s ← get
  match s.freshest.realtime with
  -- `filter` asks for the age only when there is a frame
  | none => silence none
  | some latest =>
    let checked ← now
    if checked - latest.arrived ≤ cfg.frameTimeout then fresh cfg latest checked
    else silence (some checked)

/-- The settings are published again, unless the frame they come from is stale. -/
def republishLatest (latest : Stamped) : Act Unit := do
  let checked ← now
  if checked - latest.arrived ≤ cfg.frameTimeout then
    publishSettings cfg latest.frame
    let t ← now
    modify fun s => { s with lastSettings := t }
  else pure ()

/-- `if last_settings.elapsed() >= options.settings_interval`. -/
def republishSettings : Act Unit := do
  let t ← now
  let s ← get
  if cfg.settingsInterval ≤ t - s.lastSettings then
    match s.freshest.settings with
    | none => pure ()
    -- read during the drain; nothing extra is waited for
    | some latest => republishLatest cfg latest
  else pure ()

/-- The body of `for tick in 0u64..`. -/
def tick (started : Instant) (k : Nat) : Act Unit := do
  drainUntil (started + cfg.interval * (UInt32.ofNat k + 1).toNat)
  measure cfg
  -- the silence error comes before `--once` is looked at
  if cfg.once then throw .finished else republishSettings cfg

/-- `n` ticks, of which the first is the `k`-th of the run. -/
def ticksFrom (started : Instant) (k : Nat) : Nat → Act Unit
  | 0 => pure ()
  | n + 1 => do
    tick cfg started k
    ticksFrom started (k + 1) n

/-- The settings measurement goes first, once, before any status record. -/
def awaitSettings : Act Unit := do
  match ← nextFrame cfg.frameTimeout Frame.isSettings with
  | some (frame, _) => publishSettings cfg frame
  | none => pure ()

/-- `connected_at = Instant::now()`. -/
def connected : Act Unit := do
  let connectedAt ← now
  modify fun s => { s with connectedAt := connectedAt }

/-- `last_settings = Instant::now()`. -/
def settingsAwaited : Act Unit := do
  let lastSettings ← now
  modify fun s => { s with lastSettings := lastSettings }

/-- `run` from the moment the port is found, over `n` ticks. -/
def measureFor (found : Found) (n : Nat) : Act Unit := do
  connected
  awaitSettings cfg
  settingsAwaited
  let started ← now
  -- stamped now, after the wait, and not when the probe read it
  accept found.first (lastRead found.world.history)
  ticksFrom cfg started 0 n

end Monitor

/-- The first `n` ticks of `run` on a port that was found. -/
def run {ρ σ : Type} (cfg : Config ρ σ) (found : Found) (n : Nat) :
    Except Status Unit × Monitor :=
  Monitor.measureFor cfg found n (Monitor.start found)

/-! ## What a call leaves of the outside -/

/-- No read failed. -/
def Delivered (reads : List (Instant × Except String (List UInt8))) : Prop :=
  ∀ read ∈ reads, ∃ chunk, read.2 = .ok chunk

theorem delivered_nil : Delivered [] := List.forall_mem_nil _

theorem Delivered.append {reads reads' : List (Instant × Except String (List UInt8))}
    (h : Delivered reads) (h' : Delivered reads') : Delivered (reads ++ reads') :=
  fun read hmem => (List.mem_append.mp hmem).elim (h read) (h' read)

/-- How a call that gave `result` came to an end: a failed read is its last, and a call that
has not returned waits for the clock or for the port. -/
def Ended (used : List (Instant × Except String (List UInt8))) (line : Line) :
    Option (Except String (Option Frame)) → Prop
  | none => Delivered used ∧ (line.clock = [] ∨ line.reads = [])
  | some (.error e) => ∃ before i, Delivered before ∧ used = before ++ [(i, .error e)]
  | some (.ok _) => Delivered used

theorem Ended.cons {used : List (Instant × Except String (List UInt8))} {line : Line}
    {result : Option (Except String (Option Frame))} (h : Ended used line result) (i : Instant)
    (chunk : List UInt8) : Ended ((i, .ok chunk) :: used) line result := by
  have hone : Delivered [(i, .ok chunk)] := by
    intro read hmem
    rw [List.mem_singleton.mp hmem]
    exact ⟨chunk, rfl⟩
  obtain _ | (e | found) := result
  · exact ⟨hone.append h.1, h.2⟩
  · obtain ⟨before, j, hbefore, rfl⟩ := h
    exact ⟨(i, .ok chunk) :: before, j, hone.append hbefore, rfl⟩
  · exact hone.append h

/-- The loop uses up reads from the front, and the clock with them. -/
theorem readLoop_reads (accept : Frame → Bool) (deadline : Instant) (r : FrameReader)
    (reads : List (Instant × Except String (List UInt8))) (clock : List Instant) :
    ∃ used rest, reads = used ++ rest ∧
      (readLoop accept deadline r (reads.map Prod.snd) clock).line.reads = rest.map Prod.snd ∧
      (readLoop accept deadline r (reads.map Prod.snd) clock).line.clock <:+ clock ∧
      Ended used (readLoop accept deadline r (reads.map Prod.snd) clock).line
        (readLoop accept deadline r (reads.map Prod.snd) clock).result := by
  induction clock generalizing r reads with
  | nil =>
    rw [readLoop.eq_def]
    exact ⟨[], reads, rfl, rfl, List.suffix_refl _, delivered_nil, .inl rfl⟩
  | cons now clock ih =>
    by_cases hnow : now < deadline
    · cases reads with
      | nil =>
        rw [List.map_nil, readLoop, if_pos hnow]
        exact ⟨[], [], rfl, rfl, List.suffix_cons .., delivered_nil, .inr rfl⟩
      | cons read reads =>
        obtain ⟨i, e | chunk⟩ := read
        · rw [List.map_cons, readLoop, if_pos hnow]
          exact ⟨[(i, .error e)], reads, rfl, rfl, List.suffix_cons .., [], i, delivered_nil, rfl⟩
        · rw [List.map_cons, readLoop, if_pos hnow]
          -- a turn that goes on has used this read and whatever the rest used
          have hgo : ∀ r', ∃ used rest, (i, .ok chunk) :: reads = used ++ rest ∧
              (readLoop accept deadline r' (reads.map Prod.snd) clock).line.reads
                = rest.map Prod.snd ∧
              (readLoop accept deadline r' (reads.map Prod.snd) clock).line.clock
                <:+ now :: clock ∧
              Ended used (readLoop accept deadline r' (reads.map Prod.snd) clock).line
                (readLoop accept deadline r' (reads.map Prod.snd) clock).result := by
            intro r'
            obtain ⟨used, rest, rfl, hrest, hclock, hended⟩ := ih r' reads
            exact ⟨(i, .ok chunk) :: used, rest, rfl, hrest,
              hclock.trans (List.suffix_cons ..), hended.cons i chunk⟩
          by_cases hempty : chunk.length = 0
          · simp only [if_pos hempty]
            exact hgo r
          · simp only [if_neg hempty]
            rcases takeAccepted accept (r.feed chunk) with ⟨_ | f, seen, r'⟩
            · exact hgo r'
            · have hnow : Ended [] ⟨clock, reads.map Prod.snd⟩ (some (.ok (some f))) :=
                delivered_nil
              exact ⟨[(i, .ok chunk)], reads, rfl, rfl, List.suffix_cons ..,
                hnow.cons i chunk⟩
    · rw [readLoop.eq_def]
      simp only [if_neg hnow]
      exact ⟨[], reads, rfl, rfl, List.suffix_cons .., delivered_nil⟩

/-- From `w` to `w'` the port gave the reads `used`. -/
structure Passed (w w' : World) (used : List (Instant × Except String (List UInt8))) :
    Prop where
  reads : w.reads = used ++ w'.reads
  clock : w'.clock <:+ w.clock
  history : w'.history = w.history ++ used.filterMap World.chunk?

theorem Passed.refl (w : World) : Passed w w [] :=
  ⟨rfl, List.suffix_refl _, (List.append_nil _).symm⟩

theorem Passed.trans {w w' w'' : World}
    {used used' : List (Instant × Except String (List UInt8))} (h : Passed w w' used)
    (h' : Passed w' w'' used') : Passed w w'' (used ++ used') where
  reads := by rw [h.reads, h'.reads, List.append_assoc]
  clock := h'.clock.trans h.clock
  history := by rw [h'.history, h.history, List.filterMap_append, List.append_assoc]

/-- The world that has answered these reads. -/
theorem World.advance_eq {w : World} {line : Line}
    {used rest : List (Instant × Except String (List UInt8))} (hreads : w.reads = used ++ rest)
    (hrest : line.reads = rest.map Prod.snd) :
    w.advance line = ⟨line.clock, rest, w.history ++ used.filterMap World.chunk?⟩ := by
  have hused : w.reads.length - line.reads.length = used.length := by
    rw [hreads, hrest, List.length_append, List.length_map]
    omega
  rw [World.advance, hused, hreads, List.drop_left, List.take_left]

/-- What a call of `readUntil` leaves of the world. -/
theorem readUntil_passed (w : World) (r : FrameReader) (deadline : Instant)
    (accept : Frame → Bool) :
    ∃ used, Passed w (w.advance (readUntil w.line r deadline accept).line) used ∧
      Ended used (w.advance (readUntil w.line r deadline accept).line).line
        (readUntil w.line r deadline accept).result := by
  obtain ⟨used, rest, hreads, hrest, hclock, hended⟩ :
      ∃ used rest, w.reads = used ++ rest ∧
        (readUntil w.line r deadline accept).line.reads = rest.map Prod.snd ∧
        (readUntil w.line r deadline accept).line.clock <:+ w.clock ∧
        Ended used (readUntil w.line r deadline accept).line
          (readUntil w.line r deadline accept).result := by
    rw [readUntil]
    rcases takeAccepted accept r with ⟨_ | f, seen, r'⟩
    · exact readLoop_reads accept deadline r' w.reads w.clock
    · exact ⟨[], w.reads, rfl, rfl, List.suffix_refl _, delivered_nil⟩
  have hline : (readUntil w.line r deadline accept).line
      = ⟨(readUntil w.line r deadline accept).line.clock, rest.map Prod.snd⟩ := by
    rw [← hrest]
  rw [World.advance_eq hreads hrest]
  rw [hline] at hended
  exact ⟨used, ⟨hreads, hclock, rfl⟩, hended⟩

/-! ## Rules for the primitive actions -/

namespace Monitor

variable {P : Monitor → Prop} {E : Status → Monitor → Prop}

/-- What holds whatever the clock says next holds of the reading. -/
theorem triple_now {Q : Instant → Monitor → Prop}
    (hok : ∀ s t clock, P s → s.world.clock = t :: clock →
      Q t { s with world := { s.world with clock := clock } })
    (hwait : ∀ s, P s → s.world.clock = [] → E .waiting s) : Triple P now Q E := by
  intro s hs
  rw [now]
  rcases hclock : s.world.clock with _ | ⟨t, clock⟩
  · exact hwait s hs hclock
  · exact hok s t clock hs hclock

/-- A call takes some reads of the port; it fails on the first failed one, and waits only for
the outside. -/
theorem triple_readUntil {deadline : Instant} {accept : Frame → Bool}
    {Q : Option Frame → Monitor → Prop}
    (hok : ∀ s found w reader used, P s → Passed s.world w used → Delivered used →
      Q found { s with world := w, reader := reader })
    (hfail : ∀ s w reader before i e, P s →
      Passed s.world w (before ++ [(i, .error e)]) → Delivered before →
      E (.failed s!"{s.device}: {e}")
        { s with world := w, reader := reader })
    (hwait : ∀ s w reader used, P s → Passed s.world w used → Delivered used →
      w.clock = [] ∨ w.reads = [] →
      E .waiting { s with world := w, reader := reader }) :
    Triple P (readUntil deadline accept) Q E := by
  intro s hs
  obtain ⟨used, hpassed, hended⟩ := readUntil_passed s.world s.reader deadline accept
  rw [readUntil]
  generalize (Bms.readUntil s.world.line s.reader deadline accept).result = result at hended ⊢
  obtain _ | (e | found) := result
  · refine hwait s _ _ used hs hpassed hended.1 ?_
    exact hended.2.imp id List.map_eq_nil_iff.mp
  · obtain ⟨before, i, hbefore, rfl⟩ := hended
    exact hfail s _ _ before i e hs hpassed hbefore
  · exact hok s found _ _ used hs hpassed hended

/-- `s'` is `s` some readings of the clock and some settings batches later. -/
structure Idle (s s' : Monitor) : Prop where
  device : s'.device = s.device
  clock : s'.world.clock <:+ s.world.clock
  reads : s'.world.reads = s.world.reads
  history : s'.world.history = s.world.history
  reader : s'.reader = s.reader
  freshest : s'.freshest = s.freshest
  silentCycles : s'.silentCycles = s.silentCycles
  accepted : s'.accepted = s.accepted
  ticks : s'.ticks = s.ticks

/-- A note that no later action of the loop but the settings record reads. -/
theorem Idle.note (s : Monitor) (connectedAt lastSettings : Instant) (batches : Nat)
    (described : List (Frame × Upload)) :
    Idle s { s with
      connectedAt := connectedAt
      lastSettings := lastSettings
      batches := batches
      described := described } :=
  ⟨rfl, List.suffix_refl _, rfl, rfl, rfl, rfl, rfl, rfl, rfl⟩

section Idle

variable {ρ σ : Type} (cfg : Config ρ σ) (hP : ∀ s s', Idle s s' → P s → P s')
  (hE : ∀ s, P s → s.world.clock = [] → E .waiting s)

include hP hE

/-- Reading the clock is idle. -/
theorem idle_now : Triple P now (fun _ => P) E := by
  refine triple_now (fun s t clock hs hclock => ?_) hE
  have hsuffix : clock <:+ s.world.clock := hclock ▸ List.suffix_cons ..
  exact hP s _ ⟨rfl, hsuffix, rfl, rfl, rfl, rfl, rfl, rfl, rfl⟩ hs

theorem idle_connected : Triple P connected (fun _ => P) E :=
  (idle_now hP hE).bind fun connectedAt => .update fun s hs =>
    hP s _ (.note s connectedAt s.lastSettings s.batches s.described) hs

theorem idle_settingsAwaited : Triple P settingsAwaited (fun _ => P) E :=
  (idle_now hP hE).bind fun lastSettings => .update fun s hs =>
    hP s _ (.note s s.connectedAt lastSettings s.batches s.described) hs

omit hE in
theorem idle_publish : Triple P (publish cfg) (fun _ => P) E := by
  refine .look fun s hs =>
    .bind (.update (R := fun _ => P) ?_) fun _ => .value fun _ h => h
  rintro s rfl
  exact hP s _ (.note s s.connectedAt s.lastSettings (s.batches + 1) s.described) hs

omit hE in
theorem idle_publishSettings (frame : Frame) :
    Triple P (publishSettings cfg frame) (fun _ => P) E := by
  rw [publishSettings]
  cases cfg.parseSettings frame with
  | error e => exact .value fun _ h => h
  | ok v =>
    refine (idle_publish cfg hP).bind fun upload => .update fun s hs => ?_
    exact hP s _ (.note s s.connectedAt s.lastSettings s.batches
      (s.described ++ [(frame, upload)])) hs

theorem idle_republishLatest (latest : Stamped) :
    Triple P (republishLatest cfg latest) (fun _ => P) E := by
  refine (idle_now hP hE).bind fun checked => ?_
  split
  · refine (idle_publishSettings cfg hP latest.frame).bind fun _ =>
      (idle_now hP hE).bind fun t => .update fun s hs => ?_
    exact hP s _ (.note s s.connectedAt t s.batches s.described) hs
  · exact .value fun _ h => h

theorem idle_republishSettings : Triple P (republishSettings cfg) (fun _ => P) E := by
  refine (idle_now hP hE).bind fun t => .look fun s hs => ?_
  have hkeep : Triple (· = s) (pure ()) (fun _ => P) E := .value fun _ h => h ▸ hs
  split
  · split
    · exact hkeep
    · refine (idle_republishLatest cfg hP hE _).weaken ?_ (fun _ _ h => h) fun _ _ h => h
      rintro _ rfl
      exact hs
  · exact hkeep

theorem idle_link (wait : Nat) : Triple P (link wait) (fun _ => P) E :=
  (idle_now hP hE).bind fun _ => .look fun _ hs => .value fun _ h => h ▸ hs

end Idle

end Monitor

end HostServices.Bms
