import HostServices.Bms.GivingUp
import HostServices.Bms.Timeline

/-!
# What a status record shows

A status record should show the last realtime frame that was read, and one that was read within
the timeout. Three consumers take frames off the port before a record is made: the probe, the
wait for settings and the drain loop. The first two drop what they do not want, the reader
keeps what a deadline leaves in it, and a frame's age counts from its acceptance.

- `Trace`: where a run stands on the timeline of its port;
- `Found.steppedOver`: the frames that the wait for settings drops, by what arrives during it;
- `Reported`: what every tick of a run saw;
- `Resumes`: the fresh reader and the probe's, had it been kept, meet in the bytes to come;
- `Unmissed`, `Punctual`: no realtime frame was lost on the way, and the clock stood still where
  the age that is checked does not count;
- `publishes_newest`: what is published then.
-/

namespace HostServices.Bms

open HostServices.Lib

/-! ## Where a run stands on the timeline -/

/-- Since the port was found the run has made the reads `since`; of their frames it has taken
`taken`, it is holding `pending`, and the rest is in its reader. -/
structure Trace (found : Found) (since : History) (taken : List (Frame × Instant))
    (pending : List Frame) (s : Monitor) : Prop where
  history : s.world.history = found.world.history ++ since
  frames : timeline [] since = taken ++
    (pending ++ framesIn s.reader.buffer).map (·, lastRead s.world.history)
  leftover : leftover [] since = (framer.drain s.reader.buffer).2

section Trace

variable {found : Found} {since : History} {taken : List (Frame × Instant)}
  {pending : List Frame} {s s' : Monitor}

/-- The run begins with nothing read. -/
theorem trace_start (found : Found) : Trace found [] [] [] (Monitor.start found) where
  history := (List.append_nil _).symm
  frames := by
    show [] = (framesIn []).map _
    rw [framesIn_nil]
    rfl
  leftover := drain_nil.symm

/-- What was pending is taken. -/
theorem Trace.take (h : Trace found since taken pending s) :
    Trace found since (taken ++ pending.map (·, lastRead s.world.history)) [] s where
  history := h.history
  frames := by
    rw [h.frames, List.map_append, List.append_assoc]
    rfl
  leftover := h.leftover

/-- Only the history and the reader matter. -/
theorem Trace.same (h : Trace found since taken pending s)
    (hhistory : s'.world.history = s.world.history) (hreader : s'.reader = s.reader) :
    Trace found since taken pending s' := by
  refine ⟨?_, ?_, ?_⟩
  · rw [hhistory, h.history]
  · rw [hhistory, hreader, h.frames]
  · rw [hreader, h.leftover]

/-- A call of `readUntil` takes the next frames: those it does not accept, and the one it
returns. -/
theorem Trace.read (h : Trace found since taken [] s) (deadline : Instant)
    (accept : Frame → Bool) {o : Outcome}
    (ho : readUntil s.world.line s.reader deadline accept = o) :
    s.world.history <+: (s.afterRead o).world.history ∧
    (∀ f, o.accepted = some f → accept f = true) ∧ ∃ since' skipped,
      Trace found since' (taken ++ skipped) o.accepted.toList (s.afterRead o) ∧
      o.seen = skipped.map Prod.fst ++ o.accepted.toList ∧ ∀ e ∈ skipped, accept e.1 = false := by
  obtain ⟨used, rest, hreads, hrest, ⟨skipped, hskipped, hdropped⟩, haccepts, hleftover⟩ :=
    readUntil_timeline accept deadline (lastRead s.world.history) s.reader s.world
  rw [ho] at hrest hskipped hdropped haccepts hleftover
  have hhistory : (s.afterRead o).world.history
      = s.world.history ++ used.filterMap World.chunk? := by
    rw [Monitor.afterRead, World.advance_eq hreads hrest]
  refine ⟨hhistory ▸ List.prefix_append .., haccepts, since ++ used.filterMap World.chunk?,
    skipped, ⟨?_, ?_, ?_⟩, hdropped⟩
  · rw [hhistory, h.history, List.append_assoc]
  · rw [timeline_append, h.frames, h.leftover, hhistory, lastRead_append,
      List.append_assoc, List.append_assoc]
    exact congrArg _ hskipped
  · rw [leftover_append, h.leftover, hleftover]
    rfl

end Trace

/-! ## The wait for settings -/

/-- The frames that the wait for settings steps over: those that come, in the reads before its
deadline, before the first settings frame. It begins with the second reading of the clock since
the port was found, and with a fresh reader. -/
def Found.steppedOver (found : Found) (timeout : Nat) : List Frame :=
  match found.world.clock[1]? with
  | none => []
  | some started =>
    Line.steppedOver ⟨found.world.clock.drop 2, found.world.reads.map Prod.snd⟩
      (started + timeout) Frame.isSettings

/-- What was taken by the end of the wait: the frames stepped over, and the settings frame if one
came. -/
def Waited (timeout : Nat) (found : Found) (taken : List (Frame × Instant)) : Prop :=
  ∃ settings : Option Frame,
    taken.map Prod.fst = found.steppedOver timeout ++ settings.toList ∧
      ∀ f ∈ settings, f.isRealtime = false

/-! ## What a tick saw -/

/-- A frame of the drain loop, with the read that completed it. -/
def Accepted.entry (a : Accepted) : Frame × Instant := (a.frame, a.read)

/-- The frame of the probe, as a run accepts it. -/
def Found.seed (found : Found) (arrived : Instant) : Accepted :=
  ⟨⟨found.first, arrived⟩, lastRead found.world.history⟩

/-- The frames that a tick knew of: the one the probe found, what the wait took, what was drained,
and what was left in the reader; and what it published. -/
structure Told (timeout : Nat) (found : Found) (t : Tick) : Prop where
  frames : ∃ arrived since waited drained,
    t.history = found.world.history ++ since ∧
    t.accepted = found.seed arrived :: drained ∧
    timeline [] since = waited ++ drained.map Accepted.entry ++
      t.left.map (·, lastRead t.history) ∧
    Waited timeout found waited
  published : ∀ p, t.published = some p → ∃ a checked, latest t.accepted = some a ∧
    t.checked = some checked ∧ p.frame = a.frame ∧ checked - a.arrived ≤ timeout

/-- What is known of the ticks of a run. -/
structure Reported (timeout : Nat) (found : Found) (s : Monitor) : Prop where
  told : ∀ t ∈ s.ticks, Told timeout found t
  order : s.ticks.Pairwise fun t u => t.history <+: u.history
  past : ∀ t ∈ s.ticks, t.history <+: s.world.history

/-- What a run keeps after the wait: `seed` is what it accepted before the first drain. -/
structure Following (timeout : Nat) (found : Found) (seed : List Accepted)
    (pending : List Frame) (s : Monitor) : Prop extends Reported timeout found s where
  traced : ∃ since waited drained,
    Trace found since (waited ++ drained.map Accepted.entry) pending s ∧
    s.accepted = seed ++ drained ∧ Waited timeout found waited
  freshest : s.freshest.realtime = (latest s.accepted).map Accepted.toStamped

section Following

variable {timeout : Nat} {found : Found} {seed : List Accepted} {pending : List Frame}
  {s s' : Monitor}

/-- Reading on without a tick keeps what the ticks saw. -/
theorem Reported.later (h : Reported timeout found s) (hticks : s'.ticks = s.ticks)
    (hhistory : s.world.history <+: s'.world.history) : Reported timeout found s' := by
  refine ⟨?_, ?_, ?_⟩
  · rw [hticks]
    exact h.told
  · rw [hticks]
    exact h.order
  · rw [hticks]
    exact fun t ht => (h.past t ht).trans hhistory

/-- Reading the clock and publishing change nothing that is followed. -/
theorem Following.idle (h : Following timeout found seed pending s)
    (hidle : Monitor.Idle s s') : Following timeout found seed pending s' := by
  obtain ⟨since, waited, drained, htrace, haccepted, hwaited⟩ := h.traced
  refine ⟨h.toReported.later hidle.ticks (hidle.history ▸ List.prefix_refl _),
    ⟨since, waited, drained, htrace.same hidle.history hidle.reader, ?_, hwaited⟩, ?_⟩
  · rw [hidle.accepted, haccepted]
  · rw [hidle.freshest, hidle.accepted, h.freshest]

/-- A read that ends the run leaves every tick as it was. -/
theorem Following.afterRead (h : Following timeout found seed [] s) {deadline : Instant}
    {accept : Frame → Bool} {o : Outcome}
    (ho : readUntil s.world.line s.reader deadline accept = o) :
    Reported timeout found (s.afterRead o) := by
  obtain ⟨since, waited, drained, htrace, -, -⟩ := h.traced
  exact h.toReported.later rfl (htrace.read deadline accept ho).1

/-- The drain loop accepts whatever comes. -/
theorem Following.drained (h : Following timeout found seed [] s) {deadline : Instant}
    {o : Outcome} (ho : readUntil s.world.line s.reader deadline (fun _ => true) = o) :
    Following timeout found seed o.accepted.toList (s.afterRead o) := by
  obtain ⟨since, waited, drained, htrace, haccepted, hwaited⟩ := h.traced
  obtain ⟨-, -, since', skipped, htrace', -, hskipped⟩ := htrace.read deadline _ ho
  -- it accepts everything, so it steps over nothing
  have hnone : skipped = [] :=
    List.eq_nil_iff_forall_not_mem.mpr fun e he => nomatch hskipped e he
  rw [hnone, List.append_nil] at htrace'
  exact ⟨h.afterRead ho, ⟨since', waited, drained, htrace', haccepted, hwaited⟩, h.freshest⟩

/-- The frame that is held is accepted. -/
theorem Following.accept {frame : Frame} (h : Following timeout found seed [frame] s)
    (now : Instant) :
    Following timeout found seed [] { s with
      freshest := s.freshest.accept frame now
      accepted := s.accepted ++ [⟨⟨frame, now⟩, lastRead s.world.history⟩] } := by
  obtain ⟨since, waited, drained, htrace, haccepted, hwaited⟩ := h.traced
  refine ⟨h.toReported.later rfl (List.prefix_refl _),
    ⟨since, waited, drained ++ [⟨⟨frame, now⟩, lastRead s.world.history⟩], ?_, ?_, hwaited⟩,
    freshest_accept h.freshest frame now _⟩
  · rw [List.map_append, ← List.append_assoc]
    exact htrace.take.same rfl rfl
  · rw [← List.append_assoc, ← haccepted]

/-- The frame of the probe is accepted first. -/
theorem Following.seeded (h : Following timeout found [] [] s) (hnone : s.accepted = [])
    (frame : Frame) (now read : Instant) :
    Following timeout found [⟨⟨frame, now⟩, read⟩] [] { s with
      freshest := s.freshest.accept frame now
      accepted := s.accepted ++ [⟨⟨frame, now⟩, read⟩] } := by
  obtain ⟨since, waited, drained, htrace, haccepted, hwaited⟩ := h.traced
  have hdrained : drained = [] := by rwa [hnone, List.nil_append, eq_comm] at haccepted
  refine ⟨h.toReported.later rfl (List.prefix_refl _),
    ⟨since, waited, [], ?_, ?_, hwaited⟩, freshest_accept h.freshest frame now _⟩
  · rw [hdrained] at htrace
    exact htrace.same rfl rfl
  · rw [hnone]
    rfl

theorem Following.recount (h : Following timeout found seed pending s) (cycles : Nat) :
    Following timeout found seed pending { s with silentCycles := cycles } := by
  obtain ⟨since, waited, drained, htrace, haccepted, hwaited⟩ := h.traced
  exact ⟨h.toReported.later rfl (List.prefix_refl _),
    ⟨since, waited, drained, htrace.same rfl rfl, haccepted, hwaited⟩, h.freshest⟩

/-- A tick that publishes the newest accepted frame in time can be recorded. -/
theorem Following.record {arrived : Instant}
    (h : Following timeout found [found.seed arrived] [] s) (silent : Bool)
    (checked : Option Instant) {published : Option Publication}
    (hpublished : ∀ p, published = some p → ∃ a c, latest s.accepted = some a ∧
      checked = some c ∧ p.frame = a.frame ∧ c - a.arrived ≤ timeout) :
    Following timeout found [found.seed arrived] [] { s with
      ticks := s.ticks ++ [⟨silent, checked, s.accepted, s.world.history, s.reader.drain.1,
        published⟩] } := by
  obtain ⟨since, waited, drained, htrace, haccepted, hwaited⟩ := h.traced
  generalize ht : (⟨silent, checked, s.accepted, s.world.history, s.reader.drain.1,
    published⟩ : Tick) = t
  have htold : Told timeout found t := by
    subst ht
    refine ⟨⟨arrived, since, waited, drained, htrace.history, haccepted, ?_, hwaited⟩,
      hpublished⟩
    rw [drain_frames]
    exact htrace.frames
  have hhistory : t.history = s.world.history := by rw [← ht]
  refine ⟨⟨?_, ?_, ?_⟩, ⟨since, waited, drained, htrace.same rfl rfl, haccepted, hwaited⟩,
    h.freshest⟩
  · exact fun u hu => (List.mem_append.mp hu).elim (h.told u) fun hu =>
      List.mem_singleton.mp hu ▸ htold
  · refine List.pairwise_append.mpr ⟨h.order, List.pairwise_singleton .., ?_⟩
    intro u hu v hv
    rw [List.mem_singleton.mp hv, hhistory]
    exact h.past u hu
  · intro u hu
    rcases List.mem_append.mp hu with hu | hu
    · exact h.past u hu
    · have hsame : u.history = s.world.history := by rw [List.mem_singleton.mp hu, hhistory]
      exact hsame ▸ List.prefix_refl _

end Following

/-! ## Until the wait is over -/

/-- So far the run has only read the clock, so many times since the port was found. -/
structure Begun (found : Found) (readings : Nat) (s : Monitor) : Prop where
  idle : Monitor.Idle (Monitor.start found) s
  clock : s.world.clock = found.world.clock.drop readings

section Begun

variable {timeout readings : Nat} {found : Found} {s : Monitor} {t : Instant}
  {clock : List Instant} {o : Outcome}

/-- Without a tick there is nothing to report. -/
theorem reported_of_no_ticks (h : s.ticks = []) : Reported timeout found s := by
  refine ⟨?_, ?_, ?_⟩ <;> rw [h]
  · exact List.forall_mem_nil _
  · exact .nil
  · exact List.forall_mem_nil _

theorem Begun.reported (h : Begun found readings s) : Reported timeout found s :=
  reported_of_no_ticks h.idle.ticks

/-- One more reading of the clock. -/
theorem Begun.now (h : Begun found readings s) (hclock : s.world.clock = t :: clock) :
    found.world.clock[readings]? = some t ∧
      Begun found (readings + 1) { s with world := { s.world with clock := clock } } := by
  have hdrop : found.world.clock.drop readings = t :: clock := h.clock.symm.trans hclock
  refine ⟨?_, ?_, ?_⟩
  · rw [← Nat.add_zero readings, ← List.getElem?_drop, hdrop]
    rfl
  · have hsuffix : clock <:+ s.world.clock := hclock ▸ List.suffix_cons ..
    exact { h.idle with clock := hsuffix.trans h.idle.clock }
  · rw [← List.tail_drop, hdrop]
    rfl

/-- The wait for settings takes what comes up to the first settings frame. -/
theorem Begun.awaited {started : Instant} (h : Begun found 2 s)
    (hstarted : found.world.clock[1]? = some started)
    (ho : readUntil s.world.line s.reader (started + timeout) Frame.isSettings = o)
    (hresult : o.result = some (.ok o.accepted)) :
    Following timeout found [] [] (s.afterRead o) := by
  have htrace : Trace found [] [] [] s := (trace_start found).same h.idle.history h.idle.reader
  obtain ⟨-, haccepts, since, skipped, htrace', hseen, -⟩ := htrace.read _ _ ho
  have hreader : s.reader = {} := h.idle.reader
  have hreads : s.world.reads = found.world.reads := h.idle.reads
  have hskipped : skipped.map Prod.fst = found.steppedOver timeout := by
    rw [hreader] at ho
    rw [← ho] at hresult
    have htaken := readUntil_seen hresult
    rw [ho, hseen] at htaken
    rw [List.append_cancel_right htaken, Found.steppedOver, hstarted, World.line, h.clock, hreads]
  have hwaited : Waited timeout found (skipped ++
      o.accepted.toList.map (·, lastRead (s.afterRead o).world.history)) := by
    refine ⟨o.accepted, ?_, fun f hf => ?_⟩
    · rw [List.map_append, hskipped, frames_stamped]
    · rw [Frame.isRealtime, eq_of_beq (haccepts f hf)]
      rfl
  refine ⟨reported_of_no_ticks h.idle.ticks, ⟨since, _, [], ?_, h.idle.accepted, hwaited⟩, ?_⟩
  · rw [List.map_nil, List.append_nil]
    exact htrace'.take
  · show s.freshest.realtime = (latest s.accepted).map Accepted.toStamped
    rw [h.idle.freshest, h.idle.accepted]
    rfl

end Begun

/-! ## Every action keeps it -/

namespace Monitor

variable {ρ σ : Type} {cfg : Config ρ σ} {timeout : Nat} {found : Found} {seed : List Accepted}
  {pending : List Frame}

theorem idle_following : ∀ s s', Idle s s' → Following timeout found seed pending s →
    Following timeout found seed pending s' := fun _ _ hidle h => h.idle hidle

theorem following_stops : ∀ s, Following timeout found seed pending s → s.world.clock = [] →
    Reported timeout found s := fun _ h _ => h.toReported

/-- A call that leaves a reported run, however it ends. -/
theorem read_follows {P : Monitor → Prop} {Q : Option Frame → Monitor → Prop}
    {deadline : Instant} {accept : Frame → Bool}
    (hok : ∀ s o, P s → Bms.readUntil s.world.line s.reader deadline accept = o →
      o.result = some (.ok o.accepted) → Q o.accepted (s.afterRead o))
    (hstop : ∀ s o, P s → Bms.readUntil s.world.line s.reader deadline accept = o →
      Reported timeout found (s.afterRead o)) :
    Triple P (readUntil deadline accept) Q fun _ => Reported timeout found := by
  intro s hs
  have hread := hok s _ hs rfl
  have hreported := hstop s _ hs rfl
  rw [readUntil]
  generalize Bms.readUntil s.world.line s.reader deadline accept = o at hread hreported
  obtain ⟨_ | e | found?, seen, bytes, reader, line⟩ := o
  · exact hreported
  · exact hreported
  · exact hread rfl

/-- The run after the wait, before it accepts the frame of the probe. -/
def Unseeded (timeout : Nat) (found : Found) (s : Monitor) : Prop :=
  Following timeout found [] [] s ∧ s.accepted = []

theorem idle_unseeded : ∀ s s', Idle s s' → Unseeded timeout found s → Unseeded timeout found s' :=
  fun _ _ hidle h => ⟨h.1.idle hidle, hidle.accepted ▸ h.2⟩

theorem unseeded_stops : ∀ s, Unseeded timeout found s → s.world.clock = [] →
    Reported timeout found s := fun _ h _ => h.1.toReported

/-- A run that has only begun reads the clock. -/
theorem now_begun {readings : Nat} :
    Triple (Begun found readings) now
      (fun t s => found.world.clock[readings]? = some t ∧ Begun found (readings + 1) s)
      fun _ => Reported timeout found :=
  triple_now (fun _ _ _ hs hclock => hs.now hclock) fun _ hs _ => hs.reported

theorem connected_begun :
    Triple (Begun found 0) connected (fun _ => Begun found 1) fun _ => Reported timeout found :=
  now_begun.bind fun _ => .update fun _ hs => ⟨{ hs.2.idle with }, hs.2.clock⟩

/-- Waiting for settings steps over whatever else comes. -/
theorem awaitSettings_follows :
    Triple (Begun found 1) (awaitSettings cfg) (fun _ => Unseeded cfg.frameTimeout found)
      fun _ => Reported cfg.frameTimeout found := by
  refine .bind (Q := fun _ => Unseeded cfg.frameTimeout found) ?_ fun found? => ?_
  · refine now_begun.bind fun started =>
      .bind (Q := fun _ => Unseeded cfg.frameTimeout found) ?_ fun frame? => ?_
    · refine read_follows ?_ ?_
      · exact fun s o hs ho hresult => ⟨hs.2.awaited hs.1 ho hresult, hs.2.idle.accepted⟩
      · exact fun s o hs _ => reported_of_no_ticks hs.2.idle.ticks
    · cases frame? with
      | none => exact .value fun _ h => h
      | some frame =>
        exact (idle_now idle_unseeded unseeded_stops).bind fun _ => .value fun _ h => h
  · cases found? with
    | none => exact .value fun _ h => h
    | some frame => exact idle_publishSettings cfg idle_unseeded _

/-- From the seed on there is a newest frame. -/
theorem seed_follows :
    Triple (Unseeded timeout found) (accept found.first (lastRead found.world.history))
      (fun _ s => ∃ arrived, Following timeout found [found.seed arrived] [] s)
      fun _ => Reported timeout found :=
  (idle_now idle_unseeded unseeded_stops).bind fun arrived =>
    .update fun _ hs => ⟨arrived, hs.1.seeded hs.2 found.first arrived _⟩

theorem acceptDrained_follows (frame : Frame) :
    Triple (Following timeout found seed [frame]) (acceptDrained frame)
      (fun _ => Following timeout found seed []) fun _ => Reported timeout found := by
  refine .look fun s₀ h₀ => .bind (Q := fun _ s => Following timeout found seed [frame] s ∧
    s.world.history = s₀.world.history) ?_ fun arrived => .update ?_
  · refine (idle_now ?_ fun s hs => following_stops s hs.1).weaken (fun s hs => ⟨hs ▸ h₀, hs ▸ rfl⟩)
      (fun _ _ h => h) fun _ _ h => h
    exact fun s s' hidle hs => ⟨hs.1.idle hidle, hidle.history.trans hs.2⟩
  · rintro s ⟨h, hhistory⟩
    rw [← hhistory]
    exact h.accept arrived

/-- The frames that are drained are accepted in the order they came in. -/
theorem drainLoop_follows (deadline : Instant) (turns : Nat) :
    Triple (Following timeout found seed []) (drainLoop deadline turns)
      (fun _ => Following timeout found seed []) fun _ => Reported timeout found := by
  induction turns with
  | zero => exact .stop fun _ h => h.toReported
  | succ turns ih =>
    refine (idle_now idle_following following_stops).bind fun t => ?_
    split
    · refine .bind (Q := fun frame? => Following timeout found seed frame?.toList) ?_
        fun frame? => ?_
      · exact read_follows (fun s o hs ho _ => hs.drained ho) fun s o hs ho => hs.afterRead ho
      · cases frame? with
        | none => exact .value fun _ h => h
        | some frame => exact (acceptDrained_follows frame).bind fun _ => ih
    · exact .value fun _ h => h

theorem drainUntil_follows (deadline : Instant) :
    Triple (Following timeout found seed []) (drainUntil deadline)
      (fun _ => Following timeout found seed []) fun _ => Reported timeout found :=
  .look fun _ h => (drainLoop_follows deadline _).weaken (fun _ hs => hs ▸ h) (fun _ _ h => h)
    fun _ _ h => h

variable {arrived : Instant}

theorem silence_follows (checked : Option Instant) :
    Triple (Following timeout found [found.seed arrived] []) (silence checked)
      (fun _ => Following timeout found [found.seed arrived] [])
      fun _ => Reported timeout found := by
  let P := Following timeout found [found.seed arrived] []
  refine .bind (.update (R := fun _ => P) fun s h => h.recount (s.silentCycles + 1)) fun _ =>
    .bind (.update (R := fun _ => P) fun s h => h.record true checked fun _ heq => nomatch heq)
    fun _ => .look fun s h => ?_
  split
  · exact .stop fun _ hs => hs ▸ h.toReported
  · exact .value fun _ hs => hs ▸ h

/-- A fresh frame is published, if it decodes. -/
theorem fresh_follows {a : Accepted} {checked : Instant}
    (hage : checked - a.arrived ≤ timeout) :
    Triple (fun s => Following timeout found [found.seed arrived] [] s ∧
        latest s.accepted = some a)
      (fresh cfg a.toStamped checked) (fun _ => Following timeout found [found.seed arrived] [])
      fun _ => Reported timeout found := by
  have hidle : ∀ s s', Idle s s' →
      Following timeout found [found.seed arrived] [] s ∧ latest s.accepted = some a →
      Following timeout found [found.seed arrived] [] s' ∧ latest s'.accepted = some a :=
    fun s s' hidle hs => ⟨hs.1.idle hidle, hidle.accepted ▸ hs.2⟩
  have hstops : ∀ s, Following timeout found [found.seed arrived] [] s ∧
      latest s.accepted = some a → s.world.clock = [] → Reported timeout found s :=
    fun s hs => following_stops s hs.1
  refine .bind (.update (R := fun _ s => Following timeout found [found.seed arrived] [] s ∧
    latest s.accepted = some a) fun s hs => ⟨hs.1.recount 0, hs.2⟩) fun _ => ?_
  cases cfg.parseRealtime a.frame with
  | error e =>
    exact .update fun s hs => hs.1.record false (some checked) fun _ heq => nomatch heq
  | ok v =>
    refine (idle_now hidle hstops).bind fun _ => (idle_link hidle hstops _).bind fun _ =>
      (idle_publish cfg hidle).bind fun upload => .update fun s hs =>
        hs.1.record false (some checked) ?_
    rintro p heq
    cases heq
    exact ⟨a, checked, hs.2, rfl, rfl, hage⟩

/-- A measurement publishes nothing but the newest accepted frame. -/
theorem measure_follows :
    Triple (Following cfg.frameTimeout found [found.seed arrived] []) (measure cfg)
      (fun _ => Following cfg.frameTimeout found [found.seed arrived] [])
      fun _ => Reported cfg.frameTimeout found := by
  refine .look fun s₀ h₀ => ?_
  have hfreshest := h₀.freshest
  cases ha : latest s₀.accepted with
  | none =>
    rw [ha] at hfreshest
    simp only [hfreshest]
    exact (silence_follows none).weaken (fun _ hs => hs ▸ h₀) (fun _ _ h => h) fun _ _ h => h
  | some a =>
    rw [ha] at hfreshest
    simp only [hfreshest]
    refine .bind (Q := fun _ s => Following cfg.frameTimeout found [found.seed arrived] [] s ∧
      latest s.accepted = some a) ?_ fun checked => ?_
    · refine (idle_now ?_ fun s hs => following_stops s hs.1).weaken
        (fun s hs => ⟨hs ▸ h₀, hs ▸ ha⟩) (fun _ _ h => h) fun _ _ h => h
      exact fun s s' hidle hs => ⟨hs.1.idle hidle, hidle.accepted ▸ hs.2⟩
    · split
      · exact fresh_follows (by assumption)
      · exact (silence_follows _).weaken (fun _ hs => hs.1) (fun _ _ h => h) fun _ _ h => h

theorem ticksFrom_follows (started : Instant) (k n : Nat) :
    Triple (Following cfg.frameTimeout found [found.seed arrived] []) (ticksFrom cfg started k n)
      (fun _ => Following cfg.frameTimeout found [found.seed arrived] [])
      fun _ => Reported cfg.frameTimeout found := by
  induction n generalizing k with
  | zero => exact .value fun _ h => h
  | succ n ih =>
    refine .bind (Q := fun _ => Following cfg.frameTimeout found [found.seed arrived] []) ?_
      fun _ => ih (k + 1)
    refine (drainUntil_follows _).bind fun _ => measure_follows.bind fun _ => ?_
    split
    · exact .stop fun _ h => h.toReported
    · exact idle_republishSettings cfg idle_following following_stops

end Monitor

/-- **What every tick of a run saw.** -/
theorem run_reported {ρ σ : Type} (cfg : Config ρ σ) (found : Found) (n : Nat) :
    Reported cfg.frameTimeout found (run cfg found n).2 := by
  have hrun : Triple (Begun found 0) (Monitor.measureFor cfg found n)
      (fun _ => Reported cfg.frameTimeout found) fun _ => Reported cfg.frameTimeout found := by
    refine Monitor.connected_begun.bind fun _ => Monitor.awaitSettings_follows.bind fun _ =>
      (Monitor.idle_settingsAwaited Monitor.idle_unseeded Monitor.unseeded_stops).bind fun _ =>
      (Monitor.idle_now Monitor.idle_unseeded Monitor.unseeded_stops).bind fun started =>
      Monitor.seed_follows.bind fun _ => ?_
    rintro s ⟨arrived, hs⟩
    exact (Monitor.ticksFrom_follows started 0 n).weaken (fun _ h => h)
      (fun _ _ h => h.toReported) (fun _ _ h => h) s hs
  have hstart : Begun found 0 (Monitor.start found) :=
    ⟨⟨rfl, List.suffix_refl _, rfl, rfl, rfl, rfl, rfl, rfl, rfl⟩, rfl⟩
  have h := hrun _ hstart
  rw [run]
  generalize Monitor.measureFor cfg found n (Monitor.start found) = result at h ⊢
  rcases result with ⟨_ | _, s⟩
  · exact h
  · exact h

/-! ## What is published -/

/-- The probe answers with the frame that it found. -/
theorem ofFound_eq_bms {reader : FrameReader} {found? : Option Frame} {f : Frame}
    (h : Probe.ofFound reader found? = .bms f) : found? = some f := by
  cases found? with
  | some g =>
    cases h
    rfl
  | none =>
    rw [Probe.ofFound] at h
    split at h <;> cases h

/-- The timeline of the probe ends with the frame that it found, and with what it left in its
reader. -/
theorem Found.timeline_world (found : Found) :
    (∃ skipped, timeline [] found.world.history = skipped ++
      (found.first :: framesIn found.probed.reader.buffer).map
        (·, lastRead found.world.history)) ∧
    leftover [] found.world.history = (framer.drain found.probed.reader.buffer).2 := by
  obtain ⟨candidate, clock, reads, listen, first, hmonotone, hanswered⟩ := found
  cases clock with
  | nil => cases hanswered
  | cons now clock =>
    obtain ⟨used, rest, hreads, hrest, hmoved⟩ :=
      readUntil_timeline Frame.isRealtime (now + listen) 0 {} { clock := clock, reads := reads }
    generalize ho : readUntil (World.line { clock := clock, reads := reads }) {} (now + listen)
      Frame.isRealtime = o at hrest hmoved
    have hprobe : probe ⟨now :: clock, reads.map Prod.snd⟩ listen =
        ⟨o.result.map (·.map (Probe.ofFound o.reader)), o.seen, o.bytes, o.reader, o.line⟩ := by
      rw [← ho]
      rfl
    have haccepted : o.accepted = some first := by
      rw [hprobe] at hanswered
      obtain ⟨_ | e | found?, seen, bytes, reader, line⟩ := o
      · cases hanswered
      · cases hanswered
      · exact ofFound_eq_bms (Except.ok.inj (Option.some.inj hanswered))
    have hworld : World.advance { clock := now :: clock, reads := reads } o.line
        = ⟨o.line.clock, rest, used.filterMap World.chunk?⟩ := World.advance_eq hreads hrest
    obtain ⟨skipped, hskipped, -⟩ := hmoved.frames
    have hleftover := hmoved.leftover
    rw [haccepted, framesIn_nil, drain_nil] at hskipped
    rw [drain_nil] at hleftover
    simp only [Found.world, Found.probed, hprobe, hworld]
    exact ⟨⟨skipped, hskipped⟩, hleftover⟩

/-- The probe's frame is the last realtime frame read, unless there is one in what the probe
left. -/
theorem Found.lastRealtime_world (found : Found)
    (h : ∀ f ∈ framesIn found.probed.reader.buffer, f.isRealtime = false) :
    lastRealtime (timeline [] found.world.history)
      = some (found.first, lastRead found.world.history) := by
  obtain ⟨⟨skipped, hskipped⟩, -⟩ := found.timeline_world
  have hrest : lastRealtime ((framesIn found.probed.reader.buffer).map
      (·, lastRead found.world.history)) = none := by
    refine lastRealtime_eq_none fun e he => ?_
    obtain ⟨f, hf, rfl⟩ := List.mem_map.mp he
    exact h f hf
  have hfirst : lastRealtime [(found.first, lastRead found.world.history)]
      = some (found.first, lastRead found.world.history) := by
    rw [lastRealtime, List.filter_cons_of_pos (by exact found.first_isRealtime)]
    rfl
  rw [hskipped, lastRealtime_append, List.map_cons, ← List.singleton_append,
    lastRealtime_append, hrest, hfirst]
  rfl

/-- What was read since the port was found. -/
def Tick.since (t : Tick) (found : Found) : History :=
  t.history.drop found.world.history.length

/-- What the probe's reader holds behind its whole frames; its successor does not get it. -/
def Found.held (found : Found) : List UInt8 := (framer.drain found.probed.reader.buffer).2

/-- How a fresh reader gets on with `bytes` when the one before it was dropped with `held` in it:
neither comes to a realtime frame; or the two meet, in that from some byte on both scan what is
left, and no realtime frame stands before that byte, or there is one behind it. -/
inductive Resumes (held bytes : List UInt8) : Prop
  | quiet : (∀ f ∈ framesIn (held ++ bytes) ++ framesIn bytes, f.isRealtime = false) →
      Resumes held bytes
  | meet (es fs : List Event) (rest : List UInt8) : framer.Run (held ++ bytes) es rest →
      framer.Run bytes fs rest →
      ((∃ f ∈ framesIn rest, f.isRealtime = true) ∨
        ∀ f ∈ framesOf es ++ framesOf fs, f.isRealtime = false) → Resumes held bytes

/-- Leftovers that begin no frame make no difference. -/
theorem resumes_of_clean {buffer : List UInt8} (h : Clean buffer) (bytes : List UInt8) :
    Resumes (framer.drain buffer).2 bytes := by
  obtain ⟨-, hno⟩ := h
  have hstuck := (framer.run_drain buffer).2
  have hshort := length_of_clean hstuck hno
  rcases Nat.lt_or_ge bytes.length 3 with hbytes | hbytes
  · refine .quiet ?_
    rw [framesIn_append_of_clean hstuck hno, framesIn_of_length_lt (by omega)]
    exact List.forall_mem_nil _
  · refine .meet _ [] bytes (run_of_clean hshort hbytes hno) (.refl _) (.inr ?_)
    rw [framesOf_replicate_skipped]
    exact List.forall_mem_nil _

theorem lastRealtime_none {b : List UInt8} (hb : framer.Stuck b) {history : History}
    (h : ∀ f ∈ framesIn (b ++ bytesRead history), f.isRealtime = false) :
    lastRealtime (timeline b history) = none := by
  refine lastRealtime_eq_none fun e he => h e.1 ?_
  rw [← timeline_frames hb]
  exact List.mem_map_of_mem he

/-- A reader that resumes has the last realtime frame of the one before it, from the same read. -/
theorem Resumes.lastRealtime_eq {held : List UInt8} (hheld : framer.Stuck held)
    {history : History} (h : Resumes held (bytesRead history)) :
    lastRealtime (timeline held history) = lastRealtime (timeline [] history) := by
  cases h with
  | quiet hquiet =>
    rw [lastRealtime_none hheld fun f hf => hquiet f (List.mem_append_left _ hf),
      lastRealtime_none stuck_nil fun f hf => hquiet f (List.mem_append_right _ hf)]
  | meet es fs rest hkept hfresh hrealtime =>
    obtain ⟨pre, pre', common, hpre, hpre', hframes, hframes'⟩ :=
      timeline_meet history hheld stuck_nil hkept hfresh
    have hbefore : ∀ {pre : List (Frame × Instant)} {es : List Event},
        pre.map Prod.fst = framesOf es → (∀ f ∈ framesOf es, f.isRealtime = false) →
        lastRealtime pre = none := fun hframes hnone =>
      lastRealtime_eq_none fun e he => hnone e.1 (hframes ▸ List.mem_map_of_mem he)
    rw [hpre, hpre', lastRealtime_append, lastRealtime_append]
    rcases hrealtime with ⟨f, hf, hrealtime⟩ | hnone
    · -- the frames behind the meeting point are those of `rest`
      have hall := timeline_frames hheld history
      rw [hpre, List.map_append, hframes, framesIn, hkept.drain_eq, framesOf_append] at hall
      rw [framesIn, ← List.append_cancel_left hall] at hf
      obtain ⟨e, he, rfl⟩ := List.mem_map.mp hf
      have hsome : lastRealtime common ≠ none := by
        rw [lastRealtime, Ne, List.getLast?_eq_none_iff, List.filter_eq_nil_iff]
        exact fun hno => hno e he hrealtime
      obtain ⟨last, hlast⟩ := Option.ne_none_iff_exists'.mp hsome
      rw [hlast, Option.some_or, Option.some_or]
    · rw [hbefore hframes fun f hf => hnone f (List.mem_append_left _ hf),
        hbefore hframes' fun f hf => hnone f (List.mem_append_right _ hf)]

/-- No realtime frame was lost on the way to this tick: the reader that follows the probe's
resumes; none is among the whole frames that the probe left and those that the wait for settings
steps over, unless one came behind them; and none is still in the reader. -/
structure Unmissed (timeout : Nat) (found : Found) (t : Tick) : Prop where
  handover : Resumes found.held (bytesRead (t.since found))
  wait : (∃ f ∈ (framesIn (bytesRead (t.since found))).drop (found.steppedOver timeout).length,
      f.isRealtime = true) ∨
    ∀ f ∈ framesIn found.probed.reader.buffer ++ found.steppedOver timeout, f.isRealtime = false
  left : ∀ f ∈ t.left, f.isRealtime = false

/-- What the checked age does not count: the clock gained at most `wait` between the read that
brought the frame and its acceptance, and at most `delay` between the check and the batch. -/
structure Punctual (wait delay : Nat) (t : Tick) : Prop where
  accepted : ∀ a ∈ latest t.accepted, a.arrived ≤ a.read + wait
  posted : ∀ checked ∈ t.checked, ∀ p ∈ t.published, p.time ≤ checked + delay

instance decidablePunctual (wait delay : Nat) (t : Tick) : Decidable (Punctual wait delay t) :=
  decidable_of_iff (_ ∧ _) ⟨fun ⟨h₁, h₂⟩ => ⟨h₁, h₂⟩, fun ⟨h₁, h₂⟩ => ⟨h₁, h₂⟩⟩

theorem lastRealtime_entries (drained : List Accepted) :
    lastRealtime (drained.map Accepted.entry) = (latest drained).map Accepted.entry := by
  rw [lastRealtime, List.filter_map, List.getLast?_map]
  rfl

theorem latest_cons (a : Accepted) (drained : List Accepted) :
    latest (a :: drained) = (latest drained).or (latest [a]) := by
  rw [latest, ← List.singleton_append, List.filter_append, List.getLast?_append]
  rfl

/-- Behind what the wait stepped over there is no realtime frame but what was drained, or left. -/
theorem Waited.not_realtime {timeout : Nat} {found : Found} {since : History}
    {waited drained left : List (Frame × Instant)} (h : Waited timeout found waited)
    (htimeline : timeline [] since = waited ++ drained ++ left)
    (hdrained : ∀ e ∈ drained, e.1.isRealtime = false)
    (hleft : ∀ e ∈ left, e.1.isRealtime = false) {f : Frame}
    (hf : f ∈ (framesIn (bytesRead since)).drop (found.steppedOver timeout).length) :
    f.isRealtime = false := by
  obtain ⟨settings, htaken, hsettings⟩ := h
  have hframes := timeline_frames stuck_nil since
  rw [htimeline, List.map_append, List.map_append, htaken, List.append_assoc, List.append_assoc,
    List.nil_append] at hframes
  rw [← hframes, List.drop_left, List.mem_append, List.mem_append, Option.mem_toList] at hf
  rcases hf with hf | hf | hf
  · exact hsettings f hf
  · obtain ⟨e, he, rfl⟩ := List.mem_map.mp hf
    exact hdrained e he
  · obtain ⟨e, he, rfl⟩ := List.mem_map.mp hf
    exact hleft e he

/-- Of what was taken by the end of the wait, nothing is a realtime frame but what was stepped
over. -/
theorem Waited.lastRealtime_eq_none {timeout : Nat} {found : Found}
    {waited : List (Frame × Instant)} (h : Waited timeout found waited)
    (hstepped : ∀ f ∈ found.steppedOver timeout, f.isRealtime = false) :
    lastRealtime waited = none := by
  obtain ⟨settings, htaken, hsettings⟩ := h
  refine Bms.lastRealtime_eq_none fun e he => ?_
  have hmem : e.1 ∈ found.steppedOver timeout ++ settings.toList :=
    htaken ▸ List.mem_map_of_mem he
  exact (List.mem_append.mp hmem).elim (hstepped e.1)
    fun hmem => hsettings e.1 (Option.mem_toList.mp hmem)

/-- What a tick told is the newest frame, if nothing was missed. -/
theorem Told.newest {timeout : Nat} {found : Found} {t : Tick} (h : Told timeout found t)
    (hunmissed : Unmissed timeout found t) :
    ∃ a, latest t.accepted = some a ∧ lastRealtime (timeline [] t.history) = some a.entry := by
  obtain ⟨arrived, since, waited, drained, hhistory, haccepted, htimeline, hwaited⟩ := h.frames
  obtain ⟨-, hleftover⟩ := found.timeline_world
  have hsince : t.since found = since := by
    rw [Tick.since, hhistory, List.drop_left]
  have hhandover := hunmissed.handover
  rw [hsince] at hhandover
  have hresumed : lastRealtime (timeline (framer.drain found.probed.reader.buffer).2 since)
      = lastRealtime (timeline [] since) := hhandover.lastRealtime_eq (framer.run_drain _).2
  have hleft : ∀ e ∈ t.left.map (·, lastRead t.history), e.1.isRealtime = false := by
    intro e he
    obtain ⟨f, hf, rfl⟩ := List.mem_map.mp he
    exact hunmissed.left f hf
  -- the whole timeline: the probe's part, what the wait took, what was drained, what is left
  have hall : lastRealtime (timeline [] t.history)
      = (((latest drained).map Accepted.entry).or (lastRealtime waited)).or
        (lastRealtime (timeline [] found.world.history)) := by
    rw [hhistory, timeline_append, lastRealtime_append, hleftover, hresumed, htimeline,
      lastRealtime_append, lastRealtime_eq_none hleft, Option.none_or, lastRealtime_append,
      lastRealtime_entries]
  rw [haccepted, latest_cons, hall]
  cases hlatest : latest drained with
  | some a => exact ⟨a, rfl, rfl⟩
  | none =>
    -- the frame of the probe is the only one, so nothing that was lost was a realtime frame
    have hdrained : ∀ e ∈ drained.map Accepted.entry, e.1.isRealtime = false := by
      intro e he
      obtain ⟨a, ha, rfl⟩ := List.mem_map.mp he
      rw [latest, List.getLast?_eq_none_iff, List.filter_eq_nil_iff] at hlatest
      exact Bool.eq_false_iff.mpr (hlatest a ha)
    have hlost : ∀ f ∈ framesIn found.probed.reader.buffer ++ found.steppedOver timeout,
        f.isRealtime = false := by
      refine hunmissed.wait.resolve_left ?_
      rintro ⟨f, hf, hrealtime⟩
      rw [hsince] at hf
      rw [hwaited.not_realtime htimeline hdrained hleft hf] at hrealtime
      cases hrealtime
    have hseed : latest [found.seed arrived] = some (found.seed arrived) := by
      rw [← List.nil_append [found.seed arrived], latest_append,
        if_pos (by exact found.first_isRealtime)]
    refine ⟨found.seed arrived, hseed, ?_⟩
    rw [hwaited.lastRealtime_eq_none fun f hf => hlost f (List.mem_append_right _ hf),
      found.lastRealtime_world fun f hf => hlost f (List.mem_append_left _ hf)]
    rfl

/-- The last realtime frame of the timeline is the last one of the bytes. -/
theorem latest_frame_of_timeline {history : History} {e : Frame × Instant}
    (h : lastRealtime (timeline [] history) = some e) :
    ((framesIn (bytesRead history)).filter Frame.isRealtime).getLast? = some e.1 := by
  have hframes := timeline_frames stuck_nil history
  rw [List.nil_append] at hframes
  rw [← hframes, List.filter_map, List.getLast?_map]
  exact congrArg (Option.map Prod.fst) h

theorem within_timeout {read arrived checked time timeout wait delay : Nat}
    (harrived : arrived ≤ read + wait) (hage : checked - arrived ≤ timeout)
    (hposted : time ≤ checked + delay) : time ≤ read + timeout + wait + delay := by
  omega

/-- The check bounds the age at the batch by the timeout and what it does not count. -/
theorem Punctual.time_le {wait delay timeout checked : Nat} {t : Tick} {a : Accepted}
    {p : Publication} (h : Punctual wait delay t) (ha : latest t.accepted = some a)
    (hchecked : t.checked = some checked) (hp : t.published = some p)
    (hage : checked - a.arrived ≤ timeout) : p.time ≤ a.read + timeout + wait + delay :=
  within_timeout (h.accepted a ha) hage (h.posted checked hchecked p hp)

/-- **Fresh records.** In every run, what was read grows from tick to tick; and at a tick that
missed no realtime frame, the frame that is published is the last one of all the bytes read from
the port, and it was read within the timeout before it was published, the delays that the checked
age does not count set aside. -/
theorem publishes_newest {ρ σ : Type} (cfg : Config ρ σ) (found : Found) (n : Nat) :
    (run cfg found n).2.ticks.Pairwise (fun t u => t.history <+: u.history) ∧
    ∀ t ∈ (run cfg found n).2.ticks, ∀ p, t.published = some p →
      Unmissed cfg.frameTimeout found t →
      ((framesIn (bytesRead t.history)).filter Frame.isRealtime).getLast? = some p.frame ∧
      ∃ i, lastRealtime (timeline [] t.history) = some (p.frame, i) ∧
        ∀ wait delay, Punctual wait delay t → p.time ≤ i + cfg.frameTimeout + wait + delay := by
  have hreported := run_reported cfg found n
  refine ⟨hreported.order, fun t ht p hp hunmissed => ?_⟩
  have htold := hreported.told t ht
  obtain ⟨a, ha, hlast⟩ := htold.newest hunmissed
  obtain ⟨b, checked, hb, hchecked, hframe, hage⟩ := htold.published p hp
  -- the frame that was judged is the one that was published
  have hab : a = b := Option.some.inj (ha.symm.trans hb)
  subst hab
  have hentry : a.entry = (p.frame, a.read) := by rw [Accepted.entry, hframe]
  rw [hentry] at hlast
  exact ⟨latest_frame_of_timeline hlast, a.read, hlast, fun wait delay hpunctual =>
    hpunctual.time_le ha hchecked hp hage⟩

/-- A pack that pushes a second realtime frame during the first interval. -/
def pushingPort : Found where
  candidate := ⟨"/dev/ttyUSB0", "port0", none⟩
  clock := [0, 1, 1, 1, 2, 2, 2, 2, 2, 4, 4, 5, 6, 12, 12, 12, 12, 12]
  reads := [(1, .ok (fixtureFrame realtime [7])), (2, .ok (fixtureFrame settings [])),
    (5, .ok (fixtureFrame realtime [8]))]
  listen := 10
  first := ⟨realtime, fixtureFrame realtime [7]⟩
  monotone := by decide
  answered := by decide +kernel

/-- Nothing is left in the probe's reader, every frame is accepted when it is read and the batch
is posted when the age is checked: the record shows the frame of second 5. -/
theorem publishes_newest_pushing :
    ∃ t ∈ (run (plainConfig 10 30) pushingPort 1).2.ticks, ∃ p, t.published = some p ∧
      ((framesIn (bytesRead t.history)).filter Frame.isRealtime).getLast? = some p.frame ∧
      ∃ i, lastRealtime (timeline [] t.history) = some (p.frame, i) ∧ p.time ≤ i + 30 := by
  have htick : ∃ t ∈ (run (plainConfig 10 30) pushingPort 1).2.ticks,
      t.published.isSome = true ∧
        (∃ f ∈ (framesIn (bytesRead (t.since pushingPort))).drop
          (pushingPort.steppedOver 30).length, f.isRealtime = true) ∧
        (∀ f ∈ t.left, f.isRealtime = false) ∧ Punctual 0 0 t := by
    decide +kernel
  obtain ⟨t, ht, hpublished, hbehind, hleft, hpunctual⟩ := htick
  obtain ⟨p, hp⟩ := Option.isSome_iff_exists.mp hpublished
  have hclean : Clean pushingPort.probed.reader.buffer := by
    have hempty : pushingPort.probed.reader.buffer = [] := by decide +kernel
    rw [hempty]
    exact ⟨framesIn_nil, by decide +kernel⟩
  obtain ⟨hframe, i, hlast, htime⟩ := (publishes_newest _ pushingPort 1).2 t ht p hp
    ⟨resumes_of_clean hclean _, .inl hbehind, hleft⟩
  exact ⟨t, ht, p, hp, hframe, i, hlast, htime 0 0 hpunctual⟩

/-- A pack whose second realtime frame comes while the run waits for settings. -/
def steppedOverPort : Found where
  candidate := ⟨"/dev/ttyUSB0", "port0", none⟩
  clock := [0, 1, 1, 1, 2, 3, 3, 3, 3, 3, 4, 13, 13, 13, 13, 13]
  reads := [(1, .ok (fixtureFrame realtime [7])),
    (2, .ok ((fixtureFrame realtime [8] ++ fixtureFrame settings []).take 512)),
    (3, .ok ((fixtureFrame realtime [8] ++ fixtureFrame settings []).drop 512))]
  listen := 10
  first := ⟨realtime, fixtureFrame realtime [7]⟩
  monotone := by decide
  answered := by decide +kernel

/-- The frame that is stepped over is lost, and the first record shows the one before it. -/
theorem older_frame_published :
    ∃ t ∈ (run (plainConfig 10 30) steppedOverPort 1).2.ticks, ∃ p ∈ t.published,
      ((framesIn (bytesRead t.history)).filter Frame.isRealtime).getLast? ≠ some p.frame := by
  decide +kernel

end HostServices.Bms
