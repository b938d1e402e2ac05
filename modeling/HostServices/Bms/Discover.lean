import HostServices.Bms.Port

/-!
# Telling the BMS from other ports (`bms-monitoring/src/discover.rs`)

`probe` listens on one port for a bounded time and decides what is behind it
from a single question: does a valid realtime frame arrive?

- `probe`: the source's function, over a line;
- `Decided`: what a probe answers, and when, from the reads that come within its
  window;
- `no_frame_lost_or_duplicated`: what holds of any sequence of `read_until` calls
  and of the three answers of a probe, on every line.
-/

namespace HostServices.Bms

/-- What one open port is. -/
inductive Probe where
  | bms (frame : Frame)
  | silent
  | notABms (reason : String)
  deriving DecidableEq, Repr

/-- What a probe did: its answer (`none` while it is still listening), and the
port and the reader as it left them. -/
structure Probed where
  answer : Option (Except String Probe)
  seen : List Frame
  bytes : List UInt8
  reader : FrameReader
  line : Line

/-- The answer of a probe whose `read_until` returned `found`. -/
def Probe.ofFound (reader : FrameReader) : Option Frame → Probe
  | some frame => .bms frame
  | none =>
    if reader.bytesRead = 0 then .silent
    else .notABms (s!"{reader.bytesRead} byte(s) seen, {reader.framesOk} valid frame(s) of " ++
      s!"the wrong kind, {reader.framesDiscarded} failed the checksum, no valid realtime frame")

/-- Decide what one open port is, by listening only. -/
def probe (line : Line) (window : Nat) : Probed :=
  match line.clock with
  | [] => ⟨none, [], [], {}, line⟩
  | now :: clock =>
    let o := readUntil ⟨clock, line.reads⟩ {} (now + window) Frame.isRealtime
    ⟨o.result.map (·.map (Probe.ofFound o.reader)), o.seen, o.bytes, o.reader, o.line⟩

/-! ## What the answer says about the bytes -/

/-- What an answer claims about the bytes the probe read. -/
structure Probe.Accounts (p : Probe) (bytes : List UInt8) : Prop where
  bms : ∀ f, p = .bms f ↔ (framesIn bytes).find? Frame.isRealtime = some f
  silent : p = .silent ↔ bytes = []
  notABms : (∃ reason, p = .notABms reason) ↔
    bytes ≠ [] ∧ (framesIn bytes).find? Frame.isRealtime = none

/-- The answer of a probe that found nothing in its window. -/
theorem ofFound_none {fed : List UInt8} {log : List Event} {r : FrameReader}
    (h : Tracks fed log r) :
    (fed = [] ∧ Probe.ofFound r none = .silent) ∨
      (fed ≠ [] ∧ ∃ reason, Probe.ofFound r none = .notABms reason) := by
  have hread : r.bytesRead = fed.length := h.tally.bytesRead
  rw [Probe.ofFound]
  by_cases hfed : fed = []
  · rw [if_pos (by rw [hread, hfed]; rfl)]
    exact .inl ⟨hfed, rfl⟩
  · rw [if_neg fun hzero => hfed (List.eq_nil_of_length_eq_zero (hread ▸ hzero))]
    exact .inr ⟨hfed, _, rfl⟩

/-- What a probe answers accounts for the first realtime frame of what it was fed. -/
theorem ofFound_accounts {fed : List UInt8} {log : List Event} {r : FrameReader}
    {found : Option Frame} (h : Tracks fed log r)
    (hfind : (framesIn fed).find? Frame.isRealtime = found) :
    (Probe.ofFound r found).Accounts fed := by
  cases found with
  | some f =>
    have hne : fed ≠ [] := by
      rintro rfl
      rw [framesIn_nil] at hfind
      cases hfind
    refine ⟨fun g => ?_, ?_, ?_⟩
    · rw [hfind]
      exact ⟨fun hg => by cases hg; rfl, fun hg => by cases hg; rfl⟩
    · exact ⟨fun hs => (nomatch hs), fun hnil => absurd hnil hne⟩
    · refine ⟨fun ⟨_, hs⟩ => (nomatch hs), fun ⟨_, hnone⟩ => ?_⟩
      rw [hfind] at hnone
      cases hnone
  | none =>
    rcases ofFound_none h with ⟨hnil, hanswer⟩ | ⟨hne, reason, hanswer⟩
    · rw [hanswer]
      refine ⟨fun g => ?_, ⟨fun _ => hnil, fun _ => rfl⟩, ?_⟩
      · rw [hfind]
        exact ⟨fun hg => (nomatch hg), fun hg => (nomatch hg)⟩
      · exact ⟨fun ⟨_, hs⟩ => (nomatch hs), fun hne => absurd hnil hne.1⟩
    · rw [hanswer]
      refine ⟨fun g => ?_, ⟨fun hs => (nomatch hs), fun hnil => absurd hnil hne⟩, ?_⟩
      · rw [hfind]
        exact ⟨fun hg => (nomatch hg), fun hg => (nomatch hg)⟩
      · exact ⟨fun _ => ⟨hne, hfind⟩, fun _ => ⟨reason, rfl⟩⟩

/-- How a probe that answered used the line: `start` is when it began, every
read was made before `start + window`, and an answer other than `Bms` was given
only once the clock had reached `start + window`. -/
structure ListenedFor (window : Nat) (line : Line) (o : Probed) (p : Probe)
    (start : Instant) (ticks : List Instant)
    (used : List (Except String (List UInt8))) : Prop where
  reads : line.reads = used ++ o.line.reads
  bytes : o.bytes = bytesOf used
  length : ticks.length = used.length
  early : ∀ t ∈ ticks, t < start + window
  found : ∀ f, p = .bms f → line.clock = start :: ticks ++ o.line.clock
  expired : (∀ f, p ≠ .bms f) →
    ∃ t, start + window ≤ t ∧ line.clock = start :: ticks ++ t :: o.line.clock

/-- What a probe that answered has to say, and how long it listened. -/
theorem probe_answer {line : Line} {window : Nat} {p : Probe}
    (h : (probe line window).answer = some (.ok p)) :
    p.Accounts (probe line window).bytes ∧
      ∃ start ticks used, ListenedFor window line (probe line window) p start ticks used := by
  obtain ⟨clock, reads⟩ := line
  cases clock with
  | nil => cases h
  | cons now clock =>
    obtain ⟨⟨l, htracks, hframes⟩, hverdict, ticks, used, hpaced⟩ :=
      readUntil_spec Frame.isRealtime (now + window) ⟨clock, reads⟩ tracks_default
    simp only [probe] at h ⊢
    generalize readUntil ⟨clock, reads⟩ {} (now + window) Frame.isRealtime = o at *
    obtain ⟨result, seen, bytes, reader, line'⟩ := o
    rw [List.nil_append, List.nil_append] at htracks
    obtain _ | (e | found) := result
    · cases h
    · cases h
    · simp only [Option.map_some, Except.map, Option.some.injEq, Except.ok.injEq] at h
      subst h
      have hv : Verdict Frame.isRealtime found (framesOf l) reader := hframes ▸ hverdict
      refine ⟨ofFound_accounts htracks (htracks.find?_framesIn hv), now, ticks, used,
        hpaced.reads, hpaced.bytes, hpaced.length, hpaced.early, fun f hf => ?_, fun hno => ?_⟩
      · cases found with
        | some g => exact congrArg (now :: ·) hpaced.clock
        | none =>
          rw [Probe.ofFound] at hf
          split at hf <;> cases hf
      · cases found with
        | some g => exact absurd rfl (hno g)
        | none =>
          obtain ⟨t, ht, hclock⟩ := hpaced.clock
          exact ⟨t, ht, congrArg (now :: ·) hclock⟩

/-! ## When a probe answers -/

/-- The reads that come within `window` of a probe's start, its first clock reading. -/
def Line.within (line : Line) (window : Nat) : List (Except String (List UInt8)) :=
  match line.clock with
  | [] => []
  | start :: clock => Line.before ⟨clock, line.reads⟩ (start + window)

/-- The clock reading behind those reads has reached the end of the window. -/
def Line.Passed (line : Line) (window : Nat) : Prop :=
  match line.clock with
  | [] => False
  | start :: clock => Line.Expired ⟨clock, line.reads⟩ (start + window)

/-- What the probe of a line answers, from what its window brings: the first realtime frame,
whenever there is one; else the failure of a read; else, once the window has passed, whether
there was a byte. Until then it listens. -/
structure Decided (line : Line) (window : Nat) (answer : Option (Except String Probe)) :
    Prop where
  bms : ∀ f, answer = some (.ok (.bms f)) ↔
    (framesIn (heard (line.within window))).find? Frame.isRealtime = some f
  silent : answer = some (.ok .silent) ↔ heard (line.within window) = [] ∧
    failure (line.within window) = none ∧ line.Passed window
  notABms : (∃ reason, answer = some (.ok (.notABms reason))) ↔
    heard (line.within window) ≠ [] ∧
    (framesIn (heard (line.within window))).find? Frame.isRealtime = none ∧
    failure (line.within window) = none ∧ line.Passed window
  failed : ∀ e, answer = some (.error e) ↔
    (framesIn (heard (line.within window))).find? Frame.isRealtime = none ∧
    failure (line.within window) = some e
  listening : answer = none ↔
    (framesIn (heard (line.within window))).find? Frame.isRealtime = none ∧
    failure (line.within window) = none ∧ ¬ line.Passed window

/-- Without a failed read all reads are heard. -/
theorem heard_of_no_failure {reads : List (Except String (List UInt8))}
    (h : failure reads = none) : heard reads = bytesOf reads := by
  induction reads with
  | nil => rfl
  | cons read reads ih =>
    cases read with
    | ok chunk => exact congrArg (chunk ++ ·) (ih h)
    | error e => cases h

/-- A call that gave up made every read that comes before its deadline. -/
theorem Paced.before {deadline : Instant} {line : Line} {o : Outcome} {ticks : List Instant}
    {used : List (Except String (List UInt8))} (h : Paced deadline line o ticks used)
    (hresult : o.result = some (.ok none)) : line.before deadline = used := by
  obtain ⟨clock, reads⟩ := line
  have hclock := h.clock
  have hreads := h.reads
  rw [hresult] at hclock
  obtain ⟨t, ht, hclock⟩ := hclock
  dsimp only at hclock hreads
  subst hclock hreads
  have hlength := h.length
  have hearly := h.early
  clear h
  induction ticks generalizing used with
  | nil =>
    rw [List.eq_nil_of_length_eq_zero hlength.symm]
    exact before_late (Nat.not_lt_of_le ht)
  | cons tick ticks ih =>
    cases used with
    | nil => cases hlength
    | cons read used =>
      rw [List.cons_append, List.cons_append, before_cons (hearly tick List.mem_cons_self)]
      exact congrArg (read :: ·) (ih (Nat.succ.inj hlength)
        fun u hu => hearly u (List.mem_cons_of_mem _ hu))

/-- The four ways a probe can go. -/
theorem decided_cases {line : Line} {window : Nat} {answer : Option (Except String Probe)}
    (h : (∃ f, (framesIn (heard (line.within window))).find? Frame.isRealtime = some f ∧
        answer = some (.ok (.bms f))) ∨
      (framesIn (heard (line.within window))).find? Frame.isRealtime = none ∧
      ((∃ e, failure (line.within window) = some e ∧ answer = some (.error e)) ∨
        failure (line.within window) = none ∧
        ((line.Passed window ∧
            ((heard (line.within window) = [] ∧ answer = some (.ok .silent)) ∨
              heard (line.within window) ≠ [] ∧
                ∃ reason, answer = some (.ok (.notABms reason)))) ∨
          (¬ line.Passed window ∧ answer = none)))) :
    Decided line window answer := by
  have hbytes : ∀ f, (framesIn (heard (line.within window))).find? Frame.isRealtime = some f →
      heard (line.within window) ≠ [] := by
    intro f hf hnil
    rw [hnil, framesIn_nil] at hf
    cases hf
  rcases h with ⟨f, hfirst, rfl⟩ | ⟨hfirst, ⟨e, hfailed, rfl⟩ | ⟨hfailed, hrest⟩⟩
  · have hne := hbytes f hfirst
    constructor <;> simp [hfirst, hne]
  · constructor <;> simp [hfirst, hfailed]
  · rcases hrest with ⟨hpassed, ⟨hnil, rfl⟩ | ⟨hne, reason, rfl⟩⟩ | ⟨hwaiting, rfl⟩
    · constructor <;> simp [framesIn_nil, hfailed, hpassed, hnil]
    · constructor <;> simp [hfirst, hfailed, hpassed, hne]
    · constructor <;> simp [hfirst, hfailed, hwaiting]

/-- **When a probe answers, and with what.** -/
theorem probe_decided (line : Line) (window : Nat) :
    Decided line window (probe line window).answer := by
  obtain ⟨clock, reads⟩ := line
  apply decided_cases
  cases clock with
  | nil =>
    have hfirst : (framesIn (heard (Line.within ⟨[], reads⟩ window))).find? Frame.isRealtime
        = none := by
      show (framesIn []).find? _ = none
      rw [framesIn_nil]
      rfl
    exact .inr ⟨hfirst, .inr ⟨rfl, .inr ⟨id, rfl⟩⟩⟩
  | cons now clock =>
    have hresult := readUntil_result Frame.isRealtime (now + window) ⟨clock, reads⟩
    obtain ⟨⟨l, htracks, -⟩, -, ticks, used, hpaced⟩ :=
      readUntil_spec Frame.isRealtime (now + window) ⟨clock, reads⟩ tracks_default
    rw [List.nil_append, List.nil_append] at htracks
    simp only [probe, Line.within, Line.Passed]
    generalize readUntil ⟨clock, reads⟩ {} (now + window) Frame.isRealtime = o at *
    cases hfirst : (framesIn (heard (Line.before ⟨clock, reads⟩ (now + window)))).find?
      Frame.isRealtime with
    | some f =>
      rw [hfirst] at hresult
      exact .inl ⟨f, rfl, by rw [hresult]; rfl⟩
    | none =>
      simp only [hfirst, Line.answer] at hresult
      refine .inr ⟨rfl, ?_⟩
      cases hfailed : failure (Line.before ⟨clock, reads⟩ (now + window)) with
      | some e =>
        rw [hfailed] at hresult
        exact .inl ⟨e, rfl, by rw [hresult]; rfl⟩
      | none =>
        simp only [hfailed] at hresult
        refine .inr ⟨rfl, ?_⟩
        by_cases hexpired : Line.Expired ⟨clock, reads⟩ (now + window)
        · -- it made every read before its deadline, and none of them failed
          rw [if_pos hexpired] at hresult
          rw [hresult, heard_of_no_failure hfailed, hpaced.before hresult, ← hpaced.bytes]
          refine .inl ⟨hexpired, ?_⟩
          rcases ofFound_none htracks with ⟨hnil, hanswer⟩ | ⟨hne, reason, hanswer⟩
          · exact .inl ⟨hnil, by rw [← hanswer]; rfl⟩
          · exact .inr ⟨hne, reason, by rw [← hanswer]; rfl⟩
        · rw [if_neg hexpired] at hresult
          exact .inr ⟨hexpired, by rw [hresult]; rfl⟩

/-- **No frame is lost or duplicated by the read loop.** Over any sequence of
`readUntil` calls on one transport and one reader, the frames the calls accepted
or dropped are, in order, an initial part of the frames a fresh reader emits on
all bytes read, and the rest of those are exactly what the buffer still yields.
A probe answers `Bms` with a frame exactly when that is the first realtime frame of what
comes before its deadline, and else, once the deadline has come, `Silent` exactly when
nothing came and `NotABms` otherwise; what it answered is about the bytes it read. -/
theorem no_frame_lost_or_duplicated (line : Line) :
    (∀ qs, ∃ used,
      line.reads = used ++ (serve {} line qs).line.reads ∧
      (serve {} line qs).bytes = bytesOf used ∧
      (serve {} line qs).seen <+: (FrameReader.feed {} (serve {} line qs).bytes).drain.1 ∧
      (FrameReader.feed {} (serve {} line qs).bytes).drain.1
        = (serve {} line qs).seen ++ (serve {} line qs).reader.drain.1) ∧
    (∀ window, Decided line window (probe line window).answer) ∧
    ∀ window p, (probe line window).answer = some (.ok p) →
      ((∀ f, p = .bms f ↔
          (FrameReader.feed {} (probe line window).bytes).drain.1.find? Frame.isRealtime
            = some f) ∧
        (p = .silent ↔ (probe line window).bytes = []) ∧
        ((∃ reason, p = .notABms reason) ↔ (probe line window).bytes ≠ [] ∧
          (FrameReader.feed {} (probe line window).bytes).drain.1.find? Frame.isRealtime
            = none)) ∧
      ∃ start ticks used, ListenedFor window line (probe line window) p start ticks used := by
  refine ⟨?_, probe_decided line, ?_⟩
  · intro qs
    obtain ⟨-, used, hreads, hbytes⟩ := serve_tracks tracks_default line qs
    have hseen := serve_seen line qs
    refine ⟨used, hreads, hbytes, ?_, ?_⟩
    · rw [feed_drain, ← hseen]
      exact List.prefix_append ..
    · rw [feed_drain, hseen]
  · intro window p h
    obtain ⟨haccounts, hlistened⟩ := probe_answer h
    rw [feed_drain]
    exact ⟨⟨haccounts.bms, haccounts.silent, haccounts.notABms⟩, hlistened⟩

/-- A frame with a correct checksum, `data` padded or truncated to the wire
length (`frame::fixture::frame`). -/
def fixtureFrame (code : UInt8) (data : List UInt8) : List UInt8 :=
  let body := header ++ [code, 0] ++ data.take 293 ++ List.replicate (293 - data.length) 0
  body ++ [checksum body]

/-- A port that pushes a settings frame and half a realtime frame, then the other half. -/
def splitPort : Line where
  clock := [0, 1, 2]
  reads := [.ok (fixtureFrame settings [] ++ (fixtureFrame realtime [7]).take 150),
    .ok ((fixtureFrame realtime [7]).drop 150)]

/-- Its probe finds the realtime frame, which is the first one of what comes in ten seconds. -/
theorem no_frame_lost_or_duplicated_split :
    (probe splitPort 10).answer = some (.ok (.bms ⟨realtime, fixtureFrame realtime [7]⟩)) ∧
    (framesIn (heard (splitPort.within 10))).find? Frame.isRealtime
      = some ⟨realtime, fixtureFrame realtime [7]⟩ ∧
    (FrameReader.feed {} (probe splitPort 10).bytes).drain.1.find? Frame.isRealtime
      = some ⟨realtime, fixtureFrame realtime [7]⟩ := by
  have hanswer : (probe splitPort 10).answer
      = some (.ok (.bms ⟨realtime, fixtureFrame realtime [7]⟩)) := by
    decide +kernel
  obtain ⟨-, hdecided, hread⟩ := no_frame_lost_or_duplicated splitPort
  exact ⟨hanswer, ((hdecided 10).bms _).mp hanswer, ((hread 10 _ hanswer).1.1 _).mp rfl⟩

end HostServices.Bms
