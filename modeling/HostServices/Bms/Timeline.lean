import HostServices.Bms.Monitor

/-!
# When each frame was read

The bytes of a frame may come in several reads; it is there once the last of them has returned.

- `timeline`: the frames of everything that was read, each with the instant of the read that
  completed it;
- `timeline_meet`: two readers that get to the same place agree from there on;
- `lastRealtime`: the frame that a measurement should show;
- `readUntil_timeline`: how a call of `read_until` moves along the timeline.
-/

namespace HostServices.Bms

/-! ## Frames and instants -/

/-- The frames that the reads complete, when `b` was left from before. -/
def timeline (b : List UInt8) : History → List (Frame × Instant)
  | [] => []
  | (i, chunk) :: history =>
    (framesIn (b ++ chunk)).map (·, i) ++ timeline (framer.drain (b ++ chunk)).2 history

/-- What the reads leave. -/
def leftover (b : List UInt8) : History → List UInt8
  | [] => b
  | (_, chunk) :: history => leftover (framer.drain (b ++ chunk)).2 history

theorem timeline_append (b : List UInt8) (history history' : History) :
    timeline b (history ++ history')
      = timeline b history ++ timeline (leftover b history) history' := by
  induction history generalizing b with
  | nil => rfl
  | cons read history ih =>
    rw [List.cons_append, timeline, timeline, ih, List.append_assoc, leftover]

theorem leftover_append (b : List UInt8) (history history' : History) :
    leftover b (history ++ history') = leftover (leftover b history) history' := by
  induction history generalizing b with
  | nil => rfl
  | cons read history ih => rw [List.cons_append, leftover, leftover, ih]

theorem drain_nil : (framer.drain []).2 = [] := by
  rw [Lib.Scanner.drain_of_stuck stuck_nil]

/-- Everything that was read. -/
def bytesRead (history : History) : List UInt8 := (history.map Prod.snd).flatten

@[simp] theorem frames_stamped (frames : List Frame) (i : Instant) :
    (frames.map (·, i)).map Prod.fst = frames := by
  rw [List.map_map]
  exact List.map_id _

/-- The timeline has the frames of the stream. -/
theorem timeline_frames {b : List UInt8} (hb : framer.Stuck b) (history : History) :
    (timeline b history).map Prod.fst = framesIn (b ++ bytesRead history) := by
  induction history generalizing b with
  | nil =>
    rw [bytesRead, List.map_nil, List.flatten_nil, List.append_nil, framesIn,
      Lib.Scanner.drain_of_stuck hb]
    rfl
  | cons read history ih =>
    obtain ⟨i, chunk⟩ := read
    have hbytes : bytesRead ((i, chunk) :: history) = chunk ++ bytesRead history := rfl
    rw [hbytes, ← List.append_assoc, framesIn_append, timeline, List.map_append,
      frames_stamped, ih (framer.run_drain _).2]

/-! ## Two readers that meet -/

/-- A reader that has to wait holds less than a frame. -/
theorem framesOf_of_waiting {b c y rest : List UInt8} {es fs : List Event}
    (hb : framer.Stuck b) (h : framer.Run (b ++ y) es rest) (hrest : c ++ y = rest)
    (hc : framer.Run c fs (framer.drain c).2) : framesOf fs = [] := by
  have hshort : c.length < 300 := by
    have hle := h.length_le
    rw [← hrest, List.length_append, List.length_append] at hle
    rcases framer_stuck_iff.mp hb with ⟨-, hlen⟩ | ⟨-, hlen⟩
    · exact Nat.lt_of_le_of_lt (Nat.le_of_add_le_add_right hle) hlen
    · omega
  have hdrain := hc.drain_eq_of_stuck (framer.run_drain c).2
  have hframes := framesIn_of_length_lt hshort
  rwa [framesIn, hdrain] at hframes

/-- Where one read takes a reader that is to get to `rest`: it has still to get there, or it
has passed there, and goes on from it as from what the read has brought of it. -/
theorem read_toward {b chunk y rest : List UInt8} {es : List Event}
    (h : framer.Run (b ++ chunk ++ y) es rest) :
    (∃ gs, es = (framer.drain (b ++ chunk)).1 ++ gs ∧
      framer.Run ((framer.drain (b ++ chunk)).2 ++ y) gs rest) ∨
    ∃ c gs, (framer.drain (b ++ chunk)).1 = es ++ gs ∧ c ++ y = rest ∧
      framer.drain c = (gs, (framer.drain (b ++ chunk)).2) := by
  obtain ⟨hrun, hstuck⟩ := framer.run_drain (b ++ chunk)
  rcases (hrun.append y).compare h with ⟨gs, hes, hgo⟩ | ⟨gs, hes, -⟩
  · exact .inl ⟨gs, hes, hgo⟩
  · rw [hes] at hrun
    obtain ⟨c, hfirst, hsecond⟩ := hrun.split
    exact .inr ⟨c, gs, hes, (hfirst.append y).unique h, hsecond.drain_eq_of_stuck hstuck⟩

/-- From `b` and from `b'` the reads complete the same frames at the same instants, but for the
frames `frames` and `frames'` that come first. -/
def Agree (b b' : List UInt8) (history : History) (frames frames' : List Frame) : Prop :=
  ∃ pre pre' common, timeline b history = pre ++ common ∧ timeline b' history = pre' ++ common ∧
    pre.map Prod.fst = frames ∧ pre'.map Prod.fst = frames'

section Agree

variable {b b' chunk rest : List UInt8} {i : Instant} {history : History}
  {frames frames' : List Frame} {es fs : List Event}

theorem Agree.symm (h : Agree b b' history frames frames') :
    Agree b' b history frames' frames := by
  obtain ⟨pre, pre', common, hpre, hpre', hframes, hframes'⟩ := h
  exact ⟨pre', pre, common, hpre', hpre, hframes', hframes⟩

theorem Agree.read
    (h : Agree (framer.drain (b ++ chunk)).2 (framer.drain (b' ++ chunk)).2 history frames
      frames') :
    Agree b b' ((i, chunk) :: history) (framesIn (b ++ chunk) ++ frames)
      (framesIn (b' ++ chunk) ++ frames') := by
  obtain ⟨pre, pre', common, hpre, hpre', rfl, rfl⟩ := h
  rw [Agree, timeline, timeline, hpre, hpre', ← List.append_assoc, ← List.append_assoc]
  exact ⟨_, _, common, rfl, rfl, by rw [List.map_append, frames_stamped],
    by rw [List.map_append, frames_stamped]⟩

/-- Two readers that get to the same place have the same frames from there on, and have each of
them from the same read: frames are of one length, so neither holds the other up. -/
theorem timeline_meet (history : History) (hb : framer.Stuck b) (hb' : framer.Stuck b')
    (h : framer.Run (b ++ bytesRead history) es rest)
    (h' : framer.Run (b' ++ bytesRead history) fs rest) :
    Agree b b' history (framesOf es) (framesOf fs) := by
  induction history generalizing b b' es fs rest with
  | nil =>
    have hnil : ∀ {b : List UInt8} {es : List Event}, framer.Stuck b →
        framer.Run (b ++ bytesRead []) es rest → framesOf es = [] := by
      intro b es hb h
      have hdrain := h.drain_eq.symm.trans (Lib.Scanner.drain_of_stuck (by
        rwa [bytesRead, List.map_nil, List.flatten_nil, List.append_nil]))
      rw [(List.append_eq_nil_iff.mp (congrArg Prod.fst hdrain)).1]
      rfl
    exact ⟨[], [], [], rfl, rfl, (hnil hb h).symm, (hnil hb' h').symm⟩
  | cons read history ih =>
    obtain ⟨i, chunk⟩ := read
    have hbytes : bytesRead ((i, chunk) :: history) = chunk ++ bytesRead history := rfl
    rw [hbytes, ← List.append_assoc] at h h'
    -- one reader has passed `rest`; the other, still waiting, has no frame before it is there
    have hahead : ∀ {b b' : List UInt8} {es fs gs gs' : List Event} {c : List UInt8},
        (framer.drain (b ++ chunk)).1 = es ++ gs → c ++ bytesRead history = rest →
        framer.drain c = (gs, (framer.drain (b ++ chunk)).2) →
        fs = (framer.drain (b' ++ chunk)).1 ++ gs' →
        framer.Run ((framer.drain (b' ++ chunk)).2 ++ bytesRead history) gs' rest →
        Agree b b' ((i, chunk) :: history) (framesOf es) (framesOf fs) := by
      intro b b' es fs gs gs' c hes hrest hdrain hfs hgo
      have hc : framer.Run c gs (framer.drain c).2 := by
        have hrun := (framer.run_drain c).1
        rwa [congrArg Prod.fst hdrain] at hrun
      have hnone := framesOf_of_waiting (framer.run_drain _).2 hgo hrest hc
      have hboth := hgo.trans (hrest ▸ hc.append (bytesRead history))
      rw [congrArg Prod.snd hdrain] at hboth
      have hread := (ih (framer.run_drain _).2 (framer.run_drain _).2 (.refl _) hboth).read (i := i)
      rwa [framesIn, framesIn, hes, framesOf_append, framesOf_append, hnone, framesOf_nil,
        List.append_nil, List.append_nil, List.append_nil, ← framesOf_append, ← hfs] at hread
    rcases read_toward h with ⟨gs, hes, hgo⟩ | ⟨c, gs, hes, hrest, hdrain⟩
    · rcases read_toward h' with ⟨gs', hfs, hgo'⟩ | ⟨c', gs', hfs, hrest', hdrain'⟩
      · have hread := (ih (framer.run_drain _).2 (framer.run_drain _).2 hgo hgo').read (i := i)
        rwa [framesIn, framesIn, ← framesOf_append, ← framesOf_append, ← hes, ← hfs] at hread
      · exact (hahead hfs hrest' hdrain' hes hgo).symm
    · rcases read_toward h' with ⟨gs', hfs, hgo'⟩ | ⟨c', gs', hfs, hrest', hdrain'⟩
      · exact hahead hes hrest hdrain hfs hgo'
      · -- both have passed it, and hold the same since
        have hc : c = c' := List.append_cancel_right (hrest.trans hrest'.symm)
        subst hc
        obtain ⟨hgs, hleft⟩ := Prod.mk.inj (hdrain.symm.trans hdrain')
        rw [Agree, timeline, timeline, framesIn, framesIn, hes, hfs, ← hleft, ← hgs,
          framesOf_append, framesOf_append, List.map_append, List.map_append,
          List.append_assoc, List.append_assoc]
        exact ⟨_, _, _, rfl, rfl, frames_stamped .., frames_stamped ..⟩

end Agree

/-- The last realtime frame, with the instant it was read. -/
def lastRealtime (frames : List (Frame × Instant)) : Option (Frame × Instant) :=
  (frames.filter fun e => e.1.isRealtime).getLast?

theorem lastRealtime_append (frames frames' : List (Frame × Instant)) :
    lastRealtime (frames ++ frames') = (lastRealtime frames').or (lastRealtime frames) := by
  rw [lastRealtime, List.filter_append, List.getLast?_append]
  rfl

theorem lastRealtime_eq_none {frames : List (Frame × Instant)}
    (h : ∀ e ∈ frames, e.1.isRealtime = false) : lastRealtime frames = none := by
  rw [lastRealtime, List.getLast?_eq_none_iff, List.filter_eq_nil_iff]
  exact fun e he => Bool.not_eq_true _ ▸ h e he

/-! ## Along the timeline -/

/-- The last of some reads, or `i` when there were none. -/
def latestOf (i : Instant) (history : History) : Instant :=
  (history.getLast?.map Prod.fst).getD i

theorem lastRead_append (history history' : History) :
    lastRead (history ++ history') = latestOf (lastRead history) history' := by
  rw [lastRead, latestOf, List.getLast?_append]
  cases history'.getLast? <;> rfl

theorem latestOf_cons (i : Instant) (read : Instant × List UInt8) (history : History) :
    latestOf i (read :: history) = latestOf read.1 history := by
  rw [latestOf, latestOf, List.getLast?_cons]
  cases history.getLast? <;> rfl

/-- Taking frames off a buffer. -/
theorem takeAccepted_frames (accept : Frame → Bool) (r : FrameReader) :
    framesIn r.buffer = (takeAccepted accept r).2.1 ++
      framesIn (takeAccepted accept r).2.2.buffer ∧
    (framer.drain r.buffer).2 = (framer.drain (takeAccepted accept r).2.2.buffer).2 := by
  obtain ⟨⟨log, hrun, -, hframes⟩, -⟩ := takeAccepted_spec accept r
  rw [framesIn, hrun.drain_eq, framesOf_append, hframes]
  exact ⟨rfl, rfl⟩

theorem framesIn_of_stuck {b : List UInt8} (h : framer.Stuck b) : framesIn b = [] := by
  rw [framesIn, Lib.Scanner.drain_of_stuck h]
  rfl

theorem drain_frames (r : FrameReader) : r.drain.1 = framesIn r.buffer := by
  obtain ⟨log, hrun, -, hframes, hstuck⟩ := drain_run r
  rw [framesIn, hrun.drain_eq_of_stuck hstuck, hframes]

/-- A call that took up the timeline at `frames`, with the reads `history`: it stepped over
frames it does not accept, then took the one it accepted, if any, and that one and those that are
left came with the last read. -/
structure Moved (accept : Frame → Bool) (i : Instant) (frames : List (Frame × Instant))
    (b : List UInt8) (history : History) (o : Outcome) : Prop where
  frames : ∃ skipped, frames ++ timeline b history
      = skipped ++ (o.accepted.toList ++ framesIn o.reader.buffer).map (·, latestOf i history) ∧
    o.seen = skipped.map Prod.fst ++ o.accepted.toList ∧ ∀ e ∈ skipped, accept e.1 = false
  accepts : ∀ f, o.accepted = some f → accept f = true
  leftover : leftover b history = (framer.drain o.reader.buffer).2

/-- The frames of a buffer that were there at `i`, when one of them is accepted. -/
theorem taken_frames {accept : Frame → Bool} {f : Frame} {seen : List Frame}
    {r : FrameReader} {b : List UInt8} (hverdict : Verdict accept (some f) seen r)
    (hframes : framesIn b = seen ++ framesIn r.buffer) (i : Instant) :
    ∃ skipped, (framesIn b).map (·, i) = skipped ++ ([f] ++ framesIn r.buffer).map (·, i) ∧
      seen = skipped.map Prod.fst ++ [f] ∧ ∀ e ∈ skipped, accept e.1 = false := by
  obtain ⟨-, dropped, rfl, hdropped⟩ := hverdict
  refine ⟨dropped.map (·, i), ?_, ?_, fun e he => ?_⟩
  · rw [hframes, List.append_assoc, List.map_append]
  · rw [frames_stamped]
  · obtain ⟨d, hd, rfl⟩ := List.mem_map.mp he
    exact hdropped d hd

/-- Stepping over the frames of one more read. -/
theorem stepped_over {accept : Frame → Bool} {seen taken found : List Frame}
    {skipped : List (Frame × Instant)} (hseen : ∀ f ∈ seen, accept f = false)
    (h : taken = skipped.map Prod.fst ++ found ∧ ∀ e ∈ skipped, accept e.1 = false)
    (i : Instant) :
    seen ++ taken = (seen.map (·, i) ++ skipped).map Prod.fst ++ found ∧
      ∀ e ∈ seen.map (·, i) ++ skipped, accept e.1 = false := by
  obtain ⟨rfl, hskipped⟩ := h
  refine ⟨by rw [List.map_append, frames_stamped, List.append_assoc], fun e he => ?_⟩
  rcases List.mem_append.mp he with he | he
  · obtain ⟨f, hf, rfl⟩ := List.mem_map.mp he
    exact hseen f hf
  · exact hskipped e he

/-- A call that returns without a read. -/
theorem Moved.here {accept : Frame → Bool} {i : Instant} {r : FrameReader}
    (hstuck : framer.Stuck r.buffer) {o : Outcome} (hnone : o.accepted = none)
    (hreader : o.reader = r) (hseen : o.seen = []) : Moved accept i [] r.buffer [] o where
  frames := by
    rw [hnone, hreader, hseen, framesIn_of_stuck hstuck]
    exact ⟨[], rfl, rfl, List.forall_mem_nil _⟩
  accepts f hf := by
    rw [hnone] at hf
    cases hf
  leftover := by
    rw [hreader, Lib.Scanner.drain_of_stuck hstuck]
    rfl

/-- A call that goes on after a read none of whose frames it accepts. -/
theorem Moved.step {accept : Frame → Bool} {i j : Instant} {b b' chunk : List UInt8}
    {history : History} {o o' : Outcome} {seen : List Frame}
    (h : Moved accept j [] b' history o) (hframes : framesIn (b ++ chunk) = seen)
    (hrest : (framer.drain (b ++ chunk)).2 = b') (hseen : ∀ f ∈ seen, accept f = false)
    (hresult : o'.result = o.result) (hreader : o'.reader = o.reader)
    (htaken : o'.seen = seen ++ o.seen) :
    Moved accept i [] b ((j, chunk) :: history) o' := by
  have haccepted : o'.accepted = o.accepted := by
    rw [Outcome.accepted, hresult]
    rfl
  refine ⟨?_, ?_, ?_⟩
  · obtain ⟨skipped, hskipped, hdropped⟩ := h.frames
    rw [htaken, haccepted, hreader]
    refine ⟨seen.map (·, j) ++ skipped, ?_, stepped_over hseen hdropped j⟩
    rw [latestOf_cons, List.append_assoc, ← hskipped, timeline, hframes,
      hrest]
    rfl
  · rw [haccepted]
    exact h.accepts
  · rw [Bms.leftover, hrest, hreader]
    exact h.leftover

theorem readLoop_timeline (accept : Frame → Bool) (deadline i : Instant) (r : FrameReader)
    (reads : List (Instant × Except String (List UInt8))) (clock : List Instant)
    (hstuck : framer.Stuck r.buffer) :
    ∃ used rest, reads = used ++ rest ∧
      (readLoop accept deadline r (reads.map Prod.snd) clock).line.reads = rest.map Prod.snd ∧
      Moved accept i [] r.buffer (used.filterMap World.chunk?)
        (readLoop accept deadline r (reads.map Prod.snd) clock) := by
  -- along the readings of the clock, as the loop goes; the reader holds no whole frame
  induction clock generalizing r reads i with
  | nil =>
    rw [readLoop.eq_def]
    exact ⟨[], reads, rfl, rfl, .here hstuck rfl rfl rfl⟩
  | cons now clock ih =>
    by_cases hnow : now < deadline
    · cases reads with
      | nil =>
        rw [List.map_nil, readLoop, if_pos hnow]
        exact ⟨[], [], rfl, rfl, .here hstuck rfl rfl rfl⟩
      | cons read reads =>
        obtain ⟨j, e | chunk⟩ := read
        · rw [List.map_cons, readLoop, if_pos hnow]
          exact ⟨[(j, .error e)], reads, rfl, rfl, .here hstuck rfl rfl rfl⟩
        · rw [List.map_cons, readLoop, if_pos hnow]
          by_cases hempty : chunk.length = 0
          · -- an idle line: nothing is completed
            have hchunk : chunk = [] := List.eq_nil_of_length_eq_zero hempty
            subst hchunk
            simp only [List.length_nil, if_true]
            obtain ⟨used, rest, rfl, hrest, hmoved⟩ := ih j r reads hstuck
            refine ⟨(j, .ok []) :: used, rest, rfl, hrest, ?_⟩
            have hnone : framesIn (r.buffer ++ []) = [] := by
              rw [List.append_nil]
              exact framesIn_of_stuck hstuck
            have hsame : (framer.drain (r.buffer ++ [])).2 = r.buffer := by
              rw [List.append_nil, Lib.Scanner.drain_of_stuck hstuck]
            exact hmoved.step hnone hsame (List.forall_mem_nil _) rfl rfl rfl
          · simp only [if_neg hempty]
            obtain ⟨-, hverdict⟩ := takeAccepted_spec accept (r.feed chunk)
            obtain ⟨hframes, hdrained⟩ := takeAccepted_frames accept (r.feed chunk)
            have hbuffer : (r.feed chunk).buffer = r.buffer ++ chunk := rfl
            rw [hbuffer] at hframes hdrained
            generalize takeAccepted accept (r.feed chunk) = taken at hverdict hframes hdrained
            obtain ⟨found, seen, r'⟩ := taken
            cases found with
            | none =>
              obtain ⟨used, rest, rfl, hrest, hmoved⟩ := ih j r' reads hverdict.2
              refine ⟨(j, .ok chunk) :: used, rest, rfl, hrest, ?_⟩
              refine hmoved.step ?_ ?_ hverdict.1 rfl rfl rfl
              · rw [hframes, framesIn_of_stuck hverdict.2, List.append_nil]
              · rw [hdrained, Lib.Scanner.drain_of_stuck hverdict.2]
            | some f =>
              refine ⟨[(j, .ok chunk)], reads, rfl, rfl, ?_, fun g hg => ?_, hdrained⟩
              · obtain ⟨skipped, hskipped, hdropped⟩ := taken_frames hverdict hframes j
                refine ⟨skipped, ?_, hdropped⟩
                rw [List.nil_append]
                exact (List.append_nil _).trans hskipped
              · cases hg
                exact hverdict.1
    · rw [readLoop.eq_def]
      simp only [if_neg hnow]
      exact ⟨[], reads, rfl, rfl, .here hstuck rfl rfl rfl⟩

/-- How a call of `readUntil` moves along the timeline, on any reader: the whole frames that it
finds in the buffer came with the read at `i`. -/
theorem readUntil_timeline (accept : Frame → Bool) (deadline i : Instant) (r : FrameReader)
    (w : World) :
    ∃ used rest, w.reads = used ++ rest ∧
      (readUntil w.line r deadline accept).line.reads = rest.map Prod.snd ∧
      Moved accept i ((framesIn r.buffer).map (·, i)) (framer.drain r.buffer).2
        (used.filterMap World.chunk?) (readUntil w.line r deadline accept) := by
  rw [readUntil]
  obtain ⟨-, hverdict⟩ := takeAccepted_spec accept r
  obtain ⟨hframes, hdrained⟩ := takeAccepted_frames accept r
  generalize takeAccepted accept r = taken at hverdict hframes hdrained
  obtain ⟨found, seen, r'⟩ := taken
  cases found with
  | some f =>
    refine ⟨[], w.reads, rfl, rfl, ?_, fun g hg => ?_, hdrained⟩
    · obtain ⟨skipped, hskipped, hdropped⟩ := taken_frames hverdict hframes i
      exact ⟨skipped, (List.append_nil _).trans hskipped, hdropped⟩
    · cases hg
      exact hverdict.1
  | none =>
    -- nothing acceptable was buffered, so the loop starts on a reader without whole frames
    obtain ⟨used, rest, hreads, hrest, hmoved⟩ :=
      readLoop_timeline accept deadline i r' w.reads w.clock hverdict.2
    refine ⟨used, rest, hreads, hrest, ?_, hmoved.accepts, ?_⟩
    · obtain ⟨skipped, hskipped, hdropped⟩ := hmoved.frames
      rw [hdrained, Lib.Scanner.drain_of_stuck hverdict.2, hframes,
        framesIn_of_stuck hverdict.2, List.append_nil]
      refine ⟨seen.map (·, i) ++ skipped, ?_, stepped_over hverdict.1 hdropped i⟩
      rw [List.append_assoc]
      exact congrArg _ hskipped
    · rw [hdrained, Lib.Scanner.drain_of_stuck hverdict.2]
      exact hmoved.leftover

end HostServices.Bms
