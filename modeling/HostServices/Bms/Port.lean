import HostServices.Bms.Framing

/-!
# The read loop (`bms-monitoring/src/port.rs`)

`read_until` is the one blocking loop of the producer: it pumps bytes from the
port into a reader until a frame is accepted or the deadline passes. What the
outside contributes, the answers of `Instant::now` and of `Transport::read_some`
in the order they are asked for, is the `Line`; a call that has used it up is
still waiting.

- `readUntil`: the source's function, over a line;
- `Outcome`: what a call returned, together with the bytes it read and every
  frame it took from the reader, accepted or dropped;
- `serve`: one transport and one reader over a sequence of calls;
- `readUntil_spec`, `serve_tracks`: what one call and any sequence of them leave of
  the log and the buffer, on every line;
- `Line.before`, `readUntil_result`: the reads that come before a deadline, and when
  a call on a fresh reader returns and with what;
- `Line.steppedOver`, `readUntil_seen`: which frames it takes until then.
-/

namespace HostServices.Bms

/-- A reading of the clock, in the unit of the durations. -/
abbrev Instant := Nat

/-- What the outside gives: the answers of `Instant::now`, and those of
`read_some` (an empty chunk is `Ok(0)`, "nothing yet"). -/
structure Line where
  clock : List Instant
  reads : List (Except String (List UInt8))
  deriving Repr

/-- The bytes a stretch of reads delivered. -/
def bytesOf : List (Except String (List UInt8)) → List UInt8
  | [] => []
  | .ok chunk :: reads => chunk ++ bytesOf reads
  | .error _ :: reads => bytesOf reads

/-- `while let Some(frame) = reader.next_frame() { if accept(&frame) { .. } }`:
the accepted frame if there is one, every frame taken, and the reader after. -/
def takeAccepted (accept : Frame → Bool) (r : FrameReader) :
    Option Frame × List Frame × FrameReader :=
  match h : r.nextFrame with
  | (none, r') => (none, [], r')
  | (some f, r') =>
    have := nextFrame_length_lt h
    if accept f then (some f, [f], r')
    else
      let rest := takeAccepted accept r'
      (rest.1, f :: rest.2.1, rest.2.2)
termination_by r.buffer.length

/-- What a call of `read_until` did. `result` is `none` while the call has not
returned; `seen` lists the frames it accepted or dropped, and `bytes` what it
read from the port. -/
structure Outcome where
  result : Option (Except String (Option Frame))
  seen : List Frame
  bytes : List UInt8
  reader : FrameReader
  line : Line

/-- `while Instant::now() < deadline { .. }`. -/
def readLoop (accept : Frame → Bool) (deadline : Instant) (r : FrameReader)
    (reads : List (Except String (List UInt8))) : List Instant → Outcome
  | [] => ⟨none, [], [], r, ⟨[], reads⟩⟩
  | now :: clock =>
    if now < deadline then
      match reads with
      | [] => ⟨none, [], [], r, ⟨clock, []⟩⟩
      | .error e :: reads => ⟨some (.error e), [], [], r, ⟨clock, reads⟩⟩
      | .ok chunk :: reads =>
        if chunk.length = 0 then readLoop accept deadline r reads clock
        else
          match takeAccepted accept (r.feed chunk) with
          | (some f, seen, r') => ⟨some (.ok (some f)), seen, chunk, r', ⟨clock, reads⟩⟩
          | (none, seen, r') =>
            let rest := readLoop accept deadline r' reads clock
            { rest with seen := seen ++ rest.seen, bytes := chunk ++ rest.bytes }
    else ⟨some (.ok none), [], [], r, ⟨clock, reads⟩⟩

/-- Pump bytes into `reader` until a frame `accept`s, or the deadline passes. -/
def readUntil (line : Line) (r : FrameReader) (deadline : Instant)
    (accept : Frame → Bool) : Outcome :=
  -- whatever arrived before this call was made
  match takeAccepted accept r with
  | (some f, seen, r') => ⟨some (.ok (some f)), seen, [], r', line⟩
  | (none, seen, r') =>
    let rest := readLoop accept deadline r' line.reads line.clock
    { rest with seen := seen ++ rest.seen }

/-! ## What one call does -/

/-- The answer of a call in terms of the frames it took: it accepts the last
one, or it accepts none and leaves no whole frame in the buffer. -/
def Verdict (accept : Frame → Bool) (found : Option Frame) (seen : List Frame)
    (r : FrameReader) : Prop :=
  match found with
  | some f => accept f = true ∧
      ∃ dropped, seen = dropped ++ [f] ∧ ∀ d ∈ dropped, accept d = false
  | none => (∀ d ∈ seen, accept d = false) ∧ framer.Stuck r.buffer

theorem Verdict.append {accept : Frame → Bool} {found : Option Frame}
    {seen dropped : List Frame} {r : FrameReader} (h : Verdict accept found seen r)
    (hd : ∀ d ∈ dropped, accept d = false) :
    Verdict accept found (dropped ++ seen) r := by
  cases found with
  | some f =>
    obtain ⟨hacc, dropped', rfl, hd'⟩ := h
    refine ⟨hacc, dropped ++ dropped', by rw [List.append_assoc], fun d hmem => ?_⟩
    exact (List.mem_append.mp hmem).elim (hd d) (hd' d)
  | none =>
    refine ⟨fun d hmem => ?_, h.2⟩
    exact (List.mem_append.mp hmem).elim (hd d) (h.1 d)

/-- What the search for an accepted frame consumes, and what it says. -/
theorem takeAccepted_spec (accept : Frame → Bool) (r : FrameReader) :
    (∃ log, framer.Run r.buffer log (takeAccepted accept r).2.2.buffer ∧
      Tally r log (takeAccepted accept r).2.2 ∧
      framesOf log = (takeAccepted accept r).2.1) ∧
    Verdict accept (takeAccepted accept r).1 (takeAccepted accept r).2.1
      (takeAccepted accept r).2.2 := by
  fun_induction takeAccepted accept r with
  | case1 r r' h =>
    obtain ⟨log, hrun, htally, hframes, hstuck⟩ := nextFrame_run r
    rw [h] at hrun htally hframes hstuck
    exact ⟨⟨log, hrun, htally, hframes⟩, fun d hd => (nomatch hd), hstuck rfl⟩
  | case2 r f r' h _ hacc =>
    obtain ⟨log, hrun, htally, hframes, -⟩ := nextFrame_run r
    rw [h] at hrun htally hframes
    exact ⟨⟨log, hrun, htally, hframes⟩, hacc, [], rfl, fun d hd => (nomatch hd)⟩
  | case3 r f r' h _ hacc rest ih =>
    obtain ⟨log, hrun, htally, hframes, -⟩ := nextFrame_run r
    rw [h] at hrun htally hframes
    obtain ⟨⟨log', hrun', htally', hframes'⟩, hverdict⟩ := ih
    refine ⟨⟨log ++ log', hrun.trans hrun', htally.trans htally', ?_⟩, ?_⟩
    · rw [framesOf_append, hframes, hframes']
      rfl
    · have hdropped : ∀ d ∈ [f], accept d = false := by
        intro d hd
        rw [List.mem_singleton.mp hd]
        exact Bool.eq_false_iff.mpr hacc
      exact hverdict.append hdropped

theorem Tracks.takeAccepted {fed : List UInt8} {log : List Event} {r : FrameReader}
    (h : Tracks fed log r) (accept : Frame → Bool) :
    ∃ l, Tracks fed (log ++ l) (takeAccepted accept r).2.2 ∧
      framesOf l = (Bms.takeAccepted accept r).2.1 := by
  obtain ⟨⟨l, hrun, htally, hframes⟩, -⟩ := takeAccepted_spec accept r
  exact ⟨l, h.advance hrun htally, hframes⟩

/-- The frame a returned call accepted, if any. -/
def Outcome.accepted (o : Outcome) : Option Frame :=
  match o.result with
  | some (.ok found) => found
  | _ => none

/-- Which answers of the outside a call used: the reads `used`, each made right
after one of the clock readings `ticks`, all of them before the deadline; a call
that gave up did so on a reading at or past the deadline. -/
structure Paced (deadline : Instant) (line : Line) (o : Outcome)
    (ticks : List Instant) (used : List (Except String (List UInt8))) : Prop where
  reads : line.reads = used ++ o.line.reads
  bytes : o.bytes = bytesOf used
  length : ticks.length = used.length
  early : ∀ t ∈ ticks, t < deadline
  clock : match o.result with
    | none => True
    | some (.ok none) => ∃ t, deadline ≤ t ∧ line.clock = ticks ++ t :: o.line.clock
    | some _ => line.clock = ticks ++ o.line.clock

/-- A call that went on after one read used that read and its clock reading. -/
theorem Paced.cons {deadline now : Instant} {clock : List Instant}
    {read : Except String (List UInt8)} {reads : List (Except String (List UInt8))}
    {o o' : Outcome} {ticks : List Instant} {used : List (Except String (List UInt8))}
    (h : Paced deadline ⟨clock, reads⟩ o ticks used) (hnow : now < deadline)
    (hresult : o'.result = o.result) (hline : o'.line = o.line)
    (hbytes : o'.bytes = bytesOf [read] ++ o.bytes) :
    Paced deadline ⟨now :: clock, read :: reads⟩ o' (now :: ticks) (read :: used) where
  reads := by
    rw [hline, List.cons_append, ← h.reads]
  bytes := by
    rw [hbytes, h.bytes]
    cases read <;> simp [bytesOf]
  length := congrArg (· + 1) h.length
  early t ht := (List.mem_cons.mp ht).elim (fun heq => heq ▸ hnow) (h.early t)
  clock := by
    have hclock := h.clock
    rw [hresult, hline]
    revert hclock
    split
    · exact fun _ => trivial
    · rintro ⟨t, ht, hcl⟩
      exact ⟨t, ht, congrArg (now :: ·) hcl⟩
    · exact congrArg (now :: ·)

/-- One call of the loop, on a reader that holds no whole frame: the frames it
takes are the next ones of everything fed, its answer is about those frames, and
it reads only before the deadline. -/
theorem readLoop_spec (accept : Frame → Bool) (deadline : Instant) {fed : List UInt8}
    {log : List Event} {r : FrameReader} (reads : List (Except String (List UInt8)))
    (clock : List Instant) (h : Tracks fed log r) (hstuck : framer.Stuck r.buffer) :
    (∃ l, Tracks (fed ++ (readLoop accept deadline r reads clock).bytes) (log ++ l)
        (readLoop accept deadline r reads clock).reader ∧
      framesOf l = (readLoop accept deadline r reads clock).seen) ∧
    Verdict accept (readLoop accept deadline r reads clock).accepted
      (readLoop accept deadline r reads clock).seen
      (readLoop accept deadline r reads clock).reader ∧
    ∃ ticks used, Paced deadline ⟨clock, reads⟩
      (readLoop accept deadline r reads clock) ticks used := by
  have hself : ∃ l, Tracks (fed ++ []) (log ++ l) r ∧ framesOf l = [] :=
    ⟨[], by simpa using h, rfl⟩
  have hnone : Verdict accept none [] r := ⟨fun d hd => (nomatch hd), hstuck⟩
  induction clock generalizing fed log r reads with
  | nil =>
    rw [readLoop.eq_def]
    exact ⟨hself, hnone, [], [], rfl, rfl, rfl, fun t ht => (nomatch ht), trivial⟩
  | cons now clock ih =>
    by_cases hnow : now < deadline
    · cases reads with
      | nil =>
        rw [readLoop, if_pos hnow]
        exact ⟨hself, hnone, [], [], rfl, rfl, rfl, fun t ht => (nomatch ht), trivial⟩
      | cons read reads =>
        cases read with
        | error e =>
          rw [readLoop, if_pos hnow]
          exact ⟨hself, hnone, [now], [.error e], rfl, rfl, rfl, by simpa using hnow, rfl⟩
        | ok chunk =>
          rw [readLoop, if_pos hnow]
          by_cases hempty : chunk.length = 0
          · -- an idle line: ask again
            have hchunk : chunk = [] := List.eq_nil_of_length_eq_zero hempty
            subst hchunk
            simp only [List.length_nil, if_true]
            obtain ⟨htracks, hverdict, ticks, used, hpaced⟩ :=
              ih reads h hstuck hself hnone
            exact ⟨htracks, hverdict, _, _, hpaced.cons hnow rfl rfl rfl⟩
          · simp only [if_neg hempty]
            obtain ⟨l, htracks, hframes⟩ := (h.feed chunk).takeAccepted accept
            obtain ⟨-, hverdict⟩ := takeAccepted_spec accept (r.feed chunk)
            generalize htaken : takeAccepted accept (r.feed chunk) = taken
              at htracks hframes hverdict
            obtain ⟨found, seen, r'⟩ := taken
            cases found with
            | some f =>
              refine ⟨⟨l, htracks, hframes⟩, hverdict, [now], [.ok chunk], rfl, ?_, rfl,
                by simpa using hnow, rfl⟩
              simp [bytesOf]
            | none =>
              obtain ⟨⟨l', htracks', hframes'⟩, hverdict', ticks, used, hpaced⟩ :=
                ih reads htracks hverdict.2 ⟨[], by simpa using htracks, rfl⟩
                  ⟨fun d hd => (nomatch hd), hverdict.2⟩
              refine ⟨⟨l ++ l', ?_, ?_⟩, hverdict'.append hverdict.1, _, _,
                hpaced.cons hnow rfl rfl ?_⟩
              · simpa [List.append_assoc] using htracks'
              · rw [framesOf_append, hframes, hframes']
              · simp [bytesOf]
    · rw [readLoop.eq_def]
      simp only [if_neg hnow]
      exact ⟨hself, hnone, [], [], rfl, rfl, rfl, fun t ht => (nomatch ht),
        now, Nat.le_of_not_lt hnow, rfl⟩

/-- **What a call of `readUntil` does**, on any reader and any line. -/
theorem readUntil_spec (accept : Frame → Bool) (deadline : Instant) {fed : List UInt8}
    {log : List Event} {r : FrameReader} (line : Line) (h : Tracks fed log r) :
    (∃ l, Tracks (fed ++ (readUntil line r deadline accept).bytes) (log ++ l)
        (readUntil line r deadline accept).reader ∧
      framesOf l = (readUntil line r deadline accept).seen) ∧
    Verdict accept (readUntil line r deadline accept).accepted
      (readUntil line r deadline accept).seen
      (readUntil line r deadline accept).reader ∧
    ∃ ticks used, Paced deadline line (readUntil line r deadline accept) ticks used := by
  obtain ⟨l, htracks, hframes⟩ := h.takeAccepted accept
  obtain ⟨-, hverdict⟩ := takeAccepted_spec accept r
  rw [readUntil]
  generalize takeAccepted accept r = taken at htracks hframes hverdict
  obtain ⟨found, seen, r'⟩ := taken
  cases found with
  | some f =>
    -- answered from the buffer, without a read
    exact ⟨⟨l, by simpa using htracks, hframes⟩, hverdict, [], [], rfl, rfl, rfl,
      fun t ht => (nomatch ht), rfl⟩
  | none =>
    obtain ⟨⟨l', htracks', hframes'⟩, hverdict', ticks, used, hpaced⟩ :=
      readLoop_spec accept deadline line.reads line.clock htracks hverdict.2
    refine ⟨⟨l ++ l', ?_, ?_⟩, hverdict'.append hverdict.1, ticks, used, ?_⟩
    · simpa [List.append_assoc] using htracks'
    · rw [framesOf_append, hframes, hframes']
    · exact ⟨hpaced.reads, hpaced.bytes, hpaced.length, hpaced.early, hpaced.clock⟩

/-! ## When a call returns -/

/-- The reads that come before `deadline`: each is made right after a clock reading,
and the first clock reading at or past the deadline is the end of them. -/
def Line.before (line : Line) (deadline : Instant) : List (Except String (List UInt8)) :=
  ((line.clock.zip line.reads).takeWhile fun tick => tick.1 < deadline).map Prod.snd

/-- The clock reading behind the reads before `deadline` has reached it. -/
def Line.Expired (line : Line) (deadline : Instant) : Prop :=
  ∃ t ∈ line.clock[(line.before deadline).length]?, deadline ≤ t

instance decidableExpired (line : Line) (deadline : Instant) :
    Decidable (line.Expired deadline) :=
  inferInstanceAs (Decidable (∃ t ∈ line.clock[(line.before deadline).length]?, deadline ≤ t))

/-- The first failure in a stretch of reads. -/
def failure (reads : List (Except String (List UInt8))) : Option String :=
  reads.findSome? fun
    | .ok _ => none
    | .error e => some e

/-- What a stretch of reads delivers up to its first failure. -/
def heard (reads : List (Except String (List UInt8))) : List UInt8 :=
  bytesOf (reads.takeWhile Except.isOk)

section Listening

variable {deadline now : Instant} {clock : List Instant}
  {reads : List (Except String (List UInt8))} {read : Except String (List UInt8)}

@[simp] theorem before_no_clock : Line.before ⟨[], reads⟩ deadline = [] := rfl

@[simp] theorem before_no_reads : Line.before ⟨clock, []⟩ deadline = [] := by
  simp [Line.before]

theorem before_cons (hnow : now < deadline) :
    Line.before ⟨now :: clock, read :: reads⟩ deadline
      = read :: Line.before ⟨clock, reads⟩ deadline := by
  simp [Line.before, hnow]

theorem before_late (hnow : ¬ now < deadline) :
    Line.before ⟨now :: clock, reads⟩ deadline = [] := by
  cases reads <;> simp [Line.before, hnow]

theorem expired_no_clock : ¬ Line.Expired ⟨[], reads⟩ deadline := by
  simp [Line.Expired]

theorem expired_no_reads (hnow : now < deadline) :
    ¬ Line.Expired ⟨now :: clock, []⟩ deadline := by
  simpa [Line.Expired] using hnow

theorem expired_cons (hnow : now < deadline) :
    Line.Expired ⟨now :: clock, read :: reads⟩ deadline
      ↔ Line.Expired ⟨clock, reads⟩ deadline := by
  rw [Line.Expired, before_cons hnow]
  exact Iff.rfl

theorem expired_late (hnow : ¬ now < deadline) :
    Line.Expired ⟨now :: clock, reads⟩ deadline := by
  rw [Line.Expired, before_late hnow]
  exact ⟨now, rfl, Nat.le_of_not_lt hnow⟩

@[simp] theorem failure_nil : failure [] = none := rfl

@[simp] theorem failure_error (e : String) : failure (.error e :: reads) = some e := rfl

@[simp] theorem failure_ok (chunk : List UInt8) :
    failure (.ok chunk :: reads) = failure reads := rfl

@[simp] theorem heard_nil : heard [] = [] := rfl

@[simp] theorem heard_error (e : String) : heard (.error e :: reads) = [] := rfl

@[simp] theorem heard_ok (chunk : List UInt8) :
    heard (.ok chunk :: reads) = chunk ++ heard reads := rfl

end Listening

theorem stuck_nil : framer.Stuck [] := framer_stuck_iff.mpr (.inr (by decide))

theorem framesIn_nil : framesIn [] = [] := by
  rw [framesIn, Lib.Scanner.drain_of_stuck stuck_nil]
  rfl

/-- A fresh reader has nothing to give. -/
theorem takeAccepted_default (accept : Frame → Bool) : takeAccepted accept {} = (none, [], {}) := by
  have hnone : FrameReader.nextFrame {} = (none, {}) := by decide +kernel
  rw [takeAccepted]
  split
  · next r h =>
    rw [hnone] at h
    cases h
    rfl
  · next f r h =>
    rw [hnone] at h
    cases h

theorem verdict_default (accept : Frame → Bool) : Verdict accept none [] {} :=
  ⟨List.forall_mem_nil _, stuck_nil⟩

/-- Bytes that arrive later do not change which frame is the first of its kind. -/
theorem find?_framesIn_append {accept : Frame → Bool} {bytes : List UInt8} {f : Frame}
    (h : (framesIn bytes).find? accept = some f) (more : List UInt8) :
    (framesIn (bytes ++ more)).find? accept = some f := by
  rw [framesIn, Lib.Scanner.drain_append, framesOf_append, List.find?_append]
  rw [framesIn] at h
  rw [h, Option.some_or]

/-- The frame a call accepted is the first one of its kind in everything the reader
was fed, if the frames taken before it were none of that kind. -/
theorem Tracks.find?_framesIn {accept : Frame → Bool} {fed : List UInt8} {log : List Event}
    {r : FrameReader} {found : Option Frame} (h : Tracks fed log r)
    (hv : Verdict accept found (framesOf log) r) :
    (framesIn fed).find? accept = found := by
  cases found with
  | some f =>
    obtain ⟨hacc, dropped, hseen, hdropped⟩ := hv
    rw [← h.drain.1, hseen, List.append_assoc, List.find?_append,
      List.find?_eq_none.mpr fun d hd => by rw [hdropped d hd]; exact Bool.false_ne_true]
    simp [hacc]
  | none =>
    have hlog := (h.eq_settled hv.2).1
    rw [framesIn, ← hlog]
    refine List.find?_eq_none.mpr fun d hd => ?_
    rw [hv.1 d hd]
    exact Bool.false_ne_true

/-- What a listener returns: the frame it wants as soon as that has come, else the
failure of a read, else nothing once the deadline has come. -/
def Line.answer (line : Line) (deadline : Instant) (found : Option Frame) :
    Option (Except String (Option Frame)) :=
  match found, failure (line.before deadline) with
  | some f, _ => some (.ok (some f))
  | none, some e => some (.error e)
  | none, none => if line.Expired deadline then some (.ok none) else none

/-- **When the loop returns**, on a reader that has taken no frame of the kind wanted
and holds no whole one: the induction is on the clock readings. -/
theorem readLoop_result (accept : Frame → Bool) (deadline : Instant) {fed : List UInt8}
    {log : List Event} {r : FrameReader} (reads : List (Except String (List UInt8)))
    (clock : List Instant) (h : Tracks fed log r) (hv : Verdict accept none (framesOf log) r) :
    (readLoop accept deadline r reads clock).result
      = Line.answer ⟨clock, reads⟩ deadline
          ((framesIn (fed ++ heard (Line.before ⟨clock, reads⟩ deadline))).find? accept) := by
  have hfed := h.find?_framesIn hv
  induction clock generalizing fed log r reads with
  | nil =>
    rw [readLoop.eq_def]
    simp [Line.answer, hfed, expired_no_clock]
  | cons now clock ih =>
    by_cases hnow : now < deadline
    · cases reads with
      | nil =>
        rw [readLoop, if_pos hnow]
        simp [Line.answer, hfed, expired_no_reads hnow]
      | cons read reads =>
        cases read with
        | error e =>
          rw [readLoop, if_pos hnow]
          simp only [Line.answer, before_cons hnow, heard_error, failure_error,
            List.append_nil, hfed]
        | ok chunk =>
          rw [readLoop, if_pos hnow]
          simp only [Line.answer, before_cons hnow, heard_ok, failure_ok, expired_cons hnow]
          by_cases hempty : chunk.length = 0
          · -- an idle line: ask again
            rw [if_pos hempty, ih reads h hv hfed, List.eq_nil_of_length_eq_zero hempty,
              List.nil_append]
            rfl
          · obtain ⟨l, htracks, hframes⟩ := (h.feed chunk).takeAccepted accept
            obtain ⟨-, hverdict⟩ := takeAccepted_spec accept (r.feed chunk)
            simp only [if_neg hempty]
            generalize takeAccepted accept (r.feed chunk) = taken at htracks hframes hverdict
            obtain ⟨found, seen, r'⟩ := taken
            have hall : Verdict accept found (framesOf (log ++ l)) r' := by
              rw [framesOf_append, hframes]
              exact hverdict.append hv.1
            have hfind := htracks.find?_framesIn hall
            rw [← List.append_assoc]
            cases found with
            | some f => rw [find?_framesIn_append hfind]
            | none => exact ih reads htracks hall hfind
    · rw [readLoop.eq_def]
      simp [Line.answer, if_neg hnow, before_late hnow, hfed, expired_late hnow]

/-- **When a call on a fresh reader returns, and with what**: its answer is decided by
the reads that come before its deadline. -/
theorem readUntil_result (accept : Frame → Bool) (deadline : Instant) (line : Line) :
    (readUntil line {} deadline accept).result
      = line.answer deadline ((framesIn (heard (line.before deadline))).find? accept) := by
  rw [readUntil, takeAccepted_default]
  exact readLoop_result accept deadline line.reads line.clock tracks_default
    (verdict_default accept)

/-! ## What a call steps over -/

/-- The frames that a call on a fresh reader steps over: those of the reads that come before its
deadline, up to the first one that it accepts. -/
def Line.steppedOver (line : Line) (deadline : Instant) (accept : Frame → Bool) : List Frame :=
  (framesIn (heard (line.before deadline))).takeWhile fun f => !accept f

/-- Up to a frame that was accepted, whatever comes behind it. -/
theorem Tracks.takeWhile_framesIn {accept : Frame → Bool} {fed : List UInt8} {log : List Event}
    {r : FrameReader} {f : Frame} (h : Tracks fed log r)
    (hv : Verdict accept (some f) (framesOf log) r) (more : List UInt8) :
    framesOf log = ((framesIn (fed ++ more)).takeWhile fun g => !accept g) ++ [f] := by
  obtain ⟨hacc, dropped, hseen, hdropped⟩ := hv
  have hbefore : ∀ d ∈ dropped, (!accept d) = true := fun d hd => by rw [hdropped d hd]; rfl
  rw [framesIn, Lib.Scanner.drain_append, framesOf_append, ← framesIn, ← h.drain.1, hseen,
    List.append_assoc, List.append_assoc, List.takeWhile_append_of_pos hbefore,
    List.singleton_append, List.takeWhile_cons_of_neg (by rw [hacc]; exact Bool.false_ne_true),
    List.append_nil]

/-- All of them, if none was accepted. -/
theorem Tracks.takeWhile_framesIn_none {accept : Frame → Bool} {fed : List UInt8}
    {log : List Event} {r : FrameReader} (h : Tracks fed log r)
    (hv : Verdict accept none (framesOf log) r) :
    framesOf log = (framesIn fed).takeWhile fun g => !accept g := by
  have hlog := (h.eq_settled hv.2).1
  have hall : ∀ d ∈ framesOf log, (!accept d) = true := fun d hd => by rw [hv.1 d hd]; rfl
  rw [framesIn, ← hlog, ← List.append_nil (framesOf log), List.takeWhile_append_of_pos hall,
    List.takeWhile_nil]

/-- What the loop takes until it returns, as `readLoop_result` goes. -/
theorem readLoop_seen (accept : Frame → Bool) (deadline : Instant) {fed : List UInt8}
    {log : List Event} {r : FrameReader} (reads : List (Except String (List UInt8)))
    (clock : List Instant) (h : Tracks fed log r) (hv : Verdict accept none (framesOf log) r)
    {found : Option Frame}
    (hresult : (readLoop accept deadline r reads clock).result = some (.ok found)) :
    framesOf log ++ (readLoop accept deadline r reads clock).seen
      = ((framesIn (fed ++ heard (Line.before ⟨clock, reads⟩ deadline))).takeWhile
          fun f => !accept f) ++ found.toList := by
  induction clock generalizing fed log r reads with
  | nil =>
    rw [readLoop.eq_def] at hresult
    cases hresult
  | cons now clock ih =>
    by_cases hnow : now < deadline
    · cases reads with
      | nil =>
        rw [readLoop, if_pos hnow] at hresult
        cases hresult
      | cons read reads =>
        cases read with
        | error e =>
          rw [readLoop, if_pos hnow] at hresult
          cases hresult
        | ok chunk =>
          rw [readLoop, if_pos hnow] at hresult ⊢
          rw [before_cons hnow, heard_ok]
          by_cases hempty : chunk.length = 0
          · -- an idle line: ask again
            rw [if_pos hempty] at hresult ⊢
            rw [List.eq_nil_of_length_eq_zero hempty, List.nil_append]
            exact ih reads h hv hresult
          · obtain ⟨l, htracks, hframes⟩ := (h.feed chunk).takeAccepted accept
            obtain ⟨-, hverdict⟩ := takeAccepted_spec accept (r.feed chunk)
            simp only [if_neg hempty] at hresult ⊢
            generalize takeAccepted accept (r.feed chunk) = taken
              at htracks hframes hverdict hresult
            obtain ⟨accepted, seen, r'⟩ := taken
            have hall : Verdict accept accepted (framesOf (log ++ l)) r' := by
              rw [framesOf_append, hframes]
              exact hverdict.append hv.1
            dsimp only at htracks hframes
            rw [← List.append_assoc]
            cases accepted with
            | some f =>
              cases hresult
              show framesOf log ++ seen = _
              rw [← hframes, ← framesOf_append]
              exact htracks.takeWhile_framesIn hall _
            | none =>
              rw [← List.append_assoc, ← hframes, ← framesOf_append]
              exact ih reads htracks hall hresult
    · rw [readLoop.eq_def] at hresult ⊢
      simp only [if_neg hnow] at hresult ⊢
      cases hresult
      rw [before_late hnow, heard_nil, List.append_nil fed, ← h.takeWhile_framesIn_none hv]
      rfl

/-- **What a call on a fresh reader takes**: what it steps over, and then what it returns. -/
theorem readUntil_seen {accept : Frame → Bool} {deadline : Instant} {line : Line}
    {found : Option Frame}
    (h : (readUntil line {} deadline accept).result = some (.ok found)) :
    (readUntil line {} deadline accept).seen
      = line.steppedOver deadline accept ++ found.toList := by
  rw [readUntil, takeAccepted_default] at h ⊢
  exact readLoop_seen accept deadline line.reads line.clock tracks_default
    (verdict_default accept) h

/-! ## One reader over many calls -/

/-- What one caller asks for. -/
structure Request where
  accept : Frame → Bool
  deadline : Instant

/-- A transport and a reader after some calls, with the frames those calls took
and the bytes they read. -/
structure Served where
  seen : List Frame
  bytes : List UInt8
  reader : FrameReader
  line : Line

/-- Make the calls in order on one reader; a call that has not returned is the
last one. -/
def serve (r : FrameReader) (line : Line) : List Request → Served
  | [] => ⟨[], [], r, line⟩
  | q :: qs =>
    let o := readUntil line r q.deadline q.accept
    match o.result with
    | none => ⟨o.seen, o.bytes, o.reader, o.line⟩
    | some _ =>
      let rest := serve o.reader o.line qs
      ⟨o.seen ++ rest.seen, o.bytes ++ rest.bytes, rest.reader, rest.line⟩

theorem bytesOf_append (l m : List (Except String (List UInt8))) :
    bytesOf (l ++ m) = bytesOf l ++ bytesOf m := by
  induction l with
  | nil => rfl
  | cons read l ih => cases read <;> simp [bytesOf, ih]

/-- Any sequence of calls keeps the reader's invariant. -/
theorem serve_tracks {fed : List UInt8} {log : List Event} {r : FrameReader}
    (h : Tracks fed log r) (line : Line) (qs : List Request) :
    (∃ l, Tracks (fed ++ (serve r line qs).bytes) (log ++ l) (serve r line qs).reader ∧
      framesOf l = (serve r line qs).seen) ∧
    ∃ used, line.reads = used ++ (serve r line qs).line.reads ∧
      (serve r line qs).bytes = bytesOf used := by
  induction qs generalizing fed log r line with
  | nil => exact ⟨⟨[], by simpa [serve] using h, rfl⟩, [], rfl, rfl⟩
  | cons q qs ih =>
    obtain ⟨⟨l, htracks, hframes⟩, -, ticks, used, hpaced⟩ :=
      readUntil_spec q.accept q.deadline line h
    rw [serve]
    generalize readUntil line r q.deadline q.accept = o at htracks hframes hpaced
    obtain ⟨result, seen, bytes, reader, line'⟩ := o
    cases result with
    | none => exact ⟨⟨l, htracks, hframes⟩, used, hpaced.reads, hpaced.bytes⟩
    | some res =>
      obtain ⟨⟨l', htracks', hframes'⟩, used', hreads', hbytes'⟩ := ih htracks line'
      refine ⟨⟨l ++ l', ?_, ?_⟩, used ++ used', ?_, ?_⟩
      · simpa [List.append_assoc] using htracks'
      · rw [framesOf_append, hframes, hframes']
      · rw [List.append_assoc, ← hreads']
        exact hpaced.reads
      · rw [bytesOf_append, ← hbytes', ← hpaced.bytes]

/-- The frames the calls took and those the buffer still yields are, in order,
the frames of all bytes read. -/
theorem serve_seen (line : Line) (qs : List Request) :
    (serve {} line qs).seen ++ (serve {} line qs).reader.drain.1
      = framesIn (serve {} line qs).bytes := by
  obtain ⟨⟨l, htracks, hframes⟩, -⟩ := serve_tracks tracks_default line qs
  rw [List.nil_append, List.nil_append] at htracks
  rw [← hframes]
  exact htracks.drain.1

end HostServices.Bms
