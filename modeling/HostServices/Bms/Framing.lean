import HostServices.Lib.Scanner
import HostServices.Bms.Frame

/-!
# The framer as a scanner

`FrameReader` skips junk in jumps whose length depends on how much happens to be
buffered, so its `step` is not stable under further input. One byte at a time it
is: whether a byte is skipped, a header rejected or a frame taken depends only on
bytes that are already there. `framer` is that byte-at-a-time scanner, and every
`nextFrame` call is a run of it (`nextFrame_run`). What the reader has returned,
counted and kept is then a function of the bytes fed to it alone.

- `Event`, `framer`: the reference scanner;
- `Tally`: what the reader's counters have to say about a log of events;
- `Tracks`: the invariant of a reader over any history of calls;
- `drain_tracks`: a drained reader has scanned everything it was fed.
-/

namespace HostServices.Bms

open HostServices.Lib

/-- What happens at one position of the stream. -/
inductive Event where
  | frame (f : Frame)
  | rejected
  | skipped
  deriving DecidableEq, Repr

/-- A whole frame sits at the front of the buffer with a matching sum. -/
def SumOk (b : List UInt8) : Prop :=
  checksum (b.take frameLen) = (b.take frameLen).getD checksumOffset 0

instance (b : List UInt8) : Decidable (SumOk b) :=
  inferInstanceAs (Decidable (_ = _))

/-- The frame at the front of the buffer. -/
def frontFrame (b : List UInt8) : Frame :=
  ⟨(b.take frameLen).getD 4 0, b.take frameLen⟩

/-- One byte-level decision about the front of `b`. -/
def lookAt (b : List UInt8) : Option (Event × Nat) :=
  if HeaderAt b 0 then
    if frameLen ≤ b.length then
      if SumOk b then some (.frame (frontFrame b), frameLen) else some (.rejected, 1)
    else none
  else if 3 < b.length then some (.skipped, 1)
  else none

/-- The four outcomes of `lookAt`. -/
theorem lookAt_cases (b : List UInt8) :
    (HeaderAt b 0 ∧ frameLen ≤ b.length ∧ SumOk b ∧
      lookAt b = some (.frame (frontFrame b), frameLen)) ∨
    (HeaderAt b 0 ∧ frameLen ≤ b.length ∧ ¬ SumOk b ∧
      lookAt b = some (.rejected, 1)) ∨
    (¬ HeaderAt b 0 ∧ 3 < b.length ∧ lookAt b = some (.skipped, 1)) ∨
    (lookAt b = none ∧
      ((HeaderAt b 0 ∧ b.length < frameLen) ∨ (¬ HeaderAt b 0 ∧ b.length ≤ 3))) := by
  unfold lookAt
  by_cases hat : HeaderAt b 0
  · by_cases hlen : frameLen ≤ b.length
    · by_cases hsum : SumOk b <;> simp [hat, hlen, hsum]
    · simp [hat, hlen, Nat.lt_of_not_le hlen]
  · by_cases hlen : 3 < b.length
    · simp [hat, hlen]
    · simp [hat, hlen, Nat.le_of_not_lt hlen]

theorem take_frameLen_append {b : List UInt8} (h : frameLen ≤ b.length)
    (s : List UInt8) : (b ++ s).take frameLen = b.take frameLen :=
  List.take_append_of_le_length h

/-- The byte-at-a-time reference scanner. -/
def framer : Scanner UInt8 Event where
  look := lookAt
  look_pos {b e n} h := by
    obtain ⟨-, -, -, hl⟩ | ⟨-, -, -, hl⟩ | ⟨-, -, hl⟩ | ⟨hl, -⟩ := lookAt_cases b <;>
      rw [hl] at h <;> cases h <;> decide
  look_le {b e n} h := by
    obtain ⟨-, hb, -, hl⟩ | ⟨-, hb, -, hl⟩ | ⟨-, hb, hl⟩ | ⟨hl, -⟩ := lookAt_cases b <;>
      rw [hl] at h <;> cases h
    · exact hb
    · exact Nat.le_trans (by decide) hb
    · omega
  look_append {b e n} h s := by
    -- every decision reads only bytes that are already in `b`
    obtain ⟨hat, hb, hsum, hl⟩ | ⟨hat, hb, hsum, hl⟩ | ⟨hat, hb, hl⟩ | ⟨hl, -⟩ :=
      lookAt_cases b <;> rw [hl] at h <;> cases h
    · have hat' := (headerAt_append (t := s) hat.le).mpr hat
      have hlen : frameLen ≤ (b ++ s).length := by rw [List.length_append]; omega
      have hsum' : SumOk (b ++ s) := by rw [SumOk, take_frameLen_append hb]; exact hsum
      rw [lookAt, if_pos hat', if_pos hlen, if_pos hsum', frontFrame,
        take_frameLen_append hb]
      rfl
    · have hat' := (headerAt_append (t := s) hat.le).mpr hat
      have hlen : frameLen ≤ (b ++ s).length := by rw [List.length_append]; omega
      have hsum' : ¬ SumOk (b ++ s) := by rw [SumOk, take_frameLen_append hb]; exact hsum
      rw [lookAt, if_pos hat', if_pos hlen, if_neg hsum']
    · have hat' := mt (headerAt_append (t := s) (by omega : 0 + 4 ≤ b.length)).mp hat
      have hlen : 3 < (b ++ s).length := by rw [List.length_append]; omega
      rw [lookAt, if_neg hat', if_pos hlen]

/-- The framer waits for more of a frame, or of a header. -/
theorem framer_stuck_iff {b : List UInt8} :
    framer.Stuck b ↔
      ((HeaderAt b 0 ∧ b.length < frameLen) ∨ (¬ HeaderAt b 0 ∧ b.length ≤ 3)) := by
  show lookAt b = none ↔ _
  obtain ⟨hat, hb, -, hl⟩ | ⟨hat, hb, -, hl⟩ | ⟨hat, hb, hl⟩ | ⟨hl, hb⟩ := lookAt_cases b
  · simp [hl, hat, hb]
  · simp [hl, hat, hb]
  · simp [hl, hat, hb]
  · simp [hl, hb]

/-! ## Reading a log of events -/

/-- The frame that a step emits, if it emits one. -/
def Event.toFrame : Event → Option Frame
  | .frame f => some f
  | _ => none

/-- The frames of a log. -/
def framesOf (log : List Event) : List Frame := log.filterMap Event.toFrame

/-- How many frames were rejected. -/
def rejections (log : List Event) : Nat := log.count .rejected

/-- How many bytes were skipped. -/
def skips (log : List Event) : Nat := log.count .skipped

@[simp] theorem framesOf_nil : framesOf [] = [] := rfl

@[simp] theorem framesOf_append (l m : List Event) :
    framesOf (l ++ m) = framesOf l ++ framesOf m := List.filterMap_append ..

@[simp] theorem framesOf_cons_frame (f : Frame) (l : List Event) :
    framesOf (.frame f :: l) = f :: framesOf l := rfl

@[simp] theorem framesOf_cons_rejected (l : List Event) :
    framesOf (.rejected :: l) = framesOf l := rfl

@[simp] theorem framesOf_cons_skipped (l : List Event) :
    framesOf (.skipped :: l) = framesOf l := rfl

@[simp] theorem framesOf_replicate_skipped (n : Nat) :
    framesOf (List.replicate n .skipped) = [] := by
  induction n with
  | zero => rfl
  | succ n ih => rw [List.replicate_succ, framesOf_cons_skipped, ih]

@[simp] theorem rejections_append (l m : List Event) :
    rejections (l ++ m) = rejections l + rejections m := List.count_append ..

@[simp] theorem skips_append (l m : List Event) :
    skips (l ++ m) = skips l + skips m := List.count_append ..

/-- `Tally r log r'`: the counters of `r'` are those of `r` plus what `log`
says happened; the number of bytes read does not change by scanning. -/
structure Tally (r : FrameReader) (log : List Event) (r' : FrameReader) : Prop where
  framesOk : r'.framesOk = r.framesOk + (framesOf log).length
  framesDiscarded : r'.framesDiscarded = r.framesDiscarded + rejections log
  bytesSkipped : r'.bytesSkipped = r.bytesSkipped + (skips log + rejections log)
  bytesRead : r'.bytesRead = r.bytesRead

theorem Tally.refl (r : FrameReader) : Tally r [] r := ⟨rfl, rfl, rfl, rfl⟩

theorem Tally.trans {r₁ r₂ r₃ : FrameReader} {l m : List Event}
    (h : Tally r₁ l r₂) (h' : Tally r₂ m r₃) : Tally r₁ (l ++ m) r₃ where
  framesOk := by
    rw [h'.framesOk, h.framesOk, framesOf_append, List.length_append, Nat.add_assoc]
  framesDiscarded := by
    rw [h'.framesDiscarded, h.framesDiscarded, rejections_append, Nat.add_assoc]
  bytesSkipped := by
    rw [h'.bytesSkipped, h.bytesSkipped, skips_append, rejections_append]
    omega
  bytesRead := by rw [h'.bytesRead, h.bytesRead]

/-! ## The reader runs the scanner -/

/-- A jump over `n` headerless bytes is `n` byte-level skips. -/
theorem run_skipped (n : Nat) {b : List UInt8} (hlen : n + 3 ≤ b.length)
    (hno : ∀ q < n, ¬ HeaderAt b q) :
    framer.Run b (List.replicate n .skipped) (b.drop n) := by
  induction n generalizing b with
  | zero => exact .refl b
  | succ n ih =>
    have hlook : framer.look b = some (.skipped, 1) := by
      show lookAt b = _
      rw [lookAt, if_neg (hno 0 (by omega)), if_pos (by omega)]
    rw [List.replicate_succ, show b.drop (n + 1) = (b.drop 1).drop n by
      rw [List.drop_drop, Nat.add_comm]]
    refine .head hlook (ih (by rw [List.length_drop]; omega) fun q hq hat => ?_)
    exact hno (1 + q) (by omega) (headerAt_drop.mp hat)

/-- **One call is a run**: `nextFrame` advances the reference scanner up to and
including the first frame it emits, or until the scanner has to wait; the
counters move by exactly what the run logged. -/
theorem nextFrame_run (r : FrameReader) :
    ∃ log, framer.Run r.buffer log r.nextFrame.2.buffer ∧ Tally r log r.nextFrame.2 ∧
      framesOf log = r.nextFrame.1.toList ∧
      (r.nextFrame.1 = none → framer.Stuck r.nextFrame.2.buffer) := by
  fun_induction FrameReader.nextFrame r with
  | case1 r frame consumed h =>
    obtain ⟨m, hm, -⟩ | ⟨-, -, -, hm⟩ | ⟨hat, hlen, hsum, hm⟩ | ⟨hm, -⟩ :=
      step_cases r.buffer <;> rw [hm] at h <;> cases h
    have hlook : framer.look r.buffer = some (.frame (frontFrame r.buffer), frameLen) := by
      show lookAt r.buffer = _
      rw [lookAt, if_pos hat, if_pos hlen, if_pos (show SumOk r.buffer from hsum)]
    exact ⟨_, .single hlook, ⟨rfl, rfl, rfl, rfl⟩, rfl, fun hnone => nomatch hnone⟩
  | case2 r count h hpos ih =>
    obtain ⟨log, hrun, htally, hframes, hstuck⟩ := ih
    obtain ⟨-, hlen, hno⟩ := hpos
    have hmin : min count r.buffer.length = count := by omega
    simp only [hmin] at hrun htally hframes hstuck ⊢
    have hjump : Tally r (List.replicate count .skipped) { r with
        bytesSkipped := r.bytesSkipped + count
        buffer := r.buffer.drop count } := by
      refine ⟨?_, ?_, ?_, rfl⟩
      · rw [framesOf_replicate_skipped]; rfl
      · rw [rejections, List.count_replicate]; rfl
      · rw [skips, rejections, List.count_replicate_self, List.count_replicate]; rfl
    refine ⟨List.replicate count .skipped ++ log, (run_skipped count hlen hno).trans hrun,
      hjump.trans htally, ?_, hstuck⟩
    rw [framesOf_append, framesOf_replicate_skipped, List.nil_append, hframes]
  | case3 r h _ ih =>
    obtain ⟨log, hrun, htally, hframes, hstuck⟩ := ih
    obtain ⟨m, hm, -⟩ | ⟨hat, hlen, hsum, hm⟩ | ⟨-, -, -, hm⟩ | ⟨hm, -⟩ :=
      step_cases r.buffer <;> rw [hm] at h <;> cases h
    have hlook : framer.look r.buffer = some (.rejected, 1) := by
      show lookAt r.buffer = _
      rw [lookAt, if_pos hat, if_pos hlen, if_neg (show ¬ SumOk r.buffer from hsum)]
    have hone : Tally r [.rejected] { r with
        framesDiscarded := r.framesDiscarded + 1
        bytesSkipped := r.bytesSkipped + 1
        buffer := r.buffer.drop 1 } := ⟨rfl, rfl, rfl, rfl⟩
    exact ⟨.rejected :: log, .head hlook hrun, hone.trans htally, hframes, hstuck⟩
  | case4 r h =>
    refine ⟨[], .refl _, .refl r, rfl, fun _ => framer_stuck_iff.mpr ?_⟩
    obtain ⟨m, hm, -⟩ | ⟨-, -, -, hm⟩ | ⟨-, -, -, hm⟩ | ⟨-, hwait⟩ :=
      step_cases r.buffer
    · rw [hm] at h; cases h
    · rw [hm] at h; cases h
    · rw [hm] at h; cases h
    · exact hwait

/-- Taking a frame consumes bytes. -/
theorem nextFrame_length_lt {r r' : FrameReader} {f : Frame}
    (h : r.nextFrame = (some f, r')) : r'.buffer.length < r.buffer.length := by
  obtain ⟨log, hrun, -, hframes, -⟩ := nextFrame_run r
  rw [h] at hrun hframes
  refine hrun.length_lt fun hnil => ?_
  subst hnil
  cases hframes

/-- The caller's `while let Some(frame) = reader.next_frame()`: every frame the
buffer still yields, and the reader once it has answered `None`. -/
def FrameReader.drain (r : FrameReader) : List Frame × FrameReader :=
  match h : r.nextFrame with
  | (none, r') => ([], r')
  | (some f, r') =>
    have := nextFrame_length_lt h
    (f :: r'.drain.1, r'.drain.2)
termination_by r.buffer.length

/-! ## Histories of calls -/

/-- The invariant of a reader over any history of calls: the bytes it was fed,
scanned by the reference scanner, gave `log` and left what is in the buffer. -/
structure Tracks (fed : List UInt8) (log : List Event) (r : FrameReader) : Prop where
  run : framer.Run fed log r.buffer
  tally : Tally { bytesRead := fed.length } log r

theorem tracks_default : Tracks [] [] {} :=
  ⟨.refl _, .refl _⟩

/-- Feeding a chunk keeps the account. -/
theorem Tracks.feed {fed : List UInt8} {log : List Event} {r : FrameReader}
    (h : Tracks fed log r) (chunk : List UInt8) :
    Tracks (fed ++ chunk) log (r.feed chunk) where
  run := h.run.append chunk
  tally := by
    obtain ⟨hok, hdis, hskip, hread⟩ := h.tally
    refine ⟨hok, hdis, hskip, ?_⟩
    rw [FrameReader.feed, hread, List.length_append]

/-- Running over the buffer keeps the account. -/
theorem Tracks.advance {fed : List UInt8} {log l : List Event} {r r' : FrameReader}
    (h : Tracks fed log r) (hrun : framer.Run r.buffer l r'.buffer)
    (htally : Tally r l r') : Tracks fed (log ++ l) r' :=
  ⟨h.run.trans hrun, h.tally.trans htally⟩

/-- Taking frames keeps the invariant, and the frame returned is what the log
gained. -/
theorem Tracks.nextFrame {fed : List UInt8} {log : List Event} {r : FrameReader}
    (h : Tracks fed log r) :
    ∃ l, Tracks fed (log ++ l) r.nextFrame.2 ∧ framesOf l = r.nextFrame.1.toList := by
  obtain ⟨l, hrun, htally, hframes, -⟩ := nextFrame_run r
  exact ⟨l, h.advance hrun htally, hframes⟩

/-- Draining runs the scanner until it has to wait. -/
theorem drain_run (r : FrameReader) :
    ∃ log, framer.Run r.buffer log r.drain.2.buffer ∧ Tally r log r.drain.2 ∧
      framesOf log = r.drain.1 ∧ framer.Stuck r.drain.2.buffer := by
  fun_induction FrameReader.drain r with
  | case1 r r' h =>
    obtain ⟨log, hrun, htally, hframes, hstuck⟩ := nextFrame_run r
    rw [h] at hrun htally hframes hstuck
    exact ⟨log, hrun, htally, hframes, hstuck rfl⟩
  | case2 r f r' h _ ih =>
    obtain ⟨log, hrun, htally, hframes, -⟩ := nextFrame_run r
    obtain ⟨log', hrun', htally', hframes', hstuck'⟩ := ih
    rw [h] at hrun htally hframes
    refine ⟨log ++ log', hrun.trans hrun', htally.trans htally', ?_, hstuck'⟩
    rw [framesOf_append, hframes, hframes']
    rfl

/-- The reader that has scanned all of `fed` and waits for more. -/
def settled (fed : List UInt8) : FrameReader where
  buffer := (framer.drain fed).2
  framesOk := (framesOf (framer.drain fed).1).length
  framesDiscarded := rejections (framer.drain fed).1
  bytesSkipped := skips (framer.drain fed).1 + rejections (framer.drain fed).1
  bytesRead := fed.length

/-- A reader that has to wait has scanned everything it was fed. -/
theorem Tracks.eq_settled {fed : List UInt8} {log : List Event} {r : FrameReader}
    (h : Tracks fed log r) (hstuck : framer.Stuck r.buffer) :
    log = (framer.drain fed).1 ∧ r = settled fed := by
  have hdrain := h.run.drain_eq_of_stuck hstuck
  obtain ⟨buffer, framesOk, framesDiscarded, bytesSkipped, bytesRead⟩ := r
  obtain ⟨hok, hdis, hskip, hread⟩ := h.tally
  simp only [Nat.zero_add] at hok hdis hskip hread
  simp only [settled, hdrain, FrameReader.mk.injEq, true_and]
  exact ⟨hok, hdis, hskip, hread⟩

/-- The frames a fresh reader emits on a byte string. -/
def framesIn (bytes : List UInt8) : List Frame := framesOf (framer.drain bytes).1

/-- **Nothing is lost and nothing repeated**: whatever a reader has returned so
far, followed by what its buffer still yields, is what a fresh reader emits on
everything it was fed; and the drained reader is the same one. -/
theorem Tracks.drain {fed : List UInt8} {log : List Event} {r : FrameReader}
    (h : Tracks fed log r) :
    framesOf log ++ r.drain.1 = framesIn fed ∧ r.drain.2 = settled fed := by
  obtain ⟨l, hrun, htally, hframes, hstuck⟩ := drain_run r
  obtain ⟨hlog, hsettled⟩ := (h.advance hrun htally).eq_settled hstuck
  refine ⟨?_, hsettled⟩
  rw [framesIn, ← hlog, framesOf_append, hframes]

/-- A fresh reader that is fed a stream at once emits all of its frames. -/
theorem feed_drain (stream : List UInt8) :
    (FrameReader.feed {} stream).drain = (framesIn stream, settled stream) := by
  obtain ⟨hframes, hreader⟩ := (tracks_default.feed stream).drain
  rw [List.nil_append] at hframes hreader
  exact Prod.ext hframes hreader

/-- One call on a reader. -/
inductive Call where
  | feed (chunk : List UInt8)
  | nextFrame
  deriving DecidableEq, Repr

/-- The bytes a sequence of calls feeds, in order. -/
def fedBy : List Call → List UInt8
  | [] => []
  | .feed chunk :: calls => chunk ++ fedBy calls
  | .nextFrame :: calls => fedBy calls

/-- Make the calls in order; the frames they returned and the reader after. -/
def FrameReader.perform (r : FrameReader) : List Call → List Frame × FrameReader
  | [] => ([], r)
  | .feed chunk :: calls => (r.feed chunk).perform calls
  | .nextFrame :: calls =>
    (r.nextFrame.1.toList ++ (r.nextFrame.2.perform calls).1,
      (r.nextFrame.2.perform calls).2)

/-- Any sequence of calls keeps the invariant. -/
theorem Tracks.perform {fed : List UInt8} {log : List Event} {r : FrameReader}
    (h : Tracks fed log r) (calls : List Call) :
    ∃ l, Tracks (fed ++ fedBy calls) (log ++ l) (r.perform calls).2 ∧
      framesOf l = (r.perform calls).1 := by
  induction calls generalizing fed log r with
  | nil => exact ⟨[], by simpa [fedBy, FrameReader.perform] using h, rfl⟩
  | cons call calls ih =>
    cases call with
    | feed chunk =>
      have := ih (h.feed chunk)
      rwa [List.append_assoc] at this
    | nextFrame =>
      obtain ⟨l, hl, hframes⟩ := h.nextFrame
      obtain ⟨l', hl', hframes'⟩ := ih hl
      refine ⟨l ++ l', ?_, ?_⟩
      · rwa [List.append_assoc] at hl'
      · rw [framesOf_append, hframes, hframes']
        rfl

/-- **Chunk independence**: however a stream is cut into `feed` calls, and
however many `nextFrame` calls are made in between, once the reader has been
drained after the last chunk the frames returned altogether, every counter and
the bytes left in the buffer are those of one `feed` of the whole stream. -/
theorem chunk_independence (calls : List Call) :
    ((FrameReader.perform {} calls).1 ++ (FrameReader.perform {} calls).2.drain.1,
        (FrameReader.perform {} calls).2.drain.2)
      = (FrameReader.feed {} (fedBy calls)).drain := by
  obtain ⟨l, hl, hframes⟩ := tracks_default.perform calls
  rw [List.nil_append, List.nil_append] at hl
  obtain ⟨hall, hreader⟩ := hl.drain
  rw [feed_drain, ← hframes, hall, hreader]

end HostServices.Bms
