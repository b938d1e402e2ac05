import HostServices.Bms.Framing

/-!
# Every byte is accounted for (`bms-monitoring/src/frame.rs`)

A reader runs for weeks on one serial line. What its counters say is about everything it was
ever fed, and what it keeps is bounded by one frame.

- `run_length`: what a run of the reference scanner consumes, event by event;
- `FrameReader.nextFrameWithin`: `next_frame` cut off after so many passes of its loop, and
  `nextFrameWithin_eq`: how many passes are enough;
- `bytes_accounted`: the counters, and the buffer, after any sequence of calls.
-/

namespace HostServices.Bms

open HostServices.Lib

/-! ## What is consumed -/

/-- The bytes behind a run are its frames, the headers that were rejected and what was skipped. -/
theorem run_length {b c : List UInt8} {log : List Event} (h : framer.Run b log c) :
    b.length = skips log + rejections log + frameLen * (framesOf log).length + c.length := by
  induction h with
  | refl b => simp [skips, rejections]
  | @head b c e n log hlook _ ih =>
    have hle := framer.look_le hlook
    rw [List.length_drop] at ih
    obtain ⟨-, -, -, hl⟩ | ⟨-, -, -, hl⟩ | ⟨-, -, hl⟩ | ⟨hl, -⟩ := lookAt_cases b
    · cases hl.symm.trans hlook
      have hskips : skips (.frame (frontFrame b) :: log) = skips log := by simp [skips]
      have hrejections : rejections (.frame (frontFrame b) :: log) = rejections log := by
        simp [rejections]
      rw [hskips, hrejections, framesOf_cons_frame, List.length_cons, Nat.mul_add, Nat.mul_one]
      omega
    · cases hl.symm.trans hlook
      have hskips : skips (.rejected :: log) = skips log := by simp [skips]
      have hrejections : rejections (.rejected :: log) = rejections log + 1 := by
        simp [rejections]
      rw [hskips, hrejections, framesOf_cons_rejected]
      omega
    · cases hl.symm.trans hlook
      have hskips : skips (.skipped :: log) = skips log + 1 := by simp [skips]
      have hrejections : rejections (.skipped :: log) = rejections log := by simp [rejections]
      rw [hskips, hrejections, framesOf_cons_skipped]
      omega
    · cases hl.symm.trans hlook

/-- Every byte that was read was skipped, is part of a frame, or is still in the buffer. -/
theorem Tracks.bytesRead_eq {fed : List UInt8} {log : List Event} {r : FrameReader}
    (h : Tracks fed log r) :
    r.bytesRead = r.bytesSkipped + frameLen * r.framesOk + r.buffer.length := by
  obtain ⟨hok, -, hskip, hread⟩ := h.tally
  have hlen := run_length h.run
  simp only [Nat.zero_add] at hok hskip hread
  rw [hok, hskip, hread]
  exact hlen

/-- A header that was rejected is one byte that was skipped. -/
theorem Tracks.framesDiscarded_le {fed : List UInt8} {log : List Event} {r : FrameReader}
    (h : Tracks fed log r) : r.framesDiscarded ≤ r.bytesSkipped := by
  obtain ⟨-, hdis, hskip, -⟩ := h.tally
  simp only [Nat.zero_add] at hdis hskip
  omega

/-! ## The loop -/

/-- `nextFrame`, cut off after so many passes of its loop. -/
def FrameReader.nextFrameWithin : Nat → FrameReader → Option (Option Frame × FrameReader)
  | 0, _ => none
  | passes + 1, r =>
    match step r.buffer with
    | .found frame consumed =>
      some (some frame,
        { r with buffer := r.buffer.drop consumed, framesOk := r.framesOk + 1 })
    | .skip count =>
      nextFrameWithin passes { r with
        bytesSkipped := r.bytesSkipped + count
        buffer := r.buffer.drop (min count r.buffer.length) }
    | .badChecksum =>
      nextFrameWithin passes { r with
        framesDiscarded := r.framesDiscarded + 1
        bytesSkipped := r.bytesSkipped + 1
        buffer := r.buffer.drop 1 }
    | .incomplete => some (none, r)

/-- Every pass but the last consumes at least one byte. -/
theorem nextFrameWithin_eq (r : FrameReader) {passes : Nat} (h : r.buffer.length < passes) :
    r.nextFrameWithin passes = some r.nextFrame := by
  fun_induction FrameReader.nextFrame r generalizing passes with
  | case1 r frame consumed hstep =>
    obtain ⟨passes, rfl⟩ := Nat.exists_eq_add_one_of_ne_zero (Nat.ne_zero_of_lt h)
    rw [FrameReader.nextFrameWithin, hstep]
  | case2 r count hstep hpos ih =>
    obtain ⟨passes, rfl⟩ := Nat.exists_eq_add_one_of_ne_zero (Nat.ne_zero_of_lt h)
    rw [FrameReader.nextFrameWithin, hstep]
    apply ih
    rw [List.length_drop]
    omega
  | case3 r hstep hlen ih =>
    obtain ⟨passes, rfl⟩ := Nat.exists_eq_add_one_of_ne_zero (Nat.ne_zero_of_lt h)
    rw [FrameReader.nextFrameWithin, hstep]
    apply ih
    rw [List.length_drop]
    rw [frameLen] at hlen
    omega
  | case4 r hstep =>
    obtain ⟨passes, rfl⟩ := Nat.exists_eq_add_one_of_ne_zero (Nat.ne_zero_of_lt h)
    rw [FrameReader.nextFrameWithin, hstep]

/-- What a reader keeps when it has nothing to return. -/
theorem nextFrame_none_buffer {r : FrameReader} (h : r.nextFrame.1 = none) :
    r.nextFrame.2.buffer.length < frameLen ∧
      (¬ HeaderAt r.nextFrame.2.buffer 0 → r.nextFrame.2.buffer.length ≤ 3) := by
  obtain ⟨log, -, -, -, hstuck⟩ := nextFrame_run r
  rcases framer_stuck_iff.mp (hstuck h) with ⟨hat, hlen⟩ | ⟨hat, hlen⟩
  · exact ⟨hlen, fun hnot => absurd hat hnot⟩
  · refine ⟨?_, fun _ => hlen⟩
    rw [frameLen]
    omega

/-! ## Any sequence of calls -/

/-- **Conservation**: after any sequence of calls on a fresh reader, every byte it was fed was
skipped, is part of a frame it has returned, or is in its buffer; no more headers were rejected
than bytes were skipped. The next call's loop ends within one pass for each byte in the buffer
and one more, and if it returns nothing, less than a frame is kept, and no more than three bytes
unless they are the start of one. -/
theorem bytes_accounted (calls : List Call) :
    let r := (FrameReader.perform {} calls).2
    r.bytesRead = r.bytesSkipped + 300 * r.framesOk + r.buffer.length ∧
      r.framesDiscarded ≤ r.bytesSkipped ∧
      r.nextFrameWithin (r.buffer.length + 1) = some r.nextFrame ∧
      (r.nextFrame.1 = none → r.nextFrame.2.buffer.length < 300 ∧
        (¬ HeaderAt r.nextFrame.2.buffer 0 → r.nextFrame.2.buffer.length ≤ 3)) := by
  intro r
  obtain ⟨log, htracks, -⟩ := tracks_default.perform calls
  exact ⟨htracks.bytesRead_eq, htracks.framesDiscarded_le,
    nextFrameWithin_eq r (Nat.lt_succ_self _), nextFrame_none_buffer⟩

end HostServices.Bms
