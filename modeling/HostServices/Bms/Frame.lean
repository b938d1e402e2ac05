import Mathlib.Data.List.Basic
import Mathlib.Tactic.Common

/-!
# The BMS framing (`bms-monitoring/src/frame.rs`)

The battery pushes 300-byte frames that start with `55 AA EB 90` and end in an
8-bit sum, with Modbus traffic in between. `FrameReader` reassembles them from
whatever pieces the serial line delivers and counts what it threw away.

- `step`: one decision about the front of the buffer (`FrameReader::step`);
- `FrameReader.nextFrame`: drives `step` until it yields a frame or has to wait;
- `FrameReader.drain`: the caller's `while let Some(frame) = reader.next_frame()`.

The counters are `u64` in the source and `Nat` here: nothing depends on them
wrapping.
-/

namespace HostServices.Bms

/-- Frame prefix. -/
def header : List UInt8 := [0x55, 0xAA, 0xEB, 0x90]

/-- Every frame is exactly this long, both kinds. -/
def frameLen : Nat := 300

/-- Where the checksum sits, and therefore how many bytes it covers. -/
def checksumOffset : Nat := 299

/-- `REALTIME`: the code of a frame of measurements. -/
def realtime : UInt8 := 0x02

/-- `SETTINGS`: the code of a frame that describes the pack. -/
def settings : UInt8 := 0x01

/-- The 8-bit sum of bytes `0..299`. -/
def checksum (frame : List UInt8) : UInt8 :=
  (frame.take checksumOffset).foldl (fun sum byte => sum + byte) 0

/-- A 300-byte frame whose checksum has been verified. -/
structure Frame where
  code : UInt8
  data : List UInt8
  deriving DecidableEq, Repr

/-- The frame is one of measurements. -/
def Frame.isRealtime (f : Frame) : Bool := f.code == realtime

/-- The frame is one of settings. -/
def Frame.isSettings (f : Frame) : Bool := f.code == settings

/-- What one attempt to take a frame off the front of the buffer found. -/
inductive Step where
  | found (frame : Frame) (consumed : Nat)
  | skip (count : Nat)
  | badChecksum
  | incomplete
  deriving DecidableEq, Repr

/-- `slice::windows`: every run of `size` consecutive items, in order. -/
def windows {α : Type} (size : Nat) (l : List α) : List (List α) :=
  (List.range (l.length + 1 - size)).map fun i => (l.drop i).take size

/-- Where the first header in the buffer begins. -/
def findHeader (buffer : List UInt8) : Option Nat :=
  if buffer.length < header.length then none
  else (windows header.length buffer).findIdx? (fun window => window == header)

/-- One decision about the front of `buffer`. -/
def step (buffer : List UInt8) : Step :=
  match findHeader buffer with
  | none =>
    -- keep the last few bytes: a header may be split across two reads
    let keep := header.length - 1
    if keep < buffer.length then .skip (buffer.length - keep) else .incomplete
  | some start =>
    if 0 < start then .skip start
    else if buffer.length < frameLen then .incomplete
    else
      let candidate := buffer.take frameLen
      if checksum candidate ≠ candidate.getD checksumOffset 0 then .badChecksum
      else .found { code := candidate.getD 4 0, data := candidate } frameLen

/-- Reassembles frames from arbitrary chunk boundaries, and counts what it
threw away. -/
structure FrameReader where
  buffer : List UInt8 := []
  framesOk : Nat := 0
  framesDiscarded : Nat := 0
  bytesSkipped : Nat := 0
  bytesRead : Nat := 0
  deriving DecidableEq, Repr

/-! ## Where the header is -/

/-- The four header bytes occur at position `p`. -/
def HeaderAt (s : List UInt8) (p : Nat) : Prop :=
  (s.drop p).take header.length = header

instance (s : List UInt8) (p : Nat) : Decidable (HeaderAt s p) :=
  inferInstanceAs (Decidable (_ = _))

theorem HeaderAt.le {s : List UInt8} {p : Nat} (h : HeaderAt s p) :
    p + 4 ≤ s.length := by
  have hlen := congrArg List.length h
  simp only [header, List.length_take, List.length_drop, List.length_cons,
    List.length_nil] at hlen
  omega

theorem headerAt_drop {s : List UInt8} {p q : Nat} :
    HeaderAt (s.drop p) q ↔ HeaderAt s (p + q) := by
  rw [HeaderAt, HeaderAt, List.drop_drop]

/-- Whether a header is at `p` is settled once its four bytes are there. -/
theorem headerAt_append {s t : List UInt8} {p : Nat} (h : p + 4 ≤ s.length) :
    HeaderAt (s ++ t) p ↔ HeaderAt s p := by
  rw [HeaderAt, HeaderAt, List.drop_append_of_le_length (by omega),
    List.take_append_of_le_length]
  rw [List.length_drop]
  show 4 ≤ _
  omega

/-- The header that is found is the first one. -/
theorem findHeader_eq_some {b : List UInt8} {p : Nat}
    (h : findHeader b = some p) : HeaderAt b p ∧ ∀ q < p, ¬ HeaderAt b q := by
  rw [findHeader] at h
  split at h
  · cases h
  · rename_i hlen
    rw [List.findIdx?_eq_some_iff_getElem] at h
    obtain ⟨hp, hhit, hmiss⟩ := h
    constructor
    · simpa [windows, HeaderAt] using hhit
    · intro q hq
      have hmissq := hmiss q hq
      simpa [windows, HeaderAt] using hmissq

theorem findHeader_eq_none {b : List UInt8} (h : findHeader b = none) :
    ∀ p, ¬ HeaderAt b p := by
  intro p hp
  have hle := hp.le
  rw [findHeader] at h
  split at h
  · rename_i hlen
    simp only [header, List.length_cons, List.length_nil] at hlen
    omega
  · rw [List.findIdx?_eq_none_iff] at h
    have hmem : (b.drop p).take header.length ∈ windows header.length b := by
      rw [windows, List.mem_map]
      refine ⟨p, List.mem_range.mpr ?_, rfl⟩
      show p < b.length + 1 - 4
      omega
    have := h _ hmem
    rw [hp] at this
    simp at this

/-! ## What one step can do -/

/-- The three shapes a decision other than "wait" takes, with everything that
held of the buffer when it was taken. -/
theorem step_cases (b : List UInt8) :
    (∃ n, step b = .skip n ∧ 0 < n ∧ n + 3 ≤ b.length ∧ ∀ q < n, ¬ HeaderAt b q) ∨
    (HeaderAt b 0 ∧ frameLen ≤ b.length ∧
      checksum (b.take frameLen) ≠ (b.take frameLen).getD checksumOffset 0 ∧
      step b = .badChecksum) ∨
    (HeaderAt b 0 ∧ frameLen ≤ b.length ∧
      checksum (b.take frameLen) = (b.take frameLen).getD checksumOffset 0 ∧
      step b = .found ⟨(b.take frameLen).getD 4 0, b.take frameLen⟩ frameLen) ∨
    (step b = .incomplete ∧
      ((HeaderAt b 0 ∧ b.length < frameLen) ∨ (¬ HeaderAt b 0 ∧ b.length ≤ 3))) := by
  unfold step
  cases hfind : findHeader b with
  | none =>
    have hnone := findHeader_eq_none hfind
    have hkeep : header.length - 1 = 3 := rfl
    dsimp only
    by_cases hlen : header.length - 1 < b.length
    · rw [if_pos hlen]
      exact .inl ⟨_, rfl, by omega, by omega, fun q _ => hnone q⟩
    · refine .inr (.inr (.inr ⟨if_neg hlen, .inr ⟨hnone 0, by omega⟩⟩))
  | some start =>
    obtain ⟨hat, hbefore⟩ := findHeader_eq_some hfind
    have hle := hat.le
    dsimp only
    by_cases hstart : 0 < start
    · rw [if_pos hstart]
      exact .inl ⟨start, rfl, hstart, by omega, hbefore⟩
    · have h0 : start = 0 := by omega
      subst h0
      rw [if_neg hstart]
      by_cases hlen : b.length < frameLen
      · rw [if_pos hlen]
        exact .inr (.inr (.inr ⟨rfl, .inl ⟨hat, hlen⟩⟩))
      · rw [if_neg hlen]
        by_cases hsum : checksum (b.take frameLen) = (b.take frameLen).getD checksumOffset 0
        · rw [if_neg (not_not_intro hsum)]
          exact .inr (.inr (.inl ⟨hat, by omega, hsum, rfl⟩))
        · rw [if_pos hsum]
          exact .inr (.inl ⟨hat, by omega, hsum, rfl⟩)

/-- What is skipped is no empty piece, and no header begins in it. -/
theorem step_skip_pos {b : List UInt8} {n : Nat} (h : step b = .skip n) :
    0 < n ∧ n + 3 ≤ b.length ∧ ∀ q < n, ¬ HeaderAt b q := by
  obtain ⟨m, hm, hrest⟩ | ⟨-, -, -, hm⟩ | ⟨-, -, -, hm⟩ | ⟨hm, -⟩ := step_cases b <;>
    rw [hm] at h <;> cases h
  exact hrest

/-- A frame is only rejected when all of it is there. -/
theorem step_badChecksum_length {b : List UInt8} (h : step b = .badChecksum) :
    frameLen ≤ b.length := by
  obtain ⟨m, hm, -⟩ | ⟨-, hlen, -, -⟩ | ⟨-, hlen, -, -⟩ | ⟨hm, -⟩ := step_cases b
  · rw [hm] at h; cases h
  · exact hlen
  · exact hlen
  · rw [hm] at h; cases h

namespace FrameReader

/-- Add bytes as they arrive off the wire. -/
def feed (r : FrameReader) (chunk : List UInt8) : FrameReader :=
  { r with bytesRead := r.bytesRead + chunk.length, buffer := r.buffer ++ chunk }

/-- Take the next verified frame, if the buffer holds one. A single call crosses
however many Modbus records and bad frames lie in the way. -/
def nextFrame (r : FrameReader) : Option Frame × FrameReader :=
  match h : step r.buffer with
  | .found frame consumed =>
    (some frame,
      { r with buffer := r.buffer.drop consumed, framesOk := r.framesOk + 1 })
  | .skip count =>
    have := step_skip_pos h
    nextFrame { r with
      bytesSkipped := r.bytesSkipped + count
      buffer := r.buffer.drop (min count r.buffer.length) }
  | .badChecksum =>
    have := step_badChecksum_length h
    -- one byte, not 300
    nextFrame { r with
      framesDiscarded := r.framesDiscarded + 1
      bytesSkipped := r.bytesSkipped + 1
      buffer := r.buffer.drop 1 }
  | .incomplete => (none, r)
termination_by r.buffer.length
decreasing_by
  all_goals
    simp only [List.length_drop, frameLen] at *
    omega

end FrameReader

end HostServices.Bms
