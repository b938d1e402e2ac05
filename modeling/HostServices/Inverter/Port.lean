import HostServices.Inverter.Protocol
import Mathlib.Data.List.Basic

/-!
# Reading a frame off the line (`inverter-monitoring/src/port.rs`)

`read_frame` collects bytes up to the first carriage return. The line hands them over
in pieces of its own choosing; what is behind the carriage return in the piece that
brings it is thrown away.

- `Transport`: what a session needs from a port;
- `readFrame`: the source's loop, over the rounds that begin before the deadline;
- `readFrame_buildResponse`: a frame comes through however it is cut.
-/

namespace HostServices.Inverter

/-- What a session needs from a port. -/
structure Transport (σ : Type) where
  writeRequest : List UInt8 → σ → Except String Unit × σ
  /-- `none` if the deadline passed first -/
  readFrame : σ → Except String (Option (List UInt8)) × σ

/-! ## The code -/

/-- `for byte in chunk { frame.push(*byte); if *byte == CR { return .. } }`: the frame, and
whether it is complete. -/
def pushUntilCr (frame : List UInt8) : List UInt8 → List UInt8 × Bool
  | [] => (frame, false)
  | byte :: chunk =>
    if byte = cr then (frame ++ [byte], true) else pushUntilCr (frame ++ [byte]) chunk

section

variable {σ τ : Type} (readSome : τ → σ → Except String (List UInt8) × σ)

/-- `while Instant::now() < deadline { .. }`, one element for every round that begins
before the deadline. -/
def readFrameLoop (frame : List UInt8) :
    List τ → σ → Except String (Option (List UInt8)) × σ
  | [], s => (.ok none, s)
  | round :: rounds, s =>
    match readSome round s with
    | (.error e, s) => (.error e, s)
    | (.ok chunk, s) =>
      match pushUntilCr frame chunk with
      | (frame, true) => (.ok (some frame), s)
      | (frame, false) =>
        -- a frame that grows without ever terminating is a desynchronised line
        if 512 < frame.length then (.ok (some frame), s) else readFrameLoop frame rounds s

/-- Bytes up to and including the first `<CR>`, or `none` if the deadline passed first. -/
def readFrame (rounds : List τ) (s : σ) : Except String (Option (List UInt8)) × σ :=
  readFrameLoop readSome [] rounds s

end

/-! ## What a frame consists of -/

/-- Without a CR all of the chunk is part of the frame. -/
theorem pushUntilCr_of_not_mem {frame chunk : List UInt8} (h : cr ∉ chunk) :
    pushUntilCr frame chunk = (frame ++ chunk, false) := by
  induction chunk generalizing frame with
  | nil => rw [pushUntilCr, List.append_nil]
  | cons byte chunk ih =>
    rw [List.mem_cons, not_or] at h
    rw [pushUntilCr, if_neg (Ne.symm h.1), ih h.2, List.append_assoc]
    rfl

theorem pushUntilCr_append {frame before after : List UInt8} (h : cr ∉ before) :
    pushUntilCr frame (before ++ cr :: after) = (frame ++ before ++ [cr], true) := by
  induction before generalizing frame with
  | nil => rw [List.nil_append, pushUntilCr, if_pos rfl, List.append_nil]
  | cons byte before ih =>
    rw [List.mem_cons, not_or] at h
    rw [List.cons_append, pushUntilCr, if_neg (Ne.symm h.1), ih h.2, List.append_assoc frame]
    rfl

/-- A frame is read up to its CR. -/
theorem takeWhile_line {body rest : List UInt8} (h : cr ∉ body) :
    (body ++ cr :: rest).takeWhile (· ≠ cr) = body := by
  have hall : ∀ b ∈ body, decide (b ≠ cr) = true := by
    intro b hb
    exact decide_eq_true fun heq => h (heq ▸ hb)
  rw [List.takeWhile_append_of_pos hall, List.takeWhile_cons_of_neg (by simp), List.append_nil]

/-- The line hands over chunks: every chunk is read as it is. -/
def scripted (chunk : List UInt8) (u : Unit) : Except String (List UInt8) × Unit := (.ok chunk, u)

/-- A line up to its carriage return is read however it is cut. -/
theorem readFrameLoop_scripted {frame body rest : List UInt8} {chunks : List (List UInt8)}
    (hcut : frame ++ chunks.flatten = body ++ cr :: rest) (hframe : cr ∉ frame)
    (hbody : cr ∉ body) (hlen : body.length ≤ 512) :
    (readFrameLoop scripted frame chunks ()).1 = .ok (some (body ++ [cr])) := by
  induction chunks generalizing frame with
  | nil =>
    rw [List.flatten_nil, List.append_nil] at hcut
    exact absurd (hcut ▸ List.mem_append_right body List.mem_cons_self) hframe
  | cons chunk chunks ih =>
    rw [List.flatten_cons, ← List.append_assoc] at hcut
    rw [readFrameLoop]
    dsimp only [scripted]
    by_cases hmem : cr ∈ chunk
    · obtain ⟨before, after, rfl, hbefore⟩ := List.eq_append_cons_of_mem hmem
      have hsplit : (frame ++ before) ++ cr :: (after ++ chunks.flatten)
          = body ++ cr :: rest := by
        rw [← hcut]
        simp
      have hnot : cr ∉ frame ++ before := by
        rw [List.mem_append, not_or]
        exact ⟨hframe, hbefore⟩
      have hsame := congrArg (List.takeWhile (· ≠ cr)) hsplit
      rw [takeWhile_line hnot, takeWhile_line hbody] at hsame
      rw [pushUntilCr_append hbefore, hsame]
    · have hnot : cr ∉ frame ++ chunk := by
        rw [List.mem_append, not_or]
        exact ⟨hframe, hmem⟩
      have hshort : (frame ++ chunk).length ≤ body.length := by
        rcases List.append_eq_append_iff.mp hcut with ⟨more, hmore, -⟩ | ⟨more, hmore, htail⟩
        · rw [hmore]
          simp
        · -- it cannot reach as far as the carriage return
          cases more with
          | nil =>
            exact Nat.le_of_eq (by rw [hmore, List.append_nil])
          | cons b more =>
            cases htail
            exact absurd (hmore ▸ List.mem_append_right body List.mem_cons_self) hnot
      rw [pushUntilCr_of_not_mem hmem]
      dsimp only
      rw [if_neg (by omega)]
      exact ih hcut hnot

/-! ## A response on the line -/

/-- No checksum byte is sent as a CR. -/
theorem escape_ne_cr (byte : UInt8) : escape byte ≠ cr := by
  unfold escape
  split_ifs with h
  · rcases h with rfl | rfl | rfl <;> decide
  · exact fun heq => h (.inr (.inr heq))

/-- The only CR of a frame is its last byte. -/
theorem cr_not_mem_body {payload : List UInt8} (h : cr ∉ payload) :
    cr ∉ leading :: payload ++
      [(frameCrc (leading :: payload)).1, (frameCrc (leading :: payload)).2] := by
  rw [List.mem_append, not_or, List.mem_cons, not_or]
  refine ⟨⟨by decide, h⟩, ?_⟩
  rw [List.mem_cons, List.mem_singleton, not_or]
  exact ⟨(escape_ne_cr _).symm, (escape_ne_cr _).symm⟩

/-- **Round trip over the serial framing**: a payload without a carriage return that the
reader has room for comes through, whatever follows it on the line and however the line
cuts it into reads. -/
theorem readFrame_buildResponse {payload : List UInt8} (hlen : payload.length ≤ 508)
    (hcr : cr ∉ payload) {rest : List UInt8} {chunks : List (List UInt8)}
    (hcut : chunks.flatten = buildResponse payload ++ rest) :
    (readFrame scripted chunks ()).1 = .ok (some (buildResponse payload)) ∧
      parseResponse (buildResponse payload) =
        if payload = nak then .ok .nak else .ok (.payload payload) := by
  refine ⟨?_, parseResponse_buildResponse payload⟩
  have hline : [] ++ chunks.flatten = (leading :: payload ++
      [(frameCrc (leading :: payload)).1, (frameCrc (leading :: payload)).2]) ++ cr :: rest := by
    rw [hcut]
    simp [buildResponse]
  refine readFrameLoop_scripted hline List.not_mem_nil (cr_not_mem_body hcr) ?_
  simp
  omega

/-- The captured `QGMN` answer in two reads, the second of which brings more. -/
theorem readFrame_buildResponse_sample :
    (readFrame scripted [[0x28, 0x30, 0x34], [0x34, 0xC8, 0xAE, 0x0D, 0x28]] ()).1
      = .ok (some (buildResponse [0x30, 0x34, 0x34])) := by
  have hcut : [[0x28, 0x30, 0x34], [0x34, 0xC8, 0xAE, 0x0D, 0x28]].flatten
      = buildResponse [0x30, 0x34, 0x34] ++ [0x28] := by
    decide +kernel
  exact (readFrame_buildResponse (by decide) (by decide) hcut).1

end HostServices.Inverter
