import HostServices.Lib.Crc

/-!
# Commands and response framing (`inverter-monitoring/src/crc.rs`, `protocol.rs`)

A response is `(`, a payload, two bytes of check and a carriage return. The check is
CRC-16/XMODEM over everything in front of it, with the bytes that mean something to
the framer replaced by their successors.

- `xmodem`, `frameCrc`, `parseResponse`, `buildResponse`: the source's functions;
- `parseResponse_append`: what the parser makes of a body and three bytes;
- `parseResponse_buildResponse`: what is built is read back.
-/

namespace HostServices.Inverter

open HostServices.Lib

/-! ## The code -/

/-- CRC-16/XMODEM: poly `0x1021`, init `0x0000`, no reflection, no final XOR. -/
def xmodem (data : List UInt8) : UInt16 :=
  data.foldl (fun (crc : UInt16) byte =>
    (List.range 8).foldl (fun (acc : UInt16) _ =>
      if acc &&& 0x8000 ≠ 0 then (acc <<< 1) ^^^ 0x1021 else acc <<< 1)
      (crc ^^^ (byte.toUInt16 <<< (8 : UInt16)))) 0

/-- A check byte that collides with a framing byte is incremented. -/
def escape (byte : UInt8) : UInt8 :=
  if byte = 0x28 ∨ byte = 0x0A ∨ byte = 0x0D then byte + 1 else byte

/-- The two check bytes as they appear on the wire. -/
def frameCrc (data : List UInt8) : UInt8 × UInt8 :=
  let crc := xmodem data
  (escape (crc >>> 8).toUInt8, escape (crc &&& 0xFF).toUInt8)

/-- The nine commands this producer sends. -/
inductive Command
  | qid | qvfw | qvfw3 | qmn | qgmn | qmod | qpigs | qpigs2 | qpiws
  deriving DecidableEq, Repr

/-- The five identity commands. -/
def staticCommands : List Command := [.qid, .qvfw, .qvfw3, .qmn, .qgmn]

/-- The four polled commands. -/
def liveCommands : List Command := [.qmod, .qpigs, .qpigs2, .qpiws]

theorem nodup_staticCommands : staticCommands.Nodup := by decide

theorem nodup_liveCommands : liveCommands.Nodup := by decide

/-- No command is both of the identity and of a cycle. -/
theorem static_not_live {c : Command} (hc : c ∈ staticCommands) : c ∉ liveCommands := by
  revert hc
  cases c <;> decide

/-- `Command::text`: the letters of the command. -/
def Command.text : Command → String
  | .qid => "QID"
  | .qvfw => "QVFW"
  | .qvfw3 => "QVFW3"
  | .qmn => "QMN"
  | .qgmn => "QGMN"
  | .qmod => "QMOD"
  | .qpigs => "QPIGS"
  | .qpigs2 => "QPIGS2"
  | .qpiws => "QPIWS"

/-- `CR`: what ends a request and a response. -/
def cr : UInt8 := 0x0D

/-- `(`. -/
def leading : UInt8 := 0x28

/-- The ASCII bytes of a text. -/
def asciiBytes (text : String) : List UInt8 := text.toList.map fun c => c.toNat.toUInt8

/-- `<ASCII command><CRC hi><CRC lo><CR>`. -/
def Command.request (c : Command) : List UInt8 :=
  let text := asciiBytes c.text
  let crc := frameCrc text
  text ++ [crc.1, crc.2] ++ [cr]

/-- Different commands have different requests. -/
theorem request_injective {c d : Command} : c.request = d.request → c = d := by
  cases c <;> cases d <;> decide +kernel

/-- What came back for one command. -/
inductive Response
  | payload (bytes : List UInt8)
  | nak
  deriving DecidableEq, Repr

/-- `FrameError`: why a frame is no response. -/
inductive FrameError
  | tooShort (len : Nat)
  | notAResponse (byte : UInt8)
  | unterminated
  | crc (computed received : UInt8 × UInt8)
  deriving DecidableEq, Repr

/-- `b"NAK"`. -/
def nak : List UInt8 := [0x4E, 0x41, 0x4B]

/-- Verify one whole frame, `(` through `<CR>` inclusive, and return its payload. -/
def parseResponse (frame : List UInt8) : Except FrameError Response :=
  if frame.length < 4 then .error (.tooShort frame.length)
  else if frame.getD 0 0 ≠ leading then .error (.notAResponse (frame.getD 0 0))
  else if frame.getLast? ≠ some cr then .error .unterminated
  else
    let covered := frame.take (frame.length - 3)
    -- what the CRC does not cover: its own two bytes and the `<CR>`
    let received := (frame.getD (frame.length - 3) 0, frame.getD (frame.length - 2) 0)
    let computed := frameCrc covered
    if computed ≠ received then .error (.crc computed received)
    else
      let payload := covered.drop 1
      -- a refusal is a well-formed frame, so this is asked last
      if payload = nak then .ok .nak else .ok (.payload payload)

/-- Build a well-formed response frame. -/
def buildResponse (payload : List UInt8) : List UInt8 :=
  let body := leading :: payload
  let crc := frameCrc body
  body ++ [crc.1, crc.2] ++ [cr]

/-! ## Reading a frame back -/

/-- The parser on a body followed by two check bytes and a last byte. -/
theorem parseResponse_append {first : UInt8} {payload : List UInt8} {hi lo last : UInt8} :
    parseResponse (first :: payload ++ [hi, lo, last]) =
      if first ≠ leading then .error (.notAResponse first)
      else if last ≠ cr then .error .unterminated
      else if frameCrc (first :: payload) ≠ (hi, lo) then
        .error (.crc (frameCrc (first :: payload)) (hi, lo))
      else if payload = nak then .ok .nak
      else .ok (.payload payload) := by
  have hlen : (first :: payload ++ [hi, lo, last]).length = payload.length + 4 := by simp
  have htake : (first :: payload ++ [hi, lo, last]).take (payload.length + 4 - 3)
      = first :: payload := List.take_left' (by simp)
  -- the three bytes behind the body, by their distance from the end
  have hhi : (first :: payload ++ [hi, lo, last]).getD (payload.length + 4 - 3) 0 = hi := by
    rw [List.getD_eq_getElem?_getD, List.getElem?_append_right (by simp)]
    simp
  have hlo : (first :: payload ++ [hi, lo, last]).getD (payload.length + 4 - 2) 0 = lo := by
    rw [List.getD_eq_getElem?_getD, List.getElem?_append_right (by simp)]
    simp
  have hlast : (first :: payload ++ [hi, lo, last]).getLast? = some last := by
    rw [List.getLast?_append]
    rfl
  rw [parseResponse, hlen, if_neg (by omega), hlast, htake, hhi, hlo]
  simp

/-- **What is built is read back**, whatever the payload. -/
theorem parseResponse_buildResponse (payload : List UInt8) :
    parseResponse (buildResponse payload) =
      if payload = nak then .ok .nak else .ok (.payload payload) := by
  rw [buildResponse, List.append_assoc]
  refine parseResponse_append.trans ?_
  rw [if_neg (not_not.mpr rfl), if_neg (not_not.mpr rfl), if_neg (not_not.mpr rfl)]

end HostServices.Inverter
