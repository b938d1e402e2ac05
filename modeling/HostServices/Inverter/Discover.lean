import HostServices.Inverter.Record
import HostServices.Lib.Protocol
import HostServices.Lib.Text
import HostServices.Serial.Exclusion
import HostServices.Serial.Order

/-!
# Finding the inverter (`discover.rs` and `main.rs` of `inverter-monitoring`)

The devices are tried in turn: each is opened, listened to, and asked for its serial number only
if it kept quiet. What speaks without being asked is the BMS, which must never be written to.

- `Deed`, `Host`: what the program did, and what it is answered;
- `probe`, `tryCandidates`, `connect`, `connectWithin`: the source's functions;
- `Hand`, `Hand.next`: the protocol between the program and the devices;
- `connectWithin_follows`: a search follows it, and ends with the inverter in hand or nothing;
- `asked_of_follows`: what the protocol says about whatever is written;
- `sweep_accounts`: which devices a sweep tries.
-/

namespace HostServices.Inverter

open HostServices.Lib

/-! ## The outside -/

/-- Something the program did, with what came of it. -/
inductive Deed
  | listed (all : List Candidate)
  | recalled (device : Option String)
  | opened (tty : String) (result : Except String Serial.Opened)
  | listened (tty : String) (result : Except String Nat)
  | wrote (tty : String) (request : List UInt8) (result : Except String Unit)
  | read (tty : String) (result : Except String (Option (List UInt8)))
  | dropped (tty : String)
  | slept
  | remembered (device : String)
  | polled (cycle : Cycle)
  | published (resource : List (String × Value)) (records : List Record)

/-- Everything the program is answered, which may depend on all it did before. -/
structure Host where
  enumerate : List Deed → List Candidate
  /-- what the remembered-device file holds -/
  lastDevice : List Deed → Option String
  shuffleSeed : List Deed → UInt64
  openPort : List Deed → String → Except String Serial.Opened
  listen : List Deed → String → Except String Nat
  writeRequest : List Deed → String → List UInt8 → Except String Unit
  readFrame : List Deed → String → Except String (Option (List UInt8))
  /-- whether the discovery window is still open -/
  windowOpen : List Deed → Bool
  /-- `Instant::now`, in milliseconds -/
  now : List Deed → Nat
  hostname : List Deed → Option String
  bootId : List Deed → Option String
  /-- the by-id name of a device -/
  byIdOf : List Deed → String → Option String

namespace Host

variable (host : Host)

/-- A port of the host. -/
def transport (tty : String) : Transport (List Deed) where
  writeRequest request log :=
    let result := host.writeRequest log tty request
    (result, log ++ [.wrote tty request result])
  readFrame log :=
    let result := host.readFrame log tty
    (result, log ++ [.read tty result])

/-- `SerialPort::listen`: what is pushed unasked while nothing is written. -/
def listenTo (tty : String) (log : List Deed) : Except String Nat × List Deed :=
  let result := host.listen log tty
  (result, log ++ [.listened tty result])

end Host

/-! ## The code -/

/-- `Probe`: what a probe found out about a device. -/
inductive Probe
  | chatty (bytes : Nat)
  | inverter (serialNumber : String)
  | notAnInverter (reason : String)
  deriving DecidableEq, Repr

/-- What an answer to `QID` says about the device. -/
def Probe.ofFrame (frame : List UInt8) : Probe :=
  match parseResponse frame with
  | .ok (.payload payload) =>
    match parseIdentity "QID" payload with
    | .ok serialNumber => .inverter serialNumber
    | .error reason => .notAnInverter reason
  | .ok .nak => .notAnInverter "NAK to QID"
  | .error e => .notAnInverter e.message

/-- Decide what one open port is. -/
def probe {σ : Type} (t : Transport σ) (listen : σ → Except String Nat × σ) (s : σ) :
    Except String Probe × σ :=
  match listen s with
  | (.error e, s) => (.error e, s)
  | (.ok unsolicited, s) =>
    -- a device that talks unprompted is not written to
    if 0 < unsolicited then (.ok (.chatty unsolicited), s)
    else
      match t.writeRequest Command.qid.request s with
      | (.error e, s) => (.error e, s)
      | (.ok (), s) =>
        match t.readFrame s with
        | (.error e, s) => (.error e, s)
        | (.ok none, s) => (.ok (.notAnInverter "no response to QID"), s)
        | (.ok (some frame), s) => (.ok (Probe.ofFrame frame), s)

/-- `read_remembered`. -/
def readRemembered (text : Option String) : Option String :=
  (text.map fun text => String.ofList (trim text.toList)).filter (· ≠ "")

section Connect

variable (host : Host)

/-- The loop of `connect` over the candidates. -/
def tryCandidates : List Candidate → List Deed → Option (Candidate × String) × List Deed
  | [], log => (none, log)
  | candidate :: rest, log =>
    let opened := host.openPort log candidate.tty
    let log := log ++ [.opened candidate.tty opened]
    match opened with
    | .ok .port =>
      match probe (host.transport candidate.tty) (host.listenTo candidate.tty) log with
      | (.ok (.inverter serialNumber), log) => (some (candidate, serialNumber), log)
      | (_, log) => tryCandidates rest (log ++ [.dropped candidate.tty])
    -- held by the other producer, or not to be opened at all
    | .ok .busy | .error _ => tryCandidates rest log

/-- Probe candidates until one answers `QID`. -/
def connect (devDir : String) (log : List Deed) :
    Except Lib.Stop (Candidate × String) × List Deed :=
  let all := host.enumerate log
  let log := log ++ [.listed all]
  if all = [] then (.error (.err s!"no ttyUSB devices under {devDir}"), log)
  else
    let remembered := readRemembered (host.lastDevice log)
    let log := log ++ [.recalled remembered]
    match order all remembered (host.shuffleSeed log) with
    | .error e => (.error e, log)
    | .ok candidates =>
      match tryCandidates host candidates log with
      | (some found, log) => (.ok found, log)
      | (none, log) => (.error (.err "no inverter found on any USB serial device"), log)

/-- `connect` until it finds something or the window is over; `none` if that has not come
about after `sweeps` of them. -/
def connectWithin (devDir : String) :
    Nat → List Deed → Option (Except Lib.Stop (Candidate × String)) × List Deed
  | 0, log => (none, log)
  | sweeps + 1, log =>
    match connect host devDir log with
    | (.ok found, log) => (some (.ok found), log)
    | (.error (.panic message), log) => (some (.error (.panic message)), log)
    | (.error (.err message), log) =>
      if host.windowOpen log then connectWithin devDir sweeps (log ++ [.slept])
      else (some (.error (.err message)), log)

end Connect

/-! ## The protocol with the devices -/

/-- What the program has in hand: nothing, or one device, of which it knows nothing yet, or that
it kept quiet, or that it is the inverter; or the inverter, which it has settled on. -/
inductive Hand
  | nothing
  | fresh (tty : String)
  | quiet (tty : String)
  | identified (tty : String)
  | settled (tty : String)
  deriving DecidableEq, Repr

/-- The device in hand, if there is one. -/
def Hand.tty? : Hand → Option String
  | .nothing => none
  | .fresh tty | .quiet tty | .identified tty | .settled tty => some tty

/-- A reply with which a device tells its serial number. -/
def identifies : Except String (Option (List UInt8)) → Bool
  | .ok (some frame) =>
    match Probe.ofFrame frame with
    | .inverter _ => true
    | .chatty _ | .notAnInverter _ => false
  | .ok none | .error _ => false

/-- What may come next: one device is opened at a time; it is listened to before anything is
written to it; only what kept quiet is asked for its serial number, and only what told it is
settled on, for good, and asked anything else, which is always one of the nine questions. -/
def Hand.next : Hand → Deed → Option Hand
  | .nothing, .opened tty (.ok .port) => some (.fresh tty)
  | .nothing, .opened _ _ => some .nothing
  | .nothing, .listed _ | .nothing, .recalled _ | .nothing, .slept => some .nothing
  | .fresh tty, .listened tty' heard =>
    if tty' = tty then some (if heard = .ok 0 then .quiet tty else .fresh tty) else none
  | .quiet tty, .wrote tty' request _ =>
    if tty' = tty ∧ request = Command.qid.request then some (.quiet tty) else none
  | .quiet tty, .read tty' reply =>
    if tty' = tty then some (if identifies reply then .identified tty else .quiet tty) else none
  | .identified tty, .remembered _ => some (.settled tty)
  | .settled tty, .wrote tty' request _ =>
    if tty' = tty ∧ ∃ c ∈ staticCommands ++ liveCommands, request = Command.request c then
      some (.settled tty)
    else none
  | .settled tty, .read tty' _ => if tty' = tty then some (.settled tty) else none
  | .settled tty, .polled _ | .settled tty, .published _ _ | .settled tty, .slept =>
    some (.settled tty)
  | .fresh tty, .dropped tty' | .quiet tty, .dropped tty' =>
    if tty' = tty then some .nothing else none
  | _, _ => none

namespace Hand

variable {tty : String}

theorem next_heard (heard : Except String Nat) :
    (fresh tty).next (.listened tty heard)
      = some (if heard = .ok 0 then .quiet tty else .fresh tty) :=
  if_pos rfl

theorem next_asked (result : Except String Unit) :
    (quiet tty).next (.wrote tty Command.qid.request result) = some (.quiet tty) :=
  if_pos ⟨rfl, rfl⟩

theorem next_answered (reply : Except String (Option (List UInt8))) :
    (quiet tty).next (.read tty reply)
      = some (if identifies reply then .identified tty else .quiet tty) :=
  if_pos rfl

theorem next_question (c : Command) (result : Except String Unit) :
    (settled tty).next (.wrote tty c.request result) = some (.settled tty) :=
  if_pos ⟨rfl, c, by cases c <;> decide, rfl⟩

theorem next_reply (reply : Except String (Option (List UInt8))) :
    (settled tty).next (.read tty reply) = some (.settled tty) :=
  if_pos rfl

theorem next_dropped {hand : Hand} (h : hand = .fresh tty ∨ hand = .quiet tty) :
    hand.next (.dropped tty) = some .nothing := by
  rcases h with rfl | rfl <;> exact if_pos rfl

/-- The device is known to have kept quiet. -/
def Trusts (tty : String) : Hand → Prop
  | .quiet tty' | .identified tty' | .settled tty' => tty' = tty
  | .nothing | .fresh _ => False

/-- The device is known to be the inverter. -/
def Knows (tty : String) : Hand → Prop
  | .identified tty' | .settled tty' => tty' = tty
  | .nothing | .fresh _ | .quiet _ => False

variable {hand hand' : Hand} {deed : Deed}

/-- What a deed can do to what is in hand. -/
inductive Step : Hand → Deed → Hand → Prop
  | opened (tty : String) : Step .nothing (.opened tty (.ok .port)) (.fresh tty)
  | refused {tty : String} {result : Except String Serial.Opened} (h : result ≠ .ok .port) :
    Step .nothing (.opened tty result) .nothing
  | listed (all : List Candidate) : Step .nothing (.listed all) .nothing
  | recalled (device : Option String) : Step .nothing (.recalled device) .nothing
  | paused : Step .nothing .slept .nothing
  | hushed (tty : String) : Step (.fresh tty) (.listened tty (.ok 0)) (.quiet tty)
  | chatty {tty : String} {heard : Except String Nat} (h : heard ≠ .ok 0) :
    Step (.fresh tty) (.listened tty heard) (.fresh tty)
  | asked (tty : String) (result : Except String Unit) :
    Step (.quiet tty) (.wrote tty Command.qid.request result) (.quiet tty)
  | identified {tty : String} {reply : Except String (Option (List UInt8))}
    (h : identifies reply) : Step (.quiet tty) (.read tty reply) (.identified tty)
  | unidentified {tty : String} {reply : Except String (Option (List UInt8))}
    (h : ¬ identifies reply) : Step (.quiet tty) (.read tty reply) (.quiet tty)
  | remembered (tty device : String) :
    Step (.identified tty) (.remembered device) (.settled tty)
  | question (tty : String) (c : Command) (result : Except String Unit) :
    Step (.settled tty) (.wrote tty c.request result) (.settled tty)
  | answer (tty : String) (reply : Except String (Option (List UInt8))) :
    Step (.settled tty) (.read tty reply) (.settled tty)
  | polled (tty : String) (cycle : Cycle) : Step (.settled tty) (.polled cycle) (.settled tty)
  | published (tty : String) (resource : List (String × Value)) (records : List Record) :
    Step (.settled tty) (.published resource records) (.settled tty)
  | slept (tty : String) : Step (.settled tty) .slept (.settled tty)
  | dropped (tty : String) : Step (.fresh tty) (.dropped tty) .nothing
  | hushed_dropped (tty : String) : Step (.quiet tty) (.dropped tty) .nothing

/-- The protocol allows nothing else. -/
theorem step_of_next (h : hand.next deed = some hand') : Step hand deed hand' := by
  revert h
  fun_cases next hand deed <;> intro h
  case case1 tty =>
    cases h
    exact .opened tty
  case case2 tty result hresult =>
    cases h
    exact .refused hresult
  case case3 all =>
    cases h
    exact .listed all
  case case4 device =>
    cases h
    exact .recalled device
  case case5 =>
    cases h
    exact .paused
  case case6 tty heard =>
    split_ifs at h with hheard <;> cases h
    · exact hheard ▸ .hushed tty
    · exact .chatty hheard
  case case8 tty tty' request result hsame =>
    obtain ⟨rfl, rfl⟩ := hsame
    cases h
    exact .asked tty' result
  case case10 tty reply =>
    split_ifs at h with hreply <;> cases h
    · exact .identified hreply
    · exact .unidentified hreply
  case case12 tty device =>
    cases h
    exact .remembered tty device
  case case13 tty tty' request result hsame =>
    obtain ⟨rfl, c, -, rfl⟩ := hsame
    cases h
    exact .question tty' c result
  case case15 tty reply =>
    cases h
    exact .answer tty reply
  case case17 tty cycle =>
    cases h
    exact .polled tty cycle
  case case18 tty resource records =>
    cases h
    exact .published tty resource records
  case case19 tty =>
    cases h
    exact .slept tty
  case case20 tty =>
    cases h
    exact .dropped tty
  case case22 tty =>
    cases h
    exact .hushed_dropped tty
  -- what `next` refuses
  all_goals cases h

/-- A device comes to hand by being opened. -/
theorem opened_of_next (h : hand.next deed = some hand') (hbefore : hand.tty? ≠ some tty)
    (hafter : hand'.tty? = some tty) : deed = .opened tty (.ok .port) ∧ hand' = .fresh tty := by
  cases step_of_next h <;> simp_all [tty?]

/-- A device is trusted once nothing was heard of it. -/
theorem heard_of_next (h : hand.next deed = some hand') (hbefore : ¬ hand.Trusts tty)
    (hafter : hand'.Trusts tty) : deed = .listened tty (.ok 0) := by
  cases step_of_next h <;> simp_all [Trusts]

/-- A device is known once it has told its serial number. -/
theorem answered_of_next (h : hand.next deed = some hand') (hbefore : ¬ hand.Knows tty)
    (hafter : hand'.Knows tty) : ∃ reply, deed = .read tty reply ∧ identifies reply := by
  cases step_of_next h <;> simp_all [Knows]

/-- While a device is in hand nothing is opened and nothing is dropped. -/
theorem kept_of_next (h : hand.next deed = some hand') (hbefore : hand.tty? = some tty)
    (hafter : hand'.tty? = some tty) :
    (∀ tty', deed ≠ .dropped tty') ∧ ∀ tty' result, deed ≠ .opened tty' result := by
  cases step_of_next h <;> simp_all [tty?]

/-- What may be written to whom. -/
theorem wrote_of_next {request : List UInt8} {result : Except String Unit}
    (h : hand.next (.wrote tty request result) = some hand') :
    (hand = .quiet tty ∧ request = Command.qid.request) ∨
      hand = .settled tty ∧ ∃ c : Command, request = c.request := by
  cases step_of_next h with
  | asked => exact .inl ⟨rfl, rfl⟩
  | question tty c result => exact .inr ⟨rfl, c, rfl⟩

theorem knows_of_next {reply : Except String (Option (List UInt8))}
    (hidentifies : identifies reply) (h : hand.next (.read tty reply) = some hand') :
    hand'.Knows tty := by
  cases step_of_next h with
  | identified => exact rfl
  | unidentified hnot => exact absurd hidentifies hnot
  | answer => exact rfl

/-- The inverter stays in hand, and nothing else is opened or written to. -/
theorem stays_of_next (h : hand.next deed = some hand') (hknows : hand.Knows tty) :
    hand'.Knows tty ∧ (∀ tty' result, deed ≠ .opened tty' result) ∧
      ∀ tty' request result, deed = .wrote tty' request result → tty' = tty := by
  cases step_of_next h <;> simp_all [Knows]

/-- Nothing is polled and nothing published before the program settled on a device. -/
theorem settled_of_next (h : hand.next deed = some hand')
    (hdeed : (∃ cycle, deed = .polled cycle) ∨
      ∃ resource records, deed = .published resource records) :
    ∃ tty, hand = .settled tty := by
  cases step_of_next h <;> simp_all

/-- From then on there is no other device. -/
theorem settled_stays {deed : Deed} (h : (settled tty).next deed = some hand') :
    hand' = .settled tty := by
  cases step_of_next h <;> rfl

end Hand

theorem follows_concat {hand hand' hand'' : Hand} {log : List Deed} {deed : Deed}
    (h : follows Hand.next hand log = some hand') (hnext : hand'.next deed = some hand'') :
    follows Hand.next hand (log ++ [deed]) = some hand'' :=
  follows_append.mpr ⟨hand', h, follows_cons.mpr ⟨hand'', hnext, rfl⟩⟩

/-- A frame identifies just when the probe finds the inverter by it. -/
theorem identifies_iff {frame : List UInt8} :
    identifies (.ok (some frame)) = true ↔
      ∃ serialNumber, Probe.ofFrame frame = .inverter serialNumber := by
  rw [identifies]
  cases Probe.ofFrame frame with
  | inverter serialNumber => exact iff_of_true rfl ⟨_, rfl⟩
  | chatty bytes => exact iff_of_false nofun nofun
  | notAnInverter reason => exact iff_of_false nofun nofun

section Search

variable {host : Host}

/-- A probe keeps the device in hand, and knows it for the inverter exactly if it says so. -/
theorem probe_follows {tty : String} {log : List Deed}
    (h : follows Hand.next .nothing log = some (.fresh tty)) :
    ∃ hand, follows Hand.next .nothing
        (probe (host.transport tty) (host.listenTo tty) log).2 = some hand ∧
      ((∃ serialNumber, (probe (host.transport tty) (host.listenTo tty) log).1
          = .ok (.inverter serialNumber)) ∧ hand = .identified tty ∨
        (∀ serialNumber, (probe (host.transport tty) (host.listenTo tty) log).1
          ≠ .ok (.inverter serialNumber)) ∧ (hand = .fresh tty ∨ hand = .quiet tty)) := by
  unfold probe Host.listenTo Host.transport
  have hheard := follows_concat h (Hand.next_heard (host.listen log tty))
  rcases hlisten : host.listen log tty with e | unsolicited <;> rw [hlisten] at hheard
  · exact ⟨_, hheard, .inr ⟨nofun, .inl rfl⟩⟩
  dsimp only
  by_cases hchatty : 0 < unsolicited
  · rw [if_pos hchatty]
    rw [if_neg (by rintro ⟨⟩; exact Nat.lt_irrefl 0 hchatty)] at hheard
    exact ⟨_, hheard, .inr ⟨nofun, .inl rfl⟩⟩
  obtain rfl : unsolicited = 0 := Nat.eq_zero_of_not_pos hchatty
  rw [if_neg hchatty]
  rw [if_pos rfl] at hheard
  generalize log ++ [.listened tty (.ok 0)] = log at hheard ⊢
  have hasked := follows_concat hheard
    (Hand.next_asked (host.writeRequest log tty Command.qid.request))
  rcases hwrite : host.writeRequest log tty Command.qid.request with e | ⟨⟩ <;>
    rw [hwrite] at hasked
  · exact ⟨_, hasked, .inr ⟨nofun, .inr rfl⟩⟩
  dsimp only
  generalize log ++ [.wrote tty Command.qid.request (.ok ())] = log at hasked ⊢
  have hanswered := follows_concat hasked (Hand.next_answered (host.readFrame log tty))
  rcases hread : host.readFrame log tty with e | _ | frame <;> rw [hread] at hanswered
  · exact ⟨_, hanswered, .inr ⟨nofun, .inr rfl⟩⟩
  · exact ⟨_, hanswered, .inr ⟨nofun, .inr rfl⟩⟩
  · dsimp only
    refine ⟨_, hanswered, ?_⟩
    have hfound := @identifies_iff frame
    split_ifs with hidentifies
    · exact .inl ⟨(hfound.mp hidentifies).imp fun _ h => congrArg Except.ok h, rfl⟩
    · exact .inr ⟨fun serialNumber h =>
        hidentifies (hfound.mpr ⟨serialNumber, Except.ok.inj h⟩), .inr rfl⟩

/-- What a search for the inverter leaves in hand: the one device it found, or nothing. -/
def inHand : Option (Candidate × String) → Hand
  | some (candidate, _) => .identified candidate.tty
  | none => .nothing

/-- A sweep keeps to the order, and ends with the inverter in hand, or with nothing. -/
theorem tryCandidates_follows (candidates : List Candidate) {log : List Deed}
    (h : follows Hand.next .nothing log = some .nothing) :
    follows Hand.next .nothing (tryCandidates host candidates log).2
      = some (inHand (tryCandidates host candidates log).1) := by
  induction candidates generalizing log with
  | nil => exact h
  | cons candidate rest ih =>
    rw [tryCandidates]
    rcases host.openPort log candidate.tty with e | _ | _
    · exact ih (follows_concat h rfl)
    · have hopened : follows Hand.next .nothing (log ++ [.opened candidate.tty (.ok .port)])
          = some (.fresh candidate.tty) := follows_concat h rfl
      obtain ⟨hand, hfollows, hfound⟩ := @probe_follows host _ _ hopened
      dsimp only
      generalize probe (host.transport candidate.tty) (host.listenTo candidate.tty)
        (log ++ [.opened candidate.tty (.ok .port)]) = probed at hfollows hfound ⊢
      have hdropped : (∀ serialNumber, probed.1 ≠ .ok (.inverter serialNumber)) →
          follows Hand.next .nothing (probed.2 ++ [.dropped candidate.tty]) = some .nothing := by
        intro hnot
        rcases hfound with ⟨⟨serialNumber, hfound⟩, -⟩ | ⟨-, hhand⟩
        · exact absurd hfound (hnot serialNumber)
        · exact follows_concat hfollows (Hand.next_dropped hhand)
      rcases probed with ⟨e | _ | serialNumber | _, log'⟩
      · exact ih (hdropped nofun)
      · exact ih (hdropped nofun)
      · rcases hfound with ⟨-, rfl⟩ | ⟨hnot, -⟩
        · exact hfollows
        · exact absurd rfl (hnot serialNumber)
      · exact ih (hdropped nofun)
    · exact ih (follows_concat h rfl)

/-- A sweep ends with the inverter in hand, or with nothing. -/
theorem connect_follows (devDir : String) {log : List Deed}
    (h : follows Hand.next .nothing log = some .nothing) :
    follows Hand.next .nothing (connect host devDir log).2
      = some (inHand (connect host devDir log).1.toOption) := by
  unfold connect
  dsimp only
  have hlisted := follows_concat h
    (rfl : Hand.nothing.next (.listed (host.enumerate log)) = some .nothing)
  split_ifs with hempty
  · exact hlisted
  generalize log ++ [.listed (host.enumerate log)] = log' at hlisted ⊢
  have hrecalled := follows_concat hlisted
    (rfl : Hand.nothing.next (.recalled (readRemembered (host.lastDevice log'))) = some .nothing)
  generalize log' ++ [.recalled (readRemembered (host.lastDevice log'))] = log'' at hrecalled ⊢
  rcases order (host.enumerate log) (readRemembered (host.lastDevice log'))
    (host.shuffleSeed log'') with e | candidates
  · exact hrecalled
  · have htried := @tryCandidates_follows host candidates _ hrecalled
    dsimp only
    rcases htry : tryCandidates host candidates log'' with ⟨_ | found, log₃⟩ <;>
      rw [htry] at htried
    · exact htried
    · exact htried

/-- What a search within the window came to. -/
def searched (result : Option (Except Lib.Stop (Candidate × String))) : Hand :=
  inHand (result.bind Except.toOption)

/-- **A search keeps to the protocol**, however many sweeps it takes. -/
theorem connectWithin_follows (devDir : String) (sweeps : Nat) {log : List Deed}
    (h : follows Hand.next .nothing log = some .nothing) :
    follows Hand.next .nothing (connectWithin host devDir sweeps log).2
      = some (searched (connectWithin host devDir sweeps log).1) := by
  induction sweeps generalizing log with
  | zero => exact h
  | succ sweeps ih =>
    have hsweep := @connect_follows host devDir _ h
    rw [connectWithin]
    rcases hconnect : connect host devDir log with ⟨(message | message) | found, log'⟩ <;>
      rw [hconnect] at hsweep
    · dsimp only
      split_ifs
      · exact ih (follows_concat hsweep rfl)
      · exact hsweep
    · exact hsweep
    · exact hsweep

end Search

/-! ## What is written -/

/-- How it came to a question: the device was opened, kept quiet while it was listened to, and
has been in hand ever since; anything but the serial number is asked of a device that told its
serial number. -/
structure Entitled (tty : String) (c : Command) (session : List Deed) : Prop where
  not_dropped : ∀ tty', .dropped tty' ∉ session
  not_opened : ∀ tty' result, .opened tty' result ∉ session
  quiet : .listened tty (.ok 0) ∈ session
  identified : c ≠ .qid → ∃ reply, .read tty reply ∈ session ∧ identifies reply

/-- Whatever is asked was asked of a device that had come as far as that. -/
theorem asked_of_follows {tty : String} {request : List UInt8} {result : Except String Unit}
    {before after : List Deed} {hand : Hand}
    (h : follows Hand.next .nothing (before ++ .wrote tty request result :: after) = some hand) :
    ∃ c earlier session, request = Command.request c ∧
      before = earlier ++ .opened tty (.ok .port) :: session ∧ Entitled tty c session := by
  obtain ⟨asking, hbefore, hrest⟩ := follows_append.mp h
  obtain ⟨_, hwrote, -⟩ := follows_cons.mp hrest
  have hknown := Hand.wrote_of_next hwrote
  have htty : asking.tty? = some tty := by
    rcases hknown with ⟨rfl, -⟩ | ⟨rfl, -⟩ <;> rfl
  have htrusts : asking.Trusts tty := by
    rcases hknown with ⟨rfl, -⟩ | ⟨rfl, -⟩ <;> rfl
  -- from where the device was opened
  obtain ⟨earlier, deed, session, idle, _, rfl, hearlier, hidle, hopen, hfresh, hkept⟩ :=
    last_entry (P := fun hand => hand.tty? = some tty) hbefore nofun htty
  obtain ⟨rfl, rfl⟩ := Hand.opened_of_next hopen hidle hfresh
  have hsession : follows Hand.next (.fresh tty) session = some asking := by
    obtain ⟨idle', hearlier', htail⟩ := follows_append.mp hbefore
    rw [hearlier] at hearlier'
    cases hearlier'
    obtain ⟨fresh', hopen', hsession⟩ := follows_cons.mp htail
    rw [hopen] at hopen'
    cases hopen'
    exact hsession
  obtain ⟨c, rfl, hqid⟩ : ∃ c : Command, request = c.request ∧
      (c ≠ .qid → asking.Knows tty) := by
    rcases hknown with ⟨-, rfl⟩ | ⟨rfl, c, rfl⟩
    · exact ⟨.qid, rfl, fun hne => absurd rfl hne⟩
    · exact ⟨c, rfl, fun _ => rfl⟩
  refine ⟨c, earlier, session, rfl, rfl, fun tty' hmem => ?_, fun tty' result hmem => ?_, ?_,
    fun hne => ?_⟩
  · obtain ⟨front, back, rfl⟩ := List.append_of_mem hmem
    obtain ⟨_, _, ht, hnext, hu⟩ := hkept.entry rfl
    exact (Hand.kept_of_next hnext ht hu).1 tty' rfl
  · obtain ⟨front, back, rfl⟩ := List.append_of_mem hmem
    obtain ⟨_, _, ht, hnext, hu⟩ := hkept.entry rfl
    exact (Hand.kept_of_next hnext ht hu).2 tty' result rfl
  · obtain ⟨front, deed, back, _, _, rfl, -, hnot, hnext, hheard, -⟩ :=
      last_entry (P := Hand.Trusts tty) hsession nofun htrusts
    rw [Hand.heard_of_next hnext hnot hheard]
    exact List.mem_append_right _ List.mem_cons_self
  · obtain ⟨front, deed, back, _, _, rfl, -, hnot, hnext, hanswered, -⟩ :=
      last_entry (P := Hand.Knows tty) hsession nofun (hqid hne)
    obtain ⟨reply, rfl, hreply⟩ := Hand.answered_of_next hnext hnot hanswered
    exact ⟨reply, List.mem_append_right _ List.mem_cons_self, hreply⟩

/-- Once a device has told its serial number, no other is opened or written to. -/
theorem settled_of_follows {tty : String} {reply : Except String (Option (List UInt8))}
    {before after : List Deed} {hand : Hand} (hidentifies : identifies reply)
    (h : follows Hand.next .nothing (before ++ .read tty reply :: after) = some hand) :
    ∀ deed ∈ after, (∀ tty' result, deed ≠ .opened tty' result) ∧
      ∀ tty' request result, deed = .wrote tty' request result → tty' = tty := by
  intro deed hmem
  obtain ⟨front, back, rfl⟩ := List.append_of_mem hmem
  obtain ⟨reading, -, hrest⟩ := follows_append.mp h
  obtain ⟨known, hread, hafter⟩ := follows_cons.mp hrest
  obtain ⟨standing, hfront, hback⟩ := follows_append.mp hafter
  obtain ⟨_, hdeed, -⟩ := follows_cons.mp hback
  have hknows := follows_keeps (P := Hand.Knows tty) (fun hs ha => (Hand.stays_of_next ha hs).1)
    (Hand.knows_of_next hidentifies hread) hfront
  exact (Hand.stays_of_next hdeed hknows).2

/-- Nothing is polled and nothing published while the inverter is looked for. -/
theorem unsettled_of_follows {log : List Deed} {hand : Hand}
    (h : follows Hand.next .nothing log = some hand) (hhand : ∀ tty, hand ≠ .settled tty) :
    (∀ cycle, .polled cycle ∉ log) ∧ ∀ resource records, .published resource records ∉ log := by
  have hnone : ∀ deed ∈ log, ¬ ((∃ cycle, deed = .polled cycle) ∨
      ∃ resource records, deed = .published resource records) := by
    intro deed hmem hdeed
    obtain ⟨front, back, rfl⟩ := List.append_of_mem hmem
    obtain ⟨_, _, hrest⟩ := follows_append.mp h
    obtain ⟨_, hnext, hback⟩ := follows_cons.mp hrest
    obtain ⟨tty, rfl⟩ := Hand.settled_of_next hnext hdeed
    obtain rfl := Hand.settled_stays hnext
    exact hhand tty (follows_keeps (P := (· = Hand.settled tty))
      (fun hs ha => Hand.settled_stays (hs ▸ ha)) rfl hback)
  exact ⟨fun cycle hmem => hnone _ hmem (.inl ⟨cycle, rfl⟩),
    fun resource records hmem => hnone _ hmem (.inr ⟨resource, records, rfl⟩)⟩

/-! ## A sweep -/

/-- The devices that were tried. -/
def opens (log : List Deed) : List String :=
  log.filterMap fun
    | .opened tty _ => some tty
    | _ => none

theorem opens_append (log log' : List Deed) : opens (log ++ log') = opens log ++ opens log' :=
  List.filterMap_append

section Sweep

variable (host : Host)

/-- The device was tried, after all this and before the sweep was over. -/
def Attempted (start log final : List Deed) (candidate : Candidate) : Prop :=
  start <+: log ∧ log ++ [.opened candidate.tty (host.openPort log candidate.tty)] <+: final

/-- When the device was tried it could not be had, or did not tell its serial number. -/
def Rejected (start final : List Deed) (candidate : Candidate) : Prop :=
  ∃ log, Attempted host start log final candidate ∧
    (host.openPort log candidate.tty ≠ .ok .port ∨
      ∀ serialNumber, (probe (host.transport candidate.tty) (host.listenTo candidate.tty)
        (log ++ [.opened candidate.tty (.ok .port)])).1 ≠ .ok (.inverter serialNumber))

/-- When the device was tried it could be had, and told its serial number. -/
def Told (start final : List Deed) (candidate : Candidate) (serialNumber : String) : Prop :=
  ∃ log, Attempted host start log final candidate ∧
    host.openPort log candidate.tty = .ok .port ∧
    (probe (host.transport candidate.tty) (host.listenTo candidate.tty)
      (log ++ [.opened candidate.tty (.ok .port)])).1 = .ok (.inverter serialNumber)

variable {host}

/-- A probe opens nothing, and takes back nothing that was done. -/
theorem probe_done (tty : String) (log : List Deed) :
    ∃ done, (probe (host.transport tty) (host.listenTo tty) log).2 = log ++ done ∧
      opens done = [] := by
  unfold probe Host.listenTo Host.transport
  dsimp only
  rcases host.listen log tty with e | unsolicited
  · exact ⟨_, rfl, rfl⟩
  dsimp only
  split_ifs
  · exact ⟨_, rfl, rfl⟩
  generalize hheard : log ++ [.listened tty (.ok unsolicited)] = heard
  rcases host.writeRequest heard tty Command.qid.request with e | ⟨⟩
  · exact ⟨[.listened tty (.ok unsolicited), .wrote tty Command.qid.request (.error e)],
      by rw [← hheard, List.append_assoc]; rfl, rfl⟩
  dsimp only
  generalize hasked : heard ++ [.wrote tty Command.qid.request (.ok ())] = asked
  have hread : ∀ reply, asked ++ [.read tty reply] = log ++ [.listened tty (.ok unsolicited),
      .wrote tty Command.qid.request (.ok ()), .read tty reply] := by
    intro reply
    rw [← hasked, ← hheard, List.append_assoc, List.append_assoc]
    rfl
  rcases host.readFrame asked tty with e | _ | frame <;> exact ⟨_, hread _, rfl⟩

/-- A sweep takes nothing back. -/
theorem tryCandidates_start (candidates : List Candidate) (log : List Deed) :
    log <+: (tryCandidates host candidates log).2 := by
  induction candidates generalizing log with
  | nil => exact List.prefix_rfl
  | cons candidate rest ih =>
    rw [tryCandidates]
    rcases host.openPort log candidate.tty with e | _ | _
    · exact (List.prefix_append _ _).trans (ih _)
    · obtain ⟨done, hdone, -⟩ := @probe_done host candidate.tty
        (log ++ [.opened candidate.tty (.ok .port)])
      have hprobe : log <+: log ++ [.opened candidate.tty (.ok .port)] ++ done :=
        (List.prefix_append _ _).trans (List.prefix_append _ _)
      dsimp only
      generalize probe (host.transport candidate.tty) (host.listenTo candidate.tty)
        (log ++ [.opened candidate.tty (.ok .port)]) = probed at hdone ⊢
      rcases probed with ⟨e | _ | serialNumber | _, log'⟩ <;> cases hdone
      · exact hprobe.trans ((List.prefix_append _ _).trans (ih _))
      · exact hprobe.trans ((List.prefix_append _ _).trans (ih _))
      · exact hprobe
      · exact hprobe.trans ((List.prefix_append _ _).trans (ih _))
    · exact (List.prefix_append _ _).trans (ih _)

/-- The candidates that were tried, for what came of them. -/
def Tried (host : Host) (start final : List Deed) (candidates : List Candidate)
    (tried : List String) : Option (Candidate × String) → Prop
  | some (candidate, serialNumber) => ∃ before after, candidates = before ++ candidate :: after ∧
      tried = (before ++ [candidate]).map (·.tty) ∧
      (∀ c ∈ before, Rejected host start final c) ∧
      Told host start final candidate serialNumber
  | none => tried = candidates.map (·.tty) ∧ ∀ c ∈ candidates, Rejected host start final c

/-- The moment lies behind every earlier one. -/
theorem Rejected.earlier {start start' final : List Deed} {candidate : Candidate}
    (h : Rejected host start' final candidate) (hstart : start <+: start') :
    Rejected host start final candidate := by
  obtain ⟨log, ⟨hlog, hopened⟩, hrejected⟩ := h
  exact ⟨log, ⟨hstart.trans hlog, hopened⟩, hrejected⟩

theorem Told.earlier {start start' final : List Deed} {candidate : Candidate}
    {serialNumber : String} (h : Told host start' final candidate serialNumber)
    (hstart : start <+: start') : Told host start final candidate serialNumber := by
  obtain ⟨log, ⟨hlog, hopened⟩, htold⟩ := h
  exact ⟨log, ⟨hstart.trans hlog, hopened⟩, htold⟩

theorem Tried.earlier {start start' final : List Deed} {candidates : List Candidate}
    {tried : List String} {found : Option (Candidate × String)}
    (h : Tried host start' final candidates tried found) (hstart : start <+: start') :
    Tried host start final candidates tried found := by
  cases found with
  | some found =>
    obtain ⟨before, after, heq, htried, hbefore, htold⟩ := h
    exact ⟨before, after, heq, htried, fun c hc => (hbefore c hc).earlier hstart,
      htold.earlier hstart⟩
  | none => exact ⟨h.1, fun c hc => (h.2 c hc).earlier hstart⟩

theorem Tried.cons {start final : List Deed} {candidate : Candidate}
    {candidates : List Candidate} {tried : List String} {found : Option (Candidate × String)}
    (hrejected : Rejected host start final candidate)
    (h : Tried host start final candidates tried found) :
    Tried host start final (candidate :: candidates) (candidate.tty :: tried) found := by
  cases found with
  | some found =>
    obtain ⟨before, after, rfl, rfl, hbefore, htold⟩ := h
    exact ⟨candidate :: before, after, rfl, rfl, List.forall_mem_cons.mpr ⟨hrejected, hbefore⟩,
      htold⟩
  | none =>
    obtain ⟨rfl, hall⟩ := h
    exact ⟨rfl, List.forall_mem_cons.mpr ⟨hrejected, hall⟩⟩

/-- Behind a candidate that was rejected the sweep goes on with the rest. -/
theorem goes_on_rejected {candidate : Candidate} {rest : List Candidate} {log done : List Deed}
    (hrest : ∃ tried, opens (tryCandidates host rest (log ++ done)).2
        = opens (log ++ done) ++ tried ∧
      Tried host (log ++ done) (tryCandidates host rest (log ++ done)).2 rest tried
        (tryCandidates host rest (log ++ done)).1)
    (hdone : [.opened candidate.tty (host.openPort log candidate.tty)] <+: done)
    (hopens : opens done = [candidate.tty])
    (hrejected : host.openPort log candidate.tty ≠ .ok .port ∨
      ∀ serialNumber, (probe (host.transport candidate.tty) (host.listenTo candidate.tty)
        (log ++ [.opened candidate.tty (.ok .port)])).1 ≠ .ok (.inverter serialNumber)) :
    ∃ tried, opens (tryCandidates host rest (log ++ done)).2 = opens log ++ tried ∧
      Tried host log (tryCandidates host rest (log ++ done)).2 (candidate :: rest) tried
        (tryCandidates host rest (log ++ done)).1 := by
  obtain ⟨tried, htried, h⟩ := hrest
  have hattempted : Attempted host log log (tryCandidates host rest (log ++ done)).2
      candidate := by
    refine ⟨List.prefix_rfl, ?_⟩
    exact ((List.prefix_append_right_inj log).mpr hdone).trans (tryCandidates_start rest _)
  refine ⟨candidate.tty :: tried, ?_, (h.earlier (List.prefix_append _ _)).cons
    ⟨log, hattempted, hrejected⟩⟩
  rw [htried, opens_append, hopens, List.append_assoc]
  rfl

/-- A sweep tries the candidates in order, up to the first that tells its serial number. -/
theorem tryCandidates_tried (candidates : List Candidate) (log : List Deed) :
    ∃ tried, opens (tryCandidates host candidates log).2 = opens log ++ tried ∧
      Tried host log (tryCandidates host candidates log).2 candidates tried
        (tryCandidates host candidates log).1 := by
  induction candidates generalizing log with
  | nil => exact ⟨[], (List.append_nil _).symm, rfl, List.forall_mem_nil _⟩
  | cons candidate rest ih =>
    rw [tryCandidates]
    rcases hopen : host.openPort log candidate.tty with e | _ | _
    · exact goes_on_rejected (ih _) (hopen ▸ List.prefix_rfl) rfl (.inl (hopen ▸ nofun))
    · obtain ⟨done, hdone, hnone⟩ := @probe_done host candidate.tty
        (log ++ [.opened candidate.tty (.ok .port)])
      have hopens : opens (.opened candidate.tty (.ok .port) :: done) = [candidate.tty] :=
        congrArg (candidate.tty :: ·) hnone
      have hdropped : ∀ log', log' = log ++ [.opened candidate.tty (.ok .port)] ++ done →
          log' ++ [.dropped candidate.tty] = log ++ (.opened candidate.tty (.ok .port) :: done ++
            [.dropped candidate.tty]) := by
        rintro _ rfl
        simp
      have hopens' : opens (.opened candidate.tty (.ok .port) :: done ++
          [.dropped candidate.tty]) = [candidate.tty] := by
        rw [opens_append, hopens]
        rfl
      have hfirst : [.opened candidate.tty (host.openPort log candidate.tty)] <+:
          .opened candidate.tty (.ok .port) :: done ++ [.dropped candidate.tty] := by
        rw [hopen]
        exact List.prefix_append [_] _
      have hother := fun h => goes_on_rejected (ih _) hfirst hopens' (.inr h)
      have htold : ∀ serialNumber, (probe (host.transport candidate.tty)
          (host.listenTo candidate.tty) (log ++ [.opened candidate.tty (.ok .port)])).1
            = .ok (.inverter serialNumber) →
          Told host log (log ++ [.opened candidate.tty (.ok .port)] ++ done) candidate
            serialNumber :=
        fun serialNumber h =>
          ⟨log, ⟨List.prefix_rfl, hopen ▸ List.prefix_append _ _⟩, hopen, h⟩
      dsimp only
      generalize probe (host.transport candidate.tty) (host.listenTo candidate.tty)
        (log ++ [.opened candidate.tty (.ok .port)]) = probed at hdone hother htold ⊢
      rcases probed with ⟨e | _ | serialNumber | _, log'⟩ <;> dsimp only at hdone ⊢
      · rw [hdropped _ hdone]
        exact hother nofun
      · rw [hdropped _ hdone]
        exact hother nofun
      · refine ⟨[candidate.tty], ?_, [], rest, rfl, rfl, List.forall_mem_nil _, ?_⟩
        · rw [hdone, opens_append, opens_append, hnone, List.append_nil]
          rfl
        · rw [hdone]
          exact htold serialNumber rfl
      · rw [hdropped _ hdone]
        exact hother nofun
    · exact goes_on_rejected (ih _) (hopen ▸ List.prefix_rfl) rfl (.inl (hopen ▸ nofun))

/-- **A sweep leaves no device out and stops at the inverter**: the devices that are there are
tried once each, those on the remembered socket first, up to the one that tells its serial
number, and that is the one it returns; it never panics, and gives up only when there was no
device, or when each of them was held, could not be opened, or did not tell a serial number. -/
theorem sweep_accounts (host : Host) (devDir : String) (log : List Deed) :
    let all := host.enumerate log
    let log' := log ++ [.listed all]
    let remembered := readRemembered (host.lastDevice log')
    let (result, final) := connect host devDir log
    (∀ message, result ≠ .error (.panic message)) ∧
    ∃ candidates tried,
      (∃ rest, candidates = all.filter (fun c => some c.pathId = remembered) ++ rest ∧
        rest.Perm (all.filter fun c => some c.pathId ≠ remembered)) ∧
      candidates.Perm all ∧ opens final = opens log ++ tried ∧
      Tried host log final candidates tried result.toOption := by
  unfold connect
  dsimp only
  split_ifs with hempty
  · refine ⟨nofun, [], [], ⟨[], ?_, ?_⟩, ?_, ?_, rfl, List.forall_mem_nil _⟩
    · rw [hempty]
      rfl
    · rw [hempty]
      exact List.Perm.refl _
    · rw [hempty]
    · rw [opens_append]
      rfl
  generalize hlisted : log ++ [.listed (host.enumerate log)] = listed
  generalize hremembered : readRemembered (host.lastDevice listed) = remembered
  generalize hrecalled : listed ++ [.recalled remembered] = recalled
  have hstart : log <+: recalled := by
    rw [← hrecalled, ← hlisted, List.append_assoc]
    exact List.prefix_append _ _
  have hopens : opens recalled = opens log := by
    rw [← hrecalled, ← hlisted, opens_append, opens_append]
    simp [opens]
  obtain ⟨rest, horder, hperm⟩ := order_eq (host.enumerate log) remembered
    (host.shuffleSeed recalled)
  have hall : (((host.enumerate log).filter fun c => some c.pathId = remembered) ++ rest).Perm
      (host.enumerate log) := by
    refine (hperm.append_left _).trans ?_
    rw [filter_ne]
    exact List.filter_append_perm _ _
  rw [horder]
  obtain ⟨tried, htried, h⟩ := @tryCandidates_tried host
    (((host.enumerate log).filter fun c => some c.pathId = remembered) ++ rest) recalled
  rw [hopens] at htried
  dsimp only
  rcases htry : tryCandidates host
    (((host.enumerate log).filter fun c => some c.pathId = remembered) ++ rest) recalled
    with ⟨_ | found, final⟩ <;> rw [htry] at htried h
  · exact ⟨nofun, _, tried, ⟨rest, rfl, hperm⟩, hall, htried, h.earlier hstart⟩
  · exact ⟨nofun, _, tried, ⟨rest, rfl, hperm⟩, hall, htried, h.earlier hstart⟩

end Sweep

end HostServices.Inverter
