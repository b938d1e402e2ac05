import HostServices.Inverter.Session

/-!
# Whose answer was that?

A reply does not name the command it answers. `write_request` throws away what is in the
input queue, and what is read after it is taken for the answer. Here the inverter answers
every request once, in order and with a frame in order, and each byte of its answers
reaches the host when it pleases.

- `Line`, `line`: the serial line as a transport, byte by byte;
- `readFrameLoop_beginning`: without strays, what is read is the beginning of the reply;
- `stored_is_own_reply`: without strays, every stored value is the reply to its command;
- `late_reply_stored`: with them it need not be.
-/

namespace HostServices.Inverter

/-! ## The line -/

/-- A byte on the line, with the number of the request it belongs to the answer of. -/
structure Tagged where
  origin : Nat
  byte : UInt8
  deriving DecidableEq, Repr

/-- One round of `read_frame`: how many bytes arrive, and how many of the queue are read. -/
structure Round where
  arrive : Nat
  take : Nat
  deriving DecidableEq, Repr

/-- When bytes arrive around one exchange: before the input queue is flushed, while the
request goes out, and in the rounds that begin before the deadline. -/
structure Timing where
  beforeFlush : Nat := 0
  duringWrite : Nat := 0
  rounds : List Round := []
  deriving DecidableEq, Repr

/-- The line between the monitor and the inverter, and what was written on it. -/
structure Line where
  call : Nat := 0
  /-- the requests written so far, each with the number of its call -/
  requests : List (Nat × List UInt8) := []
  /-- sent by the inverter and not arrived -/
  underway : List Tagged := []
  /-- arrived and not read -/
  queue : List Tagged := []
  /-- what arrived of an earlier answer while a later one was awaited -/
  strays : List Tagged := []
  deriving DecidableEq, Repr

/-- The next call begins. -/
def Line.turn (s : Line) : Line := { s with call := s.call + 1 }

/-- The next `n` bytes arrive while the last request's answer is awaited. -/
def Line.arrive (n : Nat) (s : Line) : Line :=
  { s with
    underway := s.underway.drop n
    queue := s.queue ++ s.underway.take n
    strays := s.strays ++ (s.underway.take n).filter (·.origin + 1 ≠ s.requests.length) }

/-- `read_some` with its buffer of 64 bytes. -/
def Line.readSome (round : Round) (s : Line) : Except String (List UInt8) × Line :=
  let s := s.arrive round.arrive
  let n := min round.take 64
  (.ok ((s.queue.take n).map Tagged.byte), { s with queue := s.queue.drop n })

/-- The bytes of an answer. -/
def tagged (origin : Nat) (bytes : List UInt8) : List Tagged := bytes.map (Tagged.mk origin)

/-- What has arrived is thrown away, the request goes out, and the inverter answers it. -/
def Line.write (payload : Nat → List UInt8 → List UInt8) (timing : Timing)
    (request : List UInt8) (s : Line) : Line :=
  let n := s.requests.length
  let flushed : Line :=
    { s with
      requests := s.requests ++ [(s.call, request)]
      underway := s.underway.drop timing.beforeFlush
      queue := [] }
  let written := flushed.arrive timing.duringWrite
  { written with underway := written.underway ++ tagged n (buildResponse (payload n request)) }

/-- The line to an inverter that answers the `n`-th request with `payload n`. -/
def line (payload : Nat → List UInt8 → List UInt8) (timing : Nat → Timing) : Transport Line where
  writeRequest request s := (.ok (), s.write payload (timing s.requests.length) request)
  readFrame s := readFrame Line.readSome (timing (s.requests.length - 1)).rounds s

section

variable {payload : Nat → List UInt8 → List UInt8} {timing : Nat → Timing} {timeout : String}

/-! ## What only grows -/

/-- Later in a run: requests and strays are only added to, and what is underway belongs to a
request that was made. -/
structure Later (s s' : Line) : Prop where
  requests : s.requests <+: s'.requests
  strays : s.strays <+: s'.strays
  made : (∀ b ∈ s.underway, b.origin < s.requests.length) →
    ∀ b ∈ s'.underway, b.origin < s'.requests.length

theorem Later.refl (s : Line) : Later s s :=
  ⟨List.prefix_refl _, List.prefix_refl _, id⟩

theorem Later.trans {s s' s'' : Line} (h : Later s s') (h' : Later s' s'') : Later s s'' :=
  ⟨h.requests.trans h'.requests, h.strays.trans h'.strays, fun hs => h'.made (h.made hs)⟩

theorem Later.no_strays {s s' : Line} (h : Later s s') (hs : s'.strays = []) : s.strays = [] :=
  List.prefix_nil.mp (hs ▸ h.strays)

theorem Later.request {s s' : Line} (h : Later s s') {n : Nat} {request : Nat × List UInt8}
    (hn : s.requests[n]? = some request) : s'.requests[n]? = some request := by
  obtain ⟨more, hmore⟩ := h.requests
  rw [← hmore, List.getElem?_append_left (List.getElem?_eq_some_iff.mp hn).1]
  exact hn

theorem later_arrive (n : Nat) (s : Line) : Later s (s.arrive n) where
  requests := List.prefix_refl _
  strays := List.prefix_append _ _
  made hs b hb := hs b (List.mem_of_mem_drop hb)

theorem later_readSome (round : Round) (s : Line) : Later s (s.readSome round).2 := by
  obtain ⟨hr, hs, hm⟩ := later_arrive round.arrive s
  exact ⟨hr, hs, hm⟩

/-- Reading a frame only moves bytes on. -/
theorem later_readFrameLoop (frame : List UInt8) (rounds : List Round) (s : Line) :
    Later s (readFrameLoop Line.readSome frame rounds s).2 := by
  induction rounds generalizing frame s with
  | nil => exact Later.refl s
  | cons round rounds ih =>
    have hstep := later_readSome round s
    rw [readFrameLoop]
    rcases hread : s.readSome round with ⟨_ | chunk, s₁⟩ <;> rw [hread] at hstep
    · exact hstep
    · dsimp only
      rcases pushUntilCr frame chunk with ⟨frame', _ | _⟩
      · dsimp only
        split_ifs
        · exact hstep
        · exact hstep.trans (ih frame' s₁)
      · exact hstep

theorem later_write (t : Timing) (request : List UInt8) (s : Line) :
    Later s (s.write payload t request) where
  requests := List.prefix_append _ _
  strays := List.prefix_append _ _
  made hs b hb := by
    have hlen : (s.write payload t request).requests.length = s.requests.length + 1 := by
      rw [Line.write, Line.arrive, List.length_append, List.length_singleton]
    rw [hlen]
    simp only [Line.write, Line.arrive, List.mem_append, tagged, List.mem_map] at hb
    rcases hb with hb | ⟨byte, -, rfl⟩
    · exact Nat.lt_succ_of_lt (hs b (List.mem_of_mem_drop (List.mem_of_mem_drop hb)))
    · exact Nat.lt_succ_self _

/-- A command only moves bytes on, and writes at most its own request. -/
theorem later_readCommand (c : Command) (session : Session) (s : Line) :
    Later s (readCommand (line payload timing) timeout c session s).2.2 := by
  rw [readCommand_port]
  split_ifs with hc
  · exact Later.refl s
  · exact (later_write _ _ s).trans (later_readFrameLoop _ _ _)

theorem later_turn (s : Line) : Later s s.turn :=
  ⟨List.prefix_refl _, List.prefix_refl _, id⟩

/-- The line of a run only gets older. -/
theorem kept_later : Kept (line payload timing) timeout Line.turn fun x y => Later x.2 y.2 where
  refl x := Later.refl x.2
  trans h h' := h.trans h'
  read := later_readCommand
  discard _ _ s := Later.refl s
  turn _ s := later_turn s

theorem call_readFrameLoop (frame : List UInt8) (rounds : List Round) (s : Line) :
    (readFrameLoop Line.readSome frame rounds s).2.call = s.call := by
  induction rounds generalizing frame s with
  | nil => rfl
  | cons round rounds ih =>
    rw [readFrameLoop]
    simp only [Line.readSome]
    rcases pushUntilCr frame _ with ⟨frame', _ | _⟩
    · dsimp only
      split_ifs
      · rfl
      · exact ih _ _
    · rfl

/-- A call stays the same call while its commands are read. -/
theorem kept_call : Kept (line payload timing) timeout id fun x y => y.2.call = x.2.call where
  refl _ := rfl
  trans h h' := h'.trans h
  read c session s := by
    dsimp only
    rw [readCommand_port]
    split_ifs with hc
    · rfl
    · exact call_readFrameLoop _ _ _
  discard _ _ _ := rfl
  turn _ _ := rfl

/-! ## Reading the answer -/

@[simp] theorem map_byte_tagged (origin : Nat) (bytes : List UInt8) :
    (tagged origin bytes).map Tagged.byte = bytes := by
  rw [tagged, List.map_map]
  exact List.map_id bytes

/-- The answer `reply` to the last request is awaited, `frame` of it is read, and there is no
stray in the queue. -/
def Awaiting (reply frame : List UInt8) (s : Line) : Prop :=
  ∃ old rest, s.underway = old ++ tagged (s.requests.length - 1) rest ∧
    (∀ b ∈ old, b.origin + 1 < s.requests.length) ∧
    (old = [] ∨ frame ++ s.queue.map Tagged.byte = []) ∧
    reply = frame ++ s.queue.map Tagged.byte ++ rest

/-- Bytes arrive, none of them a stray. -/
theorem Awaiting.arrive {reply frame : List UInt8} {s : Line} (h : Awaiting reply frame s)
    {n : Nat} (hstrays : (s.arrive n).strays = []) : Awaiting reply frame (s.arrive n) := by
  obtain ⟨old, rest, hunder, hold, hfirst, hreply⟩ := h
  cases n with
  | zero =>
    have hsame : s.arrive 0 = s := by simp [Line.arrive]
    rw [hsame]
    exact ⟨old, rest, hunder, hold, hfirst, hreply⟩
  | succ n =>
    cases old with
    | cons b old =>
      -- the first byte underway would be a stray
      rw [Line.arrive, List.append_eq_nil_iff, List.filter_eq_nil_iff] at hstrays
      have hb := hstrays.2 b (by rw [hunder]; exact List.mem_cons_self)
      have hlt := hold b List.mem_cons_self
      simp at hb
      omega
    | nil =>
      rw [List.nil_append] at hunder
      refine ⟨[], rest.drop (n + 1), ?_, fun b hb => (nomatch hb), .inl rfl, ?_⟩
      · simp only [Line.arrive, hunder, tagged, List.map_drop, List.nil_append]
      · simp only [Line.arrive, hunder, List.map_append, List.map_take, map_byte_tagged]
        rw [hreply, ← List.append_assoc, List.append_assoc _ (rest.take _), List.take_append_drop]

/-- Bytes are read off the queue. -/
theorem Awaiting.read {reply frame : List UInt8} {s : Line} (h : Awaiting reply frame s)
    (n : Nat) : Awaiting reply (frame ++ (s.queue.take n).map Tagged.byte)
      { s with queue := s.queue.drop n } := by
  obtain ⟨old, rest, hunder, hold, hfirst, hreply⟩ := h
  have hsame : frame ++ (s.queue.take n).map Tagged.byte ++ (s.queue.drop n).map Tagged.byte
      = frame ++ s.queue.map Tagged.byte := by
    rw [List.append_assoc, ← List.map_append, List.take_append_drop]
  exact ⟨old, rest, hunder, hold, by rwa [hsame], by rw [hsame]; exact hreply⟩

/-- A frame is a first part of what arrived. -/
theorem pushUntilCr_prefix (frame chunk : List UInt8) :
    (pushUntilCr frame chunk).1 <+: frame ++ chunk ∧
      ((pushUntilCr frame chunk).2 = false → (pushUntilCr frame chunk).1 = frame ++ chunk) := by
  by_cases h : cr ∈ chunk
  · obtain ⟨before, after, rfl, hbefore⟩ := List.eq_append_cons_of_mem h
    rw [pushUntilCr_append hbefore]
    refine ⟨⟨after, by simp⟩, fun hfalse => (nomatch hfalse)⟩
  · rw [pushUntilCr_of_not_mem h]
    exact ⟨List.prefix_refl _, fun _ => rfl⟩

/-- **Without strays, what is read is the beginning of the answer.** -/
theorem readFrameLoop_beginning {reply frame : List UInt8} {rounds : List Round} {s s' : Line}
    {read : List UInt8} (h : Awaiting reply frame s)
    (hread : readFrameLoop Line.readSome frame rounds s = (.ok (some read), s'))
    (hstrays : s'.strays = []) : read <+: reply := by
  induction rounds generalizing frame s with
  | nil => cases hread
  | cons round rounds ih =>
    rw [readFrameLoop] at hread
    simp only [Line.readSome] at hread
    have hround (hnone : (s.arrive round.arrive).strays = []) :=
      (h.arrive hnone).read (min round.take 64)
    generalize (((s.arrive round.arrive).queue.take (min round.take 64)).map Tagged.byte) = chunk
      at hread hround
    obtain ⟨hpre, hwhole⟩ := pushUntilCr_prefix frame chunk
    -- what is read so far is the beginning of the answer
    have hdone (hnone : (s.arrive round.arrive).strays = []) :
        (pushUntilCr frame chunk).1 <+: reply := by
      obtain ⟨old, rest, -, -, -, hreply⟩ := hround hnone
      rw [hreply, List.append_assoc]
      exact hpre.trans (List.prefix_append _ _)
    rcases hpush : pushUntilCr frame chunk with ⟨frame', _ | _⟩ <;>
      rw [hpush] at hread hwhole hdone
    · dsimp only at hread
      split_ifs at hread with hlong
      · cases hread
        exact hdone hstrays
      · have hnone := (later_readFrameLoop frame' rounds _).no_strays (by rw [hread]; exact hstrays)
        have hnext := hround hnone
        rw [← hwhole rfl] at hnext
        exact ih hnext hread
    · cases hread
      exact hdone hstrays

/-- A beginning of a frame that parses is the whole frame. -/
theorem parseResponse_beginning {bytes frame answer : List UInt8} (hcr : cr ∉ bytes)
    (hpre : frame <+: buildResponse bytes) (hparse : parseResponse frame = .ok (.payload answer)) :
    answer = bytes := by
  have hlast : cr ∈ frame := by
    by_contra hnot
    have hne : frame.getLast? ≠ some cr := fun heq => hnot (List.mem_of_getLast? heq)
    rw [parseResponse] at hparse
    split_ifs at hparse
  obtain ⟨more, hmore⟩ := hpre
  have hwhole : frame = buildResponse bytes := by
    rcases List.eq_nil_or_concat more with rfl | ⟨more, last, rfl⟩
    · rw [← hmore, List.append_nil]
    · -- all but the last byte of a frame is free of `<CR>`
      rw [buildResponse, List.concat_eq_append, ← List.append_assoc] at hmore
      have hbody := (List.append_inj' hmore rfl).1
      exact absurd (hbody ▸ List.mem_append_left more hlast) (cr_not_mem_body hcr)
  rw [hwhole, parseResponse_buildResponse] at hparse
  by_cases hnak : bytes = nak
  · rw [if_pos hnak] at hparse
    cases hparse
  · rw [if_neg hnak] at hparse
    cases hparse
    rfl

/-- The answer to a request is awaited as soon as it is written. -/
theorem awaiting_write {t : Timing} {request : List UInt8} {s : Line}
    (hmade : ∀ b ∈ s.underway, b.origin < s.requests.length)
    (hstrays : (s.write payload t request).strays = []) :
    Awaiting (buildResponse (payload s.requests.length request)) []
      (s.write payload t request) := by
  -- whatever arrives while the request goes out is a stray
  have hnone : (s.underway.drop t.beforeFlush).take t.duringWrite = [] := by
    rw [Line.write, Line.arrive, List.append_eq_nil_iff, List.filter_eq_nil_iff] at hstrays
    rw [List.eq_nil_iff_forall_not_mem]
    intro b hb
    have hown := hstrays.2 b hb
    have hlt := hmade b (List.mem_of_mem_drop (List.mem_of_mem_take hb))
    simp at hown
    omega
  refine ⟨(s.underway.drop t.beforeFlush).drop t.duringWrite,
    buildResponse (payload s.requests.length request), ?_, ?_, .inr ?_, ?_⟩
  · simp [Line.write, Line.arrive]
  · intro b hb
    have hlt := hmade b (List.mem_of_mem_drop (List.mem_of_mem_drop hb))
    simp only [Line.write, Line.arrive, List.length_append, List.length_singleton]
    omega
  · simp [Line.write, Line.arrive, hnone]
  · simp [Line.write, Line.arrive, hnone]

/-- A command that is asked: the payload is the answer to its own request. -/
theorem readCommand_own_reply (hcr : ∀ n request, cr ∉ payload n request) {c : Command}
    {session session' : Session} {s s' : Line} {answer : List UInt8}
    (hmade : ∀ b ∈ s.underway, b.origin < s.requests.length)
    (h : readCommand (line payload timing) timeout c session s
      = (.ok (some answer), session', s'))
    (hstrays : s'.strays = []) :
    answer = payload s.requests.length c.request ∧
      s'.requests[s.requests.length]? = some (s.call, c.request) := by
  obtain ⟨s₁, frame, hwrite, hread, hparse⟩ := readCommand_payload h
  cases hwrite
  have hlater : Later (s.write payload (timing s.requests.length) c.request) s' := by
    have hloop := later_readFrameLoop []
      (timing ((s.write payload (timing s.requests.length) c.request).requests.length - 1)).rounds
      (s.write payload (timing s.requests.length) c.request)
    rwa [show readFrameLoop Line.readSome [] _ _ = _ from hread] at hloop
  have hawait : Awaiting _ [] _ := awaiting_write hmade (hlater.no_strays hstrays)
  have hbeginning := readFrameLoop_beginning hawait hread hstrays
  refine ⟨parseResponse_beginning (hcr _ _) hbeginning hparse, ?_⟩
  obtain ⟨more, hmore⟩ := hlater.requests
  rw [← hmore]
  simp [Line.write, Line.arrive]

/-- A loop over commands: every reading is that of the answer to its own request. -/
theorem readEach_own_reply (hcr : ∀ n request, cr ∉ payload n request) {unreadable : Nat}
    {commands : List Command} {session session' : Session} {s s' : Line}
    {readings : List (Command × Option Reading)}
    (hmade : ∀ b ∈ s.underway, b.origin < s.requests.length)
    (h : readEach (line payload timing) timeout unreadable commands session s
      = (.ok readings, session', s'))
    (hstrays : s'.strays = []) {c : Command} {reading : Reading}
    (hmem : (c, some reading) ∈ readings) :
    ∃ n, s'.requests[n]? = some (s.call, c.request) ∧
      c.read (payload n c.request) = .ok reading := by
  induction commands generalizing session s readings with
  | nil =>
    cases h
    cases hmem
  | cons d commands ih =>
    obtain ⟨answer, session₁, s₁, rest, hread, hrest, rfl⟩ := readEach_cons_ok h
    have hstep : Later s s₁ := kept_later.of_readCommand hread
    have hlater : Later s₁ s' := kept_later.of_readEach hrest
    have hcall : s₁.call = s.call := kept_call.of_readCommand hread
    rw [List.mem_cons] at hmem
    rcases hmem with hhead | htail
    · rw [Prod.mk.injEq] at hhead
      obtain ⟨rfl, hvalue⟩ := hhead
      cases answer with
      | none => cases hvalue
      | some answer =>
        obtain ⟨rfl, hrequest⟩ := readCommand_own_reply hcr hmade hread (hlater.no_strays hstrays)
        refine ⟨s.requests.length, hlater.request hrequest, ?_⟩
        rw [interpret] at hvalue
        cases hparse : c.read (payload s.requests.length c.request) with
        | ok value =>
          rw [hparse] at hvalue
          cases hvalue
          rfl
        | error reason =>
          rw [hparse] at hvalue
          cases hvalue
    · obtain ⟨n, hn, hvalue⟩ := ih (hstep.made hmade) hrest htail
      exact ⟨n, hcall ▸ hn, hvalue⟩

/-! ## What is stored -/

/-- A call's output holds a value for a command: an identity attribute, or a field of the
cycle. -/
def Output.Holds (c : Command) (reading : Reading) : Output → Prop
  | .identity attributes =>
    c ∈ staticCommands ∧ ∃ text, reading = .text text ∧ (identityKey c, some text) ∈ attributes
  | .cycle polled => polled.reading c = some reading

/-- There is a reading for each command, in their order. -/
theorem readEach_commands {σ : Type} {t : Transport σ} {unreadable : Nat}
    {commands : List Command} {session session' : Session} {s s' : σ}
    {readings : List (Command × Option Reading)}
    (h : readEach t timeout unreadable commands session s = (.ok readings, session', s')) :
    readings.map Prod.fst = commands := by
  induction commands generalizing session s readings with
  | nil =>
    cases h
    rfl
  | cons c commands ih =>
    obtain ⟨payload, session₁, s₁, rest, -, hrest, rfl⟩ := readEach_cons_ok h
    rw [List.map_cons, ih hrest]

/-- A value of a call's output is the reading of its own command. -/
theorem Output.Holds.mem {call : Call} {session : Session}
    {readings : List (Command × Option Reading)} (hcommands : readings.map Prod.fst = call.commands)
    (hkind : ∀ d reading, (d, some reading) ∈ readings → ∃ bytes, d.read bytes = .ok reading)
    {c : Command} {reading : Reading} (h : (call.collect session readings).Holds c reading) :
    (c, some reading) ∈ readings := by
  cases call with
  | identity =>
    obtain ⟨hc, text, rfl, hmem⟩ := h
    rw [List.mem_map] at hmem
    obtain ⟨⟨d, value⟩, hd, heq⟩ := hmem
    rw [Prod.mk.injEq] at heq
    have hstatic : d ∈ staticCommands := by
      rw [← show readings.map Prod.fst = staticCommands from hcommands]
      exact List.mem_map_of_mem hd
    have hsame : d = c := by
      have hkey : identityKey d = identityKey c := heq.1
      revert hkey hstatic hc
      cases c <;> cases d <;> decide
    have hvalue : value = some (.text text) := by
      have hstring : Reading.string? value = some text := heq.2
      rcases value with _ | ⟨_ | _ | _ | _ | _⟩ <;> cases hstring
      rfl
    rw [← hsame, ← hvalue]
    exact hd
  | poll connectedSeconds =>
    exact Cycle.mem_of_reading hkind hcommands h

/-- **Without strays, every reading of a run comes from the reply to its own request.** -/
theorem runCalls_own_reply (hcr : ∀ n request, cr ∉ payload n request) {calls : List Call}
    {outputs : List Output} {session session' : Session} {s s' : Line}
    (hmade : ∀ b ∈ s.underway, b.origin < s.requests.length)
    (h : runCalls (line payload timing) timeout Line.turn calls session s
      = (.ok outputs, session', s'))
    (hstrays : s'.strays = []) {i : Nat} {output : Output} (hi : outputs[i]? = some output)
    {c : Command} {reading : Reading} (hstored : output.Holds c reading) :
    ∃ n, s'.requests[n]? = some (s.call + i, c.request) ∧
      c.read (payload n c.request) = .ok reading := by
  induction calls generalizing session s outputs i with
  | nil =>
    cases h
    cases hi
  | cons call calls ih =>
    obtain ⟨readings, session₁, s₁, rest, hread, hrest, rfl⟩ := runCalls_cons_ok h
    have hstep : Later s s₁ := kept_later.of_readEach hread
    have hlater : Later s₁ s' := (later_turn s₁).trans (kept_later.of_runCalls hrest)
    have hcall : s₁.call = s.call := kept_call.of_readEach hread
    have hown (d : Command) (value : Reading) (hd : (d, some value) ∈ readings) :=
      readEach_own_reply hcr hmade hread (hlater.no_strays hstrays) hd
    cases i with
    | zero =>
      cases hi
      have hkind (d : Command) (value : Reading) (hd : (d, some value) ∈ readings) :
          ∃ bytes, d.read bytes = .ok value := by
        obtain ⟨n, -, hvalue⟩ := hown d value hd
        exact ⟨_, hvalue⟩
      obtain ⟨n, hn, hvalue⟩ := hown c reading (hstored.mem (readEach_commands hread) hkind)
      exact ⟨n, hlater.request hn, hvalue⟩
    | succ i =>
      rw [List.getElem?_cons_succ] at hi
      obtain ⟨n, hn, hvalue⟩ := ih ((hstep.trans (later_turn s₁)).made hmade) hrest hi
      refine ⟨n, ?_, hvalue⟩
      rw [hn, Line.turn, hcall, Nat.add_assoc, Nat.add_comm 1 i]

/-- **Answers belong to the question asked**, as long as no byte of an earlier answer comes in
between the flush for a later request and the end of its exchange: every value that a run
stores is read from the inverter's answer to that very command in that very call. -/
theorem stored_is_own_reply (hcr : ∀ n request, cr ∉ payload n request) {calls : List Call}
    {outputs : List Output} {session session' : Session} {s' : Line}
    (h : runCalls (line payload timing) timeout Line.turn calls session {}
      = (.ok outputs, session', s'))
    (hstrays : s'.strays = []) {i : Nat} {output : Output} (hi : outputs[i]? = some output)
    {c : Command} {reading : Reading} (hstored : output.Holds c reading) :
    ∃ n, s'.requests[n]? = some (i, c.request) ∧ c.read (payload n c.request) = .ok reading := by
  obtain ⟨n, hn, hvalue⟩ :=
    runCalls_own_reply hcr (fun b hb => absurd hb List.not_mem_nil) h hstrays hi hstored
  exact ⟨n, by rw [hn, Nat.zero_add], hvalue⟩

end

/-- An inverter with a serial number of two digits that answers everything else with `V`. -/
def shortAnswers (_ : Nat) (request : List UInt8) : List UInt8 :=
  if request = Command.qid.request then [0x39, 0x32] else [0x56]

theorem cr_not_mem_shortAnswers (n : Nat) (request : List UInt8) :
    cr ∉ shortAnswers n request := by
  rw [shortAnswers]
  split_ifs <;> decide

/-- The answer to the first request arrives in its exchange, and nothing after it. -/
def firstInTime (n : Nat) : Timing :=
  if n = 0 then { rounds := [⟨6, 64⟩] } else {}

/-- The answer to the first request arrives in the second exchange. -/
def firstTooLate (n : Nat) : Timing :=
  if n = 1 then { rounds := [⟨6, 64⟩] } else {}

/-- The serial number comes in time and is the answer to `QID`. -/
theorem stored_is_own_reply_serial :
    ∃ n, (runCalls (line shortAnswers firstInTime) "" Line.turn [.identity] {} {}).2.2.requests[n]?
        = some (0, Command.qid.request) ∧
      Command.qid.read (shortAnswers n Command.qid.request) = .ok (.text "92") := by
  have hrun : runCalls (line shortAnswers firstInTime) "" Line.turn [.identity] {} {} =
      (.ok [.identity [("serial_number", some "92"), ("firmware", none),
        ("firmware_panel", none), ("model", none), ("model_code", none)]],
        (runCalls (line shortAnswers firstInTime) "" Line.turn [.identity] {} {}).2.1,
        (runCalls (line shortAnswers firstInTime) "" Line.turn [.identity] {} {}).2.2) := by
    decide +kernel
  have hstrays : (runCalls (line shortAnswers firstInTime) "" Line.turn
      [.identity] {} {}).2.2.strays = [] := by
    decide +kernel
  exact stored_is_own_reply cr_not_mem_shortAnswers hrun hstrays (i := 0) rfl
    ⟨by decide, "92", rfl, by decide⟩

/-- The serial number comes while the answer to `QVFW` is awaited, and is taken for the
firmware version. -/
theorem late_reply_stored :
    ¬ ∀ (payload : Nat → List UInt8 → List UInt8) (timing : Nat → Timing) (timeout : String)
      (calls : List Call) (outputs : List Output) (session session' : Session) (s' : Line),
      (∀ n request, cr ∉ payload n request) →
      runCalls (line payload timing) timeout Line.turn calls session {}
        = (.ok outputs, session', s') →
      ∀ (i : Nat) (output : Output), outputs[i]? = some output →
      ∀ (c : Command) (reading : Reading), output.Holds c reading →
      ∃ n, s'.requests[n]? = some (i, c.request) ∧ c.read (payload n c.request) = .ok reading := by
  intro hall
  have hrun : runCalls (line shortAnswers firstTooLate) "" Line.turn [.identity] {} {} =
      (.ok [.identity [("serial_number", none), ("firmware", some "92"),
        ("firmware_panel", none), ("model", none), ("model_code", none)]],
        (runCalls (line shortAnswers firstTooLate) "" Line.turn [.identity] {} {}).2.1,
        (runCalls (line shortAnswers firstTooLate) "" Line.turn [.identity] {} {}).2.2) := by
    decide +kernel
  obtain ⟨n, -, hvalue⟩ := hall _ _ _ _ _ _ _ _ cr_not_mem_shortAnswers hrun 0 _ rfl .qvfw
    (.text "92") ⟨by decide, "92", rfl, by decide⟩
  have hown : shortAnswers n Command.qvfw.request = [0x56] := by
    rw [shortAnswers, if_neg (by decide +kernel)]
  rw [hown] at hvalue
  revert hvalue
  decide

end HostServices.Inverter
