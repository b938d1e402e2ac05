import HostServices.Inverter.Session
import Mathlib.Data.Finset.Insert
import Mathlib.Algebra.GroupWithZero.Nat

/-!
# The session's bookkeeping over any sequence of calls

The answers are taken as given: an oracle says what each request of each call is answered
with, and the port keeps a log of what was written. A command is asked at most once in a
call, so nothing is lost by letting the answer depend on the call and the request alone.

- `Asked`, `readCommand_asked`: everything that reading one command can come to;
- `readEach_gathered`: what a loop over commands leaves behind, as a function of the oracle;
- `requests_accounted_iff`: when every request is a value or is counted;
- `session_bookkeeping`: the counters, the refused commands, and isolation.
-/

namespace HostServices.Inverter

/-! ## A port with given answers -/

/-- What comes of one exchange on the line. -/
inductive Reply
  | writeFailed (reason : String)
  | readFailed (reason : String)
  /-- no frame before the deadline -/
  | silence
  | frame (bytes : List UInt8)
  deriving DecidableEq, Repr

/-- What `exchange` makes of a reply. -/
inductive Outcome
  | gone
  | lost
  | refused
  | payload (bytes : List UInt8)
  deriving DecidableEq, Repr

/-- What the monitor makes of it. -/
def Reply.outcome : Reply → Outcome
  | .writeFailed _ | .readFailed _ => .gone
  | .silence => .lost
  | .frame bytes =>
    match parseResponse bytes with
    | .ok (.payload payload) => .payload payload
    | .ok .nak => .refused
    | .error _ => .lost

/-- A request, and what came of it. -/
structure Exchange where
  request : List UInt8
  reply : Reply
  deriving DecidableEq, Repr

/-- The number of the call, and what was written so far, the oldest first. -/
structure Wire where
  call : Nat := 0
  log : List Exchange := []
  deriving DecidableEq, Repr

section

variable (oracle : Nat → List UInt8 → Reply)

/-- The request is written, and answered as the oracle has it for this call. -/
def Wire.ask (s : Wire) (request : List UInt8) : Wire :=
  { s with log := s.log ++ [⟨request, oracle s.call request⟩] }

/-- The next call begins. -/
def Wire.turn (s : Wire) : Wire := { s with call := s.call + 1 }

@[simp] theorem Wire.ask_call (s : Wire) (request : List UInt8) :
    (s.ask oracle request).call = s.call := rfl

@[simp] theorem Wire.ask_log (s : Wire) (request : List UInt8) :
    (s.ask oracle request).log = s.log ++ [⟨request, oracle s.call request⟩] := rfl

/-- The transport over such a line. -/
def wire : Transport Wire where
  writeRequest request s :=
    match oracle s.call request with
    | .writeFailed e => (.error e, s.ask oracle request)
    | _ => (.ok (), s.ask oracle request)
  readFrame s :=
    match s.log.getLast?.map Exchange.reply with
    | some (.readFailed e) => (.error e, s)
    | some (.frame bytes) => (.ok (some bytes), s)
    | _ => (.ok none, s)

/-! ## One command -/

/-- Everything that reading a command can come to. -/
inductive Asked (c : Command) (session : Session) (s : Wire) :
    Except String (Option (List UInt8)) × Session × Wire → Prop
  | skipped (hc : c ∈ session.unsupported) : Asked c session s (.ok none, session, s)
  | answered (hc : c ∉ session.unsupported) (payload : List UInt8)
      (hreply : (oracle s.call c.request).outcome = .payload payload) :
      Asked c session s (.ok (some payload), session, s.ask oracle c.request)
  | refused (hc : c ∉ session.unsupported)
      (hreply : (oracle s.call c.request).outcome = .refused) :
      Asked c session s (.ok none, session.refuse c, s.ask oracle c.request)
  | lost (hc : c ∉ session.unsupported)
      (hreply : (oracle s.call c.request).outcome = .lost) :
      Asked c session s (.ok none, session.discard 1, s.ask oracle c.request)
  | gone (hc : c ∉ session.unsupported) (e : String)
      (hreply : (oracle s.call c.request).outcome = .gone) :
      Asked c session s (.error e, session, s.ask oracle c.request)

/-- A command is written once, unless the inverter has refused it before. -/
theorem readCommand_asked (timeout : String) (c : Command) (session : Session) (s : Wire) :
    Asked oracle c session s (readCommand (wire oracle) timeout c session s) := by
  unfold readCommand
  split_ifs with hc
  · exact .skipped hc
  · cases hreply : oracle s.call c.request with
    -- the request is logged before the port is found gone
    | writeFailed e =>
      simp only [exchange, wire, hreply]
      exact .gone hc _ (by rw [hreply]; rfl)
    | readFailed e =>
      simp only [exchange, wire, hreply, Wire.ask_log, List.getLast?_concat, Option.map_some]
      exact .gone hc _ (by rw [hreply]; rfl)
    | silence =>
      simp only [exchange, wire, hreply, Wire.ask_log, List.getLast?_concat, Option.map_some]
      exact .lost hc (by rw [hreply]; rfl)
    | frame bytes =>
      simp only [exchange, wire, hreply, Wire.ask_log, List.getLast?_concat, Option.map_some]
      cases hparse : parseResponse bytes with
      | error err =>
        dsimp only
        exact .lost hc (by rw [hreply, Reply.outcome, hparse])
      | ok response =>
        cases response with
        | nak => exact .refused hc (by rw [hreply, Reply.outcome, hparse])
        | payload payload => exact .answered hc payload (by rw [hreply, Reply.outcome, hparse])

end

/-! ## A loop over commands -/

/-- The reading that a reply holds for a command. -/
def Command.answer (c : Command) (reply : Reply) : Option Reading :=
  match reply.outcome with
  | .payload payload => (c.read payload).toOption
  | _ => none

/-- The reply is a payload that does not parse. -/
def Command.unreadable (c : Command) (reply : Reply) : Bool :=
  match reply.outcome with
  | .payload payload => (c.read payload).toOption.isNone
  | _ => false

section

variable {oracle : Nat → List UInt8 → Reply} {timeout : String}

/-- What a loop over commands leaves behind, as a function of the oracle. `missed` are the
payloads that did not parse, of which `unreadable` says how they are counted. -/
structure Gathered (oracle : Nat → List UInt8 → Reply) (unreadable : Nat)
    (commands : List Command) (session : Session) (s : Wire)
    (readings : List (Command × Option Reading)) (session' : Session) (s' : Wire) : Prop where
  call : s'.call = s.call
  unsupported : ∀ d, d ∈ session'.unsupported ↔ d ∈ session.unsupported ∨
    (d ∈ commands ∧ (oracle s.call d.request).outcome = .refused)
  values : readings = commands.map fun c =>
    (c, if c ∈ session.unsupported then none else c.answer (oracle s.call c.request))
  account : let missed := commands.countP fun c =>
      c ∉ session.unsupported ∧ c.unreadable (oracle s.call c.request)
    s'.log.length + session.unsupportedCommands + session.discardedFrames + unreadable * missed
      = s.log.length + readings.countP (fun r => r.2.isSome) + session'.unsupportedCommands
        + session'.discardedFrames + missed

/-- One command. -/
theorem gathered_singleton {unreadable : Nat} {c : Command} {session session₁ : Session}
    {s s₁ : Wire} {payload : Option (List UInt8)}
    (h : readCommand (wire oracle) timeout c session s = (.ok payload, session₁, s₁)) :
    Gathered oracle unreadable [c] session s
      [(c, (interpret unreadable c session₁ payload).1)]
      (interpret unreadable c session₁ payload).2 s₁ := by
  have hasked := readCommand_asked oracle timeout c session s
  rw [h] at hasked
  cases hasked with
  | skipped hc =>
    refine ⟨rfl, fun d => ?_, ?_, ?_⟩
    · simp only [interpret, List.mem_singleton]
      exact ⟨.inl, fun hd => hd.elim id fun hd => hd.1 ▸ hc⟩
    · simp [interpret, hc]
    · simp [interpret, hc]
  | answered hc bytes hreply =>
    rw [interpret]
    -- a payload is a value or it is unreadable, never both
    cases hread : c.read bytes with
    | ok reading =>
      refine ⟨rfl, fun d => ?_, ?_, ?_⟩
      · simp only [List.mem_singleton]
        exact ⟨.inl, fun hd => hd.elim id fun hd => by rw [hd.1, hreply] at hd; cases hd.2⟩
      · simp [hc, Command.answer, hreply, hread, Except.toOption]
      · simp [hc, Command.unreadable, hreply, hread, Except.toOption]
    | error reason =>
      refine ⟨rfl, fun d => ?_, ?_, ?_⟩
      · simp only [List.mem_singleton, Session.discard_unsupported]
        exact ⟨.inl, fun hd => hd.elim id fun hd => by rw [hd.1, hreply] at hd; cases hd.2⟩
      · simp [hc, Command.answer, hreply, hread, Except.toOption]
      · simp [hc, Command.unreadable, hreply, hread, Except.toOption]
        omega
  | refused hc hreply =>
    refine ⟨rfl, fun d => ?_, ?_, ?_⟩
    · simp only [interpret, List.mem_singleton, Session.refuse_unsupported, Finset.mem_insert]
      constructor
      · exact fun hd => hd.elim (fun hd => .inr ⟨hd, hd ▸ hreply⟩) .inl
      · exact fun hd => hd.elim .inr fun hd => .inl hd.1
    · simp [interpret, Command.answer, hreply]
    · simp [interpret, Command.unreadable, hreply]
      omega
  | lost hc hreply =>
    refine ⟨rfl, fun d => ?_, ?_, ?_⟩
    · simp only [interpret, List.mem_singleton, Session.discard_unsupported]
      exact ⟨.inl, fun hd => hd.elim id fun hd => by rw [hd.1, hreply] at hd; cases hd.2⟩
    · simp [interpret, Command.answer, hreply]
    · simp [interpret, Command.unreadable, hreply]
      omega

/-- **What a loop over commands leaves behind**: a command's part in it is a function of
that command's own reply. -/
theorem readEach_gathered {unreadable : Nat} {commands : List Command}
    (hnodup : commands.Nodup) {session session' : Session} {s s' : Wire}
    {readings : List (Command × Option Reading)}
    (h : readEach (wire oracle) timeout unreadable commands session s
      = (.ok readings, session', s')) :
    Gathered oracle unreadable commands session s readings session' s' := by
  induction commands generalizing session s readings with
  | nil =>
    cases h
    exact ⟨rfl, by simp, rfl, by simp⟩
  | cons c commands ih =>
    obtain ⟨payload, session₁, s₁, rest, hread, hrest, rfl⟩ := readEach_cons_ok h
    have hfirst : Gathered oracle unreadable [c] session s _ _ s₁ :=
      gathered_singleton hread
    rw [List.nodup_cons] at hnodup
    have hmore := ih hnodup.2 hrest
    -- the first command leaves the standing of the others alone
    have hsame : ∀ d ∈ commands,
        (d ∈ (interpret unreadable c session₁ payload).2.unsupported ↔
          d ∈ session.unsupported) := by
      intro d hd
      rw [hfirst.unsupported d]
      have hne : d ≠ c := fun heq => hnodup.1 (heq ▸ hd)
      simp [hne]
    refine ⟨hmore.call.trans hfirst.call, fun d => ?_, ?_, ?_⟩
    · rw [hmore.unsupported, hfirst.unsupported, hfirst.call, List.mem_singleton, List.mem_cons]
      tauto
    · have hhead := hfirst.values
      rw [List.map_singleton, List.cons.injEq] at hhead
      rw [List.map_cons, hhead.1, hmore.values, hfirst.call]
      refine congrArg _ (List.map_congr_left fun d hd => ?_)
      rw [if_congr (hsame d hd) rfl rfl]
    · have hcount : (commands.countP fun d =>
          d ∉ (interpret unreadable c session₁ payload).2.unsupported ∧
            d.unreadable (oracle s₁.call d.request))
          = commands.countP fun d =>
            d ∉ session.unsupported ∧ d.unreadable (oracle s.call d.request) := by
        refine List.countP_congr fun d hd => ?_
        rw [hfirst.call]
        simp only [decide_eq_true_eq, hsame d hd]
      -- the two accounts add up, since the first command changed nothing for the others
      have h₁ := hfirst.account
      have h₂ := hmore.account
      simp only [hcount] at h₂
      simp only [List.countP_cons, List.countP_nil, Nat.zero_add] at h₁ ⊢
      rw [Nat.mul_add]
      omega

end

/-! ## What a call returns -/

/-- The values in what a call returns. -/
def Output.values : Output → Nat
  | .identity attributes => attributes.countP fun a => a.2.isSome
  | .cycle polled => liveCommands.countP fun c => (polled.reading c).isSome

/-- The reading that an output holds for a live command. -/
def Output.reading (c : Command) : Output → Option Reading
  | .identity _ => none
  | .cycle polled => polled.reading c

/-- A command's reply holds readings of that command's kind. -/
theorem exists_map_of_answer {α : Type} {c : Command} {parse : List UInt8 → Except String α}
    {mk : α → Reading} (hread : ∀ payload, c.read payload = (parse payload).map mk)
    {reading : Option Reading} (h : reading = none ∨ ∃ reply, reading = c.answer reply) :
    ∃ value : Option α, reading = value.map mk := by
  rcases h with rfl | ⟨reply, rfl⟩
  · exact ⟨none, rfl⟩
  · rw [Command.answer]
    cases reply.outcome with
    | payload bytes =>
      refine ⟨(parse bytes).toOption, ?_⟩
      dsimp only
      rw [hread]
      cases parse bytes <;> rfl
    | gone => exact ⟨none, rfl⟩
    | lost => exact ⟨none, rfl⟩
    | refused => exact ⟨none, rfl⟩

theorem isSome_string? {c : Command} (hc : c ∈ staticCommands) {reading : Option Reading}
    (h : reading = none ∨ ∃ reply, reading = c.answer reply) :
    (Reading.string? reading).isSome = reading.isSome := by
  have hread : ∀ payload, c.read payload = (parseIdentity c.text payload).map .text := by
    intro payload
    simp only [staticCommands, List.mem_cons, List.not_mem_nil, or_false] at hc
    rcases hc with rfl | rfl | rfl | rfl | rfl <;> rfl
  obtain ⟨value, rfl⟩ := exists_map_of_answer hread h
  cases value <;> rfl

/-- A reading that a reply holds was read from its payload. -/
theorem exists_payload_of_answer {c : Command} {reply : Reply} {reading : Reading}
    (h : c.answer reply = some reading) : ∃ payload, c.read payload = .ok reading := by
  rw [Command.answer] at h
  split at h
  · next payload _ =>
    rcases hread : c.read payload with e | stored <;> rw [hread] at h <;> cases h
    exact ⟨payload, hread⟩
  · cases h

/-- A cycle keeps what each command's turn came to. -/
theorem reading_collect {f : Command → Option Reading}
    (hf : ∀ c, f c = none ∨ ∃ reply, f c = c.answer reply) {session : Session}
    {connectedSeconds : Nat} {c : Command} (hc : c ∈ liveCommands) :
    ((Call.poll connectedSeconds).collect session (liveCommands.map fun c => (c, f c))).reading c
      = f c := by
  have hread : ∀ d stored, (d, some stored) ∈ liveCommands.map (fun c => (c, f c)) →
      ∃ payload, d.read payload = .ok stored := by
    intro d stored hmem
    obtain ⟨e, -, heq⟩ := List.mem_map.mp hmem
    obtain ⟨rfl, hstored⟩ := Prod.mk.inj heq
    rcases hf e with hnone | ⟨reply, hreply⟩
    · rw [hnone] at hstored
      cases hstored
    · exact exists_payload_of_answer (hreply.symm.trans hstored)
  have hcommands : (liveCommands.map fun c => (c, f c)).map Prod.fst = liveCommands := by
    rw [List.map_map]
    exact List.map_id _
  exact Cycle.reading_collected hread hcommands (List.mem_map_of_mem hc)

/-- Every reading comes from the command's own reply. -/
theorem own_answer (oracle : Nat → List UInt8 → Reply) (session : Session) (i : Nat)
    (c : Command) :
    (if c ∈ session.unsupported then none else c.answer (oracle i c.request)) = none ∨
      ∃ reply, (if c ∈ session.unsupported then none else c.answer (oracle i c.request))
        = c.answer reply := by
  split_ifs with hc
  · exact .inl rfl
  · exact .inr ⟨_, rfl⟩

/-- The values a call returns are the readings its loop gathered. -/
theorem values_collect {oracle : Nat → List UInt8 → Reply} {call : Call} {unreadable : Nat}
    {session session' : Session} {s s' : Wire} {readings : List (Command × Option Reading)}
    (h : Gathered oracle unreadable call.commands session s readings session' s') :
    (call.collect session' readings).values = readings.countP fun r => r.2.isSome := by
  have hown := own_answer oracle session s.call
  rw [h.values]
  cases call with
  | identity =>
    rw [Call.collect, Output.values, List.countP_map, List.countP_map, List.countP_map]
    exact List.countP_congr fun c hc => by
      show (Reading.string? _).isSome = true ↔ _
      rw [isSome_string? hc (hown c)]
      rfl
  | poll connectedSeconds =>
    have hvalues (readings : List (Command × Option Reading)) :
        ((Call.poll connectedSeconds).collect session' readings).values
          = liveCommands.countP fun c =>
            (((Call.poll connectedSeconds).collect session' readings).reading c).isSome := rfl
    rw [hvalues, List.countP_map, Call.commands]
    refine List.countP_congr fun c hc => ?_
    rw [reading_collect hown hc]
    rfl

/-! ## Accounting for every request -/

section

variable {oracle : Nat → List UInt8 → Reply} {timeout : String}

/-- Every payload that an identity command is answered with is one that `parse_identity`
accepts. A command that the unit has refused is not asked again. -/
def IdentitiesReadable (oracle : Nat → List UInt8 → Reply) (first : Nat) (session : Session)
    (calls : List Call) : Prop :=
  ∀ i c payload, calls[i]? = some .identity → c ∈ staticCommands → c ∉ session.unsupported →
    (∀ j < i, calls[j]? = some .identity → (oracle (first + j) c.request).outcome ≠ .refused) →
    (oracle (first + i) c.request).outcome = .payload payload →
    ∃ text, parseIdentity c.text payload = .ok text

/-- An identity reply is readable just when it is text. -/
theorem unreadable_eq_false_iff {c : Command} (hc : c ∈ staticCommands) {reply : Reply} :
    c.unreadable reply = false ↔
      ∀ payload, reply.outcome = .payload payload →
        ∃ text, parseIdentity c.text payload = .ok text := by
  have hread : ∀ payload, c.read payload = (parseIdentity c.text payload).map .text := by
    intro payload
    simp only [staticCommands, List.mem_cons, List.not_mem_nil, or_false] at hc
    rcases hc with rfl | rfl | rfl | rfl | rfl <;> rfl
  rw [Command.unreadable]
  cases reply.outcome with
  | payload bytes =>
    dsimp only
    rw [hread]
    cases hparse : parseIdentity c.text bytes with
    | ok text => simp [Except.map, Except.toOption, hparse]
    | error reason => simp [Except.map, Except.toOption, hparse]
  | gone => simp
  | lost => simp
  | refused => simp

/-- The condition on the first call, and on the rest from the session that call leaves. -/
theorem identitiesReadable_cons {call : Call} {calls : List Call} {unreadable : Nat}
    {session session₁ : Session} {s s₁ : Wire} {readings : List (Command × Option Reading)}
    (h : Gathered oracle unreadable call.commands session s readings session₁ s₁) :
    IdentitiesReadable oracle s.call session (call :: calls) ↔
      (call = .identity → ∀ c ∈ staticCommands, c ∉ session.unsupported →
        c.unreadable (oracle s.call c.request) = false) ∧
      IdentitiesReadable oracle (s.call + 1) session₁ calls := by
  constructor
  · intro hall
    refine ⟨?_, ?_⟩
    · rintro rfl c hc hnew
      rw [unreadable_eq_false_iff hc]
      intro payload hpayload
      exact hall 0 c payload rfl hc hnew (fun j hj => absurd hj (by omega)) hpayload
    · intro i c payload hi hc hnew hbefore hpayload
      rw [h.unsupported c, not_or] at hnew
      refine hall (i + 1) c payload hi hc hnew.1 ?_ ?_
      · intro j hj hcall
        cases j with
        | zero =>
          rw [List.getElem?_cons_zero, Option.some.injEq] at hcall
          subst hcall
          exact fun hrefused => hnew.2 ⟨hc, hrefused⟩
        | succ j =>
          have hj' := hbefore j (by omega) hcall
          rwa [Nat.add_assoc, Nat.add_comm 1 j] at hj'
      · rwa [Nat.add_assoc, Nat.add_comm 1 i] at hpayload
  · rintro ⟨hfirst, hrest⟩ i c payload hi hc hnew hbefore hpayload
    cases i with
    | zero =>
      rw [List.getElem?_cons_zero, Option.some.injEq] at hi
      exact (unreadable_eq_false_iff hc).mp (hfirst hi c hc hnew) payload hpayload
    | succ i =>
      refine hrest i c payload hi hc ?_ ?_ ?_
      · rw [h.unsupported c, not_or]
        refine ⟨hnew, ?_⟩
        rintro ⟨hasked, hrefused⟩
        cases call with
        | identity => exact hbefore 0 (by omega) rfl hrefused
        | poll connectedSeconds =>
          exact static_not_live hc hasked
      · intro j hj hcall
        have hj' := hbefore (j + 1) (by omega) hcall
        rwa [Nat.add_comm j 1, ← Nat.add_assoc] at hj'
      · rwa [Nat.add_comm i 1, ← Nat.add_assoc] at hpayload

/-- Every request is a value, is counted, or was answered with an identity that could not be
read. -/
theorem runCalls_account {calls : List Call} {outputs : List Output}
    {session session' : Session} {s s' : Wire}
    (h : runCalls (wire oracle) timeout Wire.turn calls session s = (.ok outputs, session', s')) :
    ∃ missed, (missed = 0 ↔ IdentitiesReadable oracle s.call session calls) ∧
      s'.log.length + session.unsupportedCommands + session.discardedFrames
        = s.log.length + (outputs.map Output.values).sum + session'.unsupportedCommands
          + session'.discardedFrames + missed := by
  induction calls generalizing session s outputs with
  | nil =>
    cases h
    exact ⟨0, ⟨fun _ i c payload hi => (by cases hi), fun _ => rfl⟩, by simp⟩
  | cons call calls ih =>
    obtain ⟨readings, session₁, s₁, rest, hread, hrest, rfl⟩ := runCalls_cons_ok h
    have hcall := readEach_gathered call.nodup_commands hread
    obtain ⟨missed, hmissed, haccount⟩ := ih hrest
    have hturn : s₁.turn.call = s.call + 1 := by rw [Wire.turn, hcall.call]
    rw [hturn] at hmissed
    have hown := hcall.account
    have hvalues := values_collect hcall
    rw [identitiesReadable_cons hcall, ← hmissed, List.map_cons, List.sum_cons, hvalues]
    have hlog : s₁.turn.log = s₁.log := rfl
    rw [hlog] at haccount
    cases call with
    | identity =>
      refine ⟨missed + staticCommands.countP fun c =>
        c ∉ session.unsupported ∧ c.unreadable (oracle s.call c.request), ?_, ?_⟩
      · rw [Nat.add_eq_zero_iff, and_comm, List.countP_eq_zero]
        refine and_congr ⟨fun hnone _ c hc hnew => ?_, fun hall c hc => ?_⟩ Iff.rfl
        · simpa [hnew] using hnone c hc
        · simpa using hall rfl c hc
      · simp only [Call.unreadable, Call.commands, Nat.zero_mul] at hown
        omega
    | poll connectedSeconds =>
      refine ⟨missed, ⟨fun h0 => ⟨fun hne => (by cases hne), h0⟩, fun h0 => h0.2⟩, ?_⟩
      simp only [Call.unreadable, Nat.one_mul] at hown
      omega

/-- As many requests as values and counted failures. -/
def Accounted (session : Session) (outputs : List Output) (session' : Session) (s' : Wire) :
    Prop :=
  (s'.log.length : Int) = (outputs.map Output.values).sum
    + ((session'.unsupportedCommands : Int) - session.unsupportedCommands)
    + ((session'.discardedFrames : Int) - session.discardedFrames)

instance decidableAccounted (session : Session) (outputs : List Output) (session' : Session)
    (s' : Wire) : Decidable (Accounted session outputs session' s') :=
  inferInstanceAs (Decidable (_ = _))

/-- **The link counters account for every exchange** of a run without I/O error, exactly
when no identity command is answered with a payload that `parse_identity` refuses: such an
answer is dropped and counted nowhere. -/
theorem requests_accounted_iff {calls : List Call} {outputs : List Output}
    {session session' : Session} {s' : Wire}
    (h : runCalls (wire oracle) timeout Wire.turn calls session {} = (.ok outputs, session', s')) :
    Accounted session outputs session' s' ↔ IdentitiesReadable oracle 0 session calls := by
  obtain ⟨missed, hmissed, haccount⟩ := runCalls_account h
  rw [← hmissed, Accounted]
  simp only [List.length_nil] at haccount
  omega

/-- An inverter that is silent but for one answer. -/
def answersOnly (c : Command) (payload : List UInt8) : Nat → List UInt8 → Reply :=
  fun _ request => if request = c.request then .frame (buildResponse payload) else .silence

/-- What the identity round leaves when only `QID` is answered. -/
def onlySerial (serial : Option String) (payload : List UInt8) :
    Except String (List Output) × Session × Wire :=
  (.ok [.identity [("serial_number", serial), ("firmware", none), ("firmware_panel", none),
      ("model", none), ("model_code", none)]],
    { discardedFrames := 4 },
    { call := 1
      log := [⟨Command.qid.request, .frame (buildResponse payload)⟩,
        ⟨Command.qvfw.request, .silence⟩, ⟨Command.qvfw3.request, .silence⟩,
        ⟨Command.qmn.request, .silence⟩, ⟨Command.qgmn.request, .silence⟩] })

/-- A serial number comes in: five requests, one value, four frames that never came. -/
theorem requests_accounted_iff_serial :
    runCalls (wire (answersOnly .qid [0x39, 0x32])) "" Wire.turn [.identity] {} {}
        = onlySerial (some "92") [0x39, 0x32] ∧
      IdentitiesReadable (answersOnly .qid [0x39, 0x32]) 0 {} [.identity] := by
  have hrun : runCalls (wire (answersOnly .qid [0x39, 0x32])) "" Wire.turn [.identity] {} {}
      = onlySerial (some "92") [0x39, 0x32] := by
    decide +kernel
  exact ⟨hrun, (requests_accounted_iff hrun).mp (by decide)⟩

/-- `QID` is answered with a frame in order whose payload is a control character: five
requests, no value, and four counted failures. -/
theorem identity_payload_not_counted :
    ¬ ∀ (oracle : Nat → List UInt8 → Reply) (timeout : String) (calls : List Call)
      (outputs : List Output) (session session' : Session) (s' : Wire),
      runCalls (wire oracle) timeout Wire.turn calls session {} = (.ok outputs, session', s') →
        Accounted session outputs session' s' := by
  intro hall
  have hrun : runCalls (wire (answersOnly .qid [0x01])) "" Wire.turn [.identity] {} {}
      = onlySerial none [0x01] := by
    decide +kernel
  have haccounted := hall _ _ _ _ _ _ _ hrun
  revert haccounted
  decide

end

/-! ## At all times -/

section

variable (oracle : Nat → List UInt8 → Reply) (timeout : String)

/-- A moment of a run: some calls are over, and of the next one the first `read` commands. -/
structure Moment where
  calls : List Call
  call : Call
  read : Nat

/-- The session and the port at a moment. A call that fails is the last one. -/
def Moment.state (m : Moment) : Session × Wire :=
  match runCalls (wire oracle) timeout Wire.turn m.calls {} {} with
  | (.error _, session, s) => (session, s)
  | (.ok _, session, s) =>
    (readEach (wire oracle) timeout m.call.unreadable (m.call.commands.take m.read) session s).2

/-- One moment is not after another of the same run. -/
def Moment.Before (m m' : Moment) : Prop :=
  (m.calls = m'.calls ∧ m.call = m'.call ∧ m.read ≤ m'.read) ∨
    ∃ more, m'.calls = m.calls ++ m.call :: more

/-- Once a request is answered with a refusal it is not written again. -/
def NotAgain (e later : Exchange) : Prop :=
  e.reply.outcome = .refused → later.request ≠ e.request

/-- What the session remembers is what the log says. -/
structure Books (x : Session × Wire) : Prop where
  card : x.1.unsupportedCommands = x.1.unsupported.card
  refused : ∀ e ∈ x.2.log, e.reply.outcome = .refused →
    ∃ c ∈ x.1.unsupported, e.request = c.request
  once : x.2.log.Pairwise NotAgain

variable {oracle timeout}

/-- Asking a command that is not known to be refused. -/
theorem Books.ask {c : Command} {session session' : Session} {s : Wire} (h : Books (session, s))
    (hc : c ∉ session.unsupported) (hsub : session.unsupported ⊆ session'.unsupported)
    (hcard : session'.unsupportedCommands = session'.unsupported.card)
    (hrefused : (oracle s.call c.request).outcome = .refused → c ∈ session'.unsupported) :
    Books (session', s.ask oracle c.request) := by
  refine ⟨hcard, ?_, ?_⟩
  · intro e he hout
    rw [Wire.ask_log, List.mem_append, List.mem_singleton] at he
    rcases he with he | rfl
    · obtain ⟨d, hd, hreq⟩ := h.refused e he hout
      exact ⟨d, hsub hd, hreq⟩
    · exact ⟨c, hrefused hout, rfl⟩
  · rw [Wire.ask_log, List.pairwise_append]
    refine ⟨h.once, List.pairwise_singleton _ _, ?_⟩
    intro e he later hlater hout heq
    rw [List.mem_singleton] at hlater
    subst hlater
    obtain ⟨d, hd, hreq⟩ := h.refused e he hout
    exact hc (request_injective (heq.trans hreq) ▸ hd)

/-- The books are kept by every step. -/
theorem kept_books :
    Kept (wire oracle) timeout Wire.turn fun x y => Books x → Books y where
  refl _ h := h
  trans hxy hyz h := hyz (hxy h)
  read c session s h := by
    have hasked := readCommand_asked oracle timeout c session s
    revert hasked
    generalize readCommand (wire oracle) timeout c session s = result
    intro hasked
    cases hasked with
    | skipped hc => exact h
    | answered hc payload hreply =>
      exact h.ask hc subset_rfl h.card fun hout => by rw [hreply] at hout; cases hout
    | refused hc hreply =>
      refine h.ask hc (Finset.subset_insert _ _) ?_ fun _ => Finset.mem_insert_self _ _
      rw [Session.refuse_unsupported, Finset.card_insert_of_notMem hc, ← h.card]
      rfl
    | lost hc hreply =>
      exact h.ask hc subset_rfl h.card fun hout => by rw [hreply] at hout; cases hout
    | gone hc e hreply =>
      exact h.ask hc subset_rfl h.card fun hout => by rw [hreply] at hout; cases hout
  discard n session s h := ⟨h.card, h.refused, h.once⟩
  turn session s h := ⟨h.card, h.refused, h.once⟩

/-- Neither counter is behind. -/
def CountersLe (x y : Session × Wire) : Prop :=
  x.1.unsupportedCommands ≤ y.1.unsupportedCommands ∧ x.1.discardedFrames ≤ y.1.discardedFrames

/-- No step takes a counter back. -/
theorem kept_countersLe : Kept (wire oracle) timeout Wire.turn CountersLe where
  refl _ := ⟨Nat.le_refl _, Nat.le_refl _⟩
  trans hxy hyz := ⟨hxy.1.trans hyz.1, hxy.2.trans hyz.2⟩
  read c session s := by
    have hasked := readCommand_asked oracle timeout c session s
    revert hasked
    generalize readCommand (wire oracle) timeout c session s = result
    intro hasked
    cases hasked with
    | skipped hc => exact ⟨Nat.le_refl _, Nat.le_refl _⟩
    | answered hc payload hreply => exact ⟨Nat.le_refl _, Nat.le_refl _⟩
    | refused hc hreply => exact ⟨Nat.le_succ _, Nat.le_refl _⟩
    | lost hc hreply => exact ⟨Nat.le_refl _, Nat.le_succ _⟩
    | gone hc e hreply => exact ⟨Nat.le_refl _, Nat.le_refl _⟩
  discard n session s := ⟨Nat.le_refl _, Nat.le_add_right _ _⟩
  turn session s := ⟨Nat.le_refl _, Nat.le_refl _⟩

/-- What every step keeps holds from the beginning of a run to each of its moments. -/
theorem kept_state {R : Session × Wire → Session × Wire → Prop}
    (hR : Kept (wire oracle) timeout Wire.turn R) (m : Moment) :
    R ({}, {}) (m.state oracle timeout) := by
  have hcalls := hR.runCalls m.calls {} {}
  rw [Moment.state]
  rcases hrun : runCalls (wire oracle) timeout Wire.turn m.calls {} {}
    with ⟨_ | outputs, session, s⟩ <;> rw [hrun] at hcalls
  · exact hcalls
  · exact hR.trans hcalls (hR.readEach _ _ _ _)

/-- What every step keeps holds between two moments of a run. -/
theorem kept_before {R : Session × Wire → Session × Wire → Prop}
    (hR : Kept (wire oracle) timeout Wire.turn R) {m m' : Moment} (h : m.Before m') :
    R (m.state oracle timeout) (m'.state oracle timeout) := by
  rcases h with ⟨hcalls, hcall, hread⟩ | ⟨more, hmore⟩
  · rw [Moment.state, Moment.state, hcalls, hcall]
    rcases runCalls (wire oracle) timeout Wire.turn m'.calls {} {} with ⟨_ | outputs, session, s⟩
    · exact hR.refl _
    · have hsplit : m'.call.commands.take m'.read = m'.call.commands.take m.read
          ++ (m'.call.commands.take m'.read).drop m.read := by
        conv_lhs => rw [← List.take_append_drop m.read (m'.call.commands.take m'.read)]
        rw [List.take_take, Nat.min_eq_left hread]
      dsimp only
      rw [hsplit]
      exact hR.readEach_append _ _ _ _ _
  · -- from the moment to the end of its call, and on through the calls behind it
    have hlong : (runCalls (wire oracle) timeout Wire.turn (m.calls ++ m.call :: more) {} {}).2
        = _ := runCalls_append_state Wire.turn m.calls (m.call :: more) {} {}
    rw [← hmore] at hlong
    have hmoment : R (m.state oracle timeout)
        (runCalls (wire oracle) timeout Wire.turn m'.calls {} {}).2 := by
      rw [hlong, Moment.state]
      rcases runCalls (wire oracle) timeout Wire.turn m.calls {} {} with ⟨_ | outputs, session, s⟩
      · exact hR.refl _
      · dsimp only
        have hcall := hR.readEach_append m.call.unreadable (m.call.commands.take m.read)
          (m.call.commands.drop m.read) session s
        rw [List.take_append_drop] at hcall
        rw [runCalls_cons_state, Call.perform_eq]
        rcases hres : readEach (wire oracle) timeout m.call.unreadable m.call.commands session s
          with ⟨_ | readings, session₁, s₁⟩ <;> rw [hres] at hcall
        · exact hcall
        · exact hR.trans hcall (hR.trans (hR.turn _ _) (hR.runCalls _ _ _))
    refine hR.trans hmoment ?_
    rw [Moment.state]
    rcases runCalls (wire oracle) timeout Wire.turn m'.calls {} {} with ⟨_ | outputs, session, s⟩
    · exact hR.refl _
    · exact hR.readEach _ _ _ _

/-! ## One command's replies alone -/

/-- What runs make of a live command depends on its own replies. -/
theorem readings_eq_of_own_replies {oracle' : Nat → List UInt8 → Reply} {c : Command}
    (hc : c ∈ liveCommands) (hown : ∀ i, oracle i c.request = oracle' i c.request)
    {calls : List Call} {session₁ session₂ session₁' session₂' : Session} {s₁ s₂ s₁' s₂' : Wire}
    {outputs₁ outputs₂ : List Output} (hcall : s₁.call = s₂.call)
    (hknown : c ∈ session₁.unsupported ↔ c ∈ session₂.unsupported)
    (h₁ : runCalls (wire oracle) timeout Wire.turn calls session₁ s₁
      = (.ok outputs₁, session₁', s₁'))
    (h₂ : runCalls (wire oracle') timeout Wire.turn calls session₂ s₂
      = (.ok outputs₂, session₂', s₂')) :
    outputs₁.map (Output.reading c) = outputs₂.map (Output.reading c) := by
  induction calls generalizing session₁ session₂ s₁ s₂ outputs₁ outputs₂ with
  | nil =>
    cases h₁
    cases h₂
    rfl
  | cons call calls ih =>
    obtain ⟨readings₁, mid₁, p₁, rest₁, hread₁, hrest₁, rfl⟩ := runCalls_cons_ok h₁
    obtain ⟨readings₂, mid₂, p₂, rest₂, hread₂, hrest₂, rfl⟩ := runCalls_cons_ok h₂
    have hg₁ := readEach_gathered call.nodup_commands hread₁
    have hg₂ := readEach_gathered call.nodup_commands hread₂
    rw [List.map_cons, List.map_cons]
    have htail : rest₁.map (Output.reading c) = rest₂.map (Output.reading c) := by
      refine ih ?_ ?_ hrest₁ hrest₂
      · rw [Wire.turn, Wire.turn, hg₁.call, hg₂.call, hcall]
      · rw [hg₁.unsupported, hg₂.unsupported, hknown, hown, hcall]
    have hhead : (call.collect mid₁ readings₁).reading c
        = (call.collect mid₂ readings₂).reading c := by
      cases call with
      | identity => rfl
      | poll connectedSeconds =>
        rw [hg₁.values, hg₂.values, Call.commands, reading_collect (own_answer _ _ _) hc,
          reading_collect (own_answer _ _ _) hc, if_congr hknown rfl rfl, hown, hcall]
    rw [hhead, htail]

/-- **Session bookkeeping and isolation of commands.** At every moment of every run the
counter of refusals is the number of refused commands and none of these was asked again;
neither counter ever goes back; and what the poll cycles of a run without I/O error hold for
a live command stays the same whatever the other commands are answered with. -/
theorem session_bookkeeping (oracle : Nat → List UInt8 → Reply) (timeout : String) :
    (∀ m : Moment,
      (m.state oracle timeout).1.unsupportedCommands
          = (m.state oracle timeout).1.unsupported.card ∧
        (m.state oracle timeout).2.log.Pairwise NotAgain) ∧
    (∀ m m' : Moment, m.Before m' →
      CountersLe (m.state oracle timeout) (m'.state oracle timeout)) ∧
    (∀ (oracle' : Nat → List UInt8 → Reply) (c : Command) (calls : List Call)
      (outputs outputs' : List Output) (end₁ end₂ : Session × Wire), c ∈ liveCommands →
      (∀ i, oracle i c.request = oracle' i c.request) →
      runCalls (wire oracle) timeout Wire.turn calls {} {} = (.ok outputs, end₁) →
      runCalls (wire oracle') timeout Wire.turn calls {} {} = (.ok outputs', end₂) →
      outputs.map (Output.reading c) = outputs'.map (Output.reading c)) := by
  refine ⟨fun m => ?_, fun m m' h => kept_before kept_countersLe h, ?_⟩
  · have hbooks : Books (m.state oracle timeout) :=
      kept_state kept_books m ⟨rfl, fun e he => (nomatch he), List.Pairwise.nil⟩
    exact ⟨hbooks.card, hbooks.once⟩
  · rintro oracle' c calls outputs outputs' ⟨_, _⟩ ⟨_, _⟩ hc hown h₁ h₂
    exact readings_eq_of_own_replies hc hown rfl Iff.rfl h₁ h₂

/-- An inverter that answers one command and refuses all others. -/
def refusesBut (c : Command) (payload : List UInt8) : Nat → List UInt8 → Reply :=
  fun _ request => .frame (buildResponse (if request = c.request then payload else nak))

/-- The mode that `QMOD` is answered with stands in two cycles, whether the other commands
are lost or refused. -/
theorem session_bookkeeping_mode :
    let silent := runCalls (wire (answersOnly .qmod [0x42])) "" Wire.turn [.poll 0, .poll 5] {} {}
    let refusing := runCalls (wire (refusesBut .qmod [0x42])) "" Wire.turn [.poll 0, .poll 5] {} {}
    silent.1.toOption.map (List.map (Output.reading .qmod))
      = refusing.1.toOption.map (List.map (Output.reading .qmod)) := by
  intro silent refusing
  have hsilent : silent.1.isOk = true := by decide +kernel
  have hrefusing : refusing.1.isOk = true := by decide +kernel
  rcases hs : silent with ⟨_ | outputs, x⟩
  · rw [hs] at hsilent
    cases hsilent
  · rcases hr : refusing with ⟨_ | outputs', x'⟩
    · rw [hr] at hrefusing
      cases hrefusing
    · have hown : ∀ i, answersOnly .qmod [0x42] i Command.qmod.request
          = refusesBut .qmod [0x42] i Command.qmod.request := by
        intro i
        rw [answersOnly, refusesBut, if_pos rfl, if_pos rfl]
      exact congrArg some ((session_bookkeeping (answersOnly .qmod [0x42]) "").2.2
        (refusesBut .qmod [0x42]) .qmod _ outputs outputs' x x' (by decide) hown hs hr)

end

end HostServices.Inverter
