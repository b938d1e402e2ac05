import HostServices.Bms.Accounting
import HostServices.Bms.GreedyScan
import HostServices.Bms.Discover

/-!
# From discovery to measurement (`bms-monitoring/src/main.rs`: `connect`, `run`)

`connect` sweeps the candidate ports and probes each one it can open; the first
that pushes a realtime frame is handed to `run`, which reads on from the same
port with a reader of its own. The probe's reader is dropped at that point,
together with whatever it had buffered.

- `connect`, `Session.start`: the sweep and the session set-up;
- `Continuous`: over the hand-over, no frame is lost or repeated;
- `Clean`: the probe's reader holds nothing that is or may become a frame;
- `handover_continuous_iff`: continuity holds for everything the port may still
  deliver exactly when the probe's reader was clean.
-/

namespace HostServices.Bms

open HostServices.Lib

/-- One USB serial device: what to open, and two ways of naming it. -/
structure Candidate where
  tty : String
  pathId : String
  byId : Option String
  deriving DecidableEq, Repr

/-- What `SerialPort::open` finds: a port and everything it and the clock will
answer, a port held by another process, or an error. -/
inductive Opening where
  | port (line : Line)
  | busy
  | failed (error : String)

/-- A port on which the BMS was found: the open port, the frame that identified
it, and what the probe did to get there. -/
structure Connection where
  candidate : Candidate
  frame : Frame
  line : Line
  probed : Probed

/-- The sweep over the ordered candidates; `none` while a probe is listening. -/
def connectSweep (listen : Nat) :
    List (Candidate × Opening) → Option (Except String Connection)
  | [] => some (.error "no BMS found on any USB serial device")
  | (_, .busy) :: rest => connectSweep listen rest
  | (_, .failed _) :: rest => connectSweep listen rest
  | (candidate, .port line) :: rest =>
    let probed := probe line listen
    match probed.answer with
    | none => none
    | some (.ok (.bms frame)) => some (.ok ⟨candidate, frame, probed.line, probed⟩)
    | some (.ok .silent) => connectSweep listen rest
    | some (.ok (.notABms _)) => connectSweep listen rest
    | some (.error _) => connectSweep listen rest

/-- `connect`: one sweep over the devices there are, if there are any. -/
def connect (devDir : String) (listen : Nat) (all : List (Candidate × Opening)) :
    Option (Except String Connection) :=
  if all.isEmpty then some (.error s!"no ttyUSB devices under {devDir}")
  else connectSweep listen all

/-- Everything that outlives one measurement. -/
structure Session where
  device : String
  tty : String
  reader : FrameReader

/-- The session `run` opens on a connection: a fresh reader. -/
def Session.start (c : Connection) : Session where
  device := c.candidate.pathId
  tty := c.candidate.tty
  reader := {}

/-- A connection comes from a probe that answered `Bms`. -/
theorem connect_eq_ok {devDir : String} {listen : Nat} {all : List (Candidate × Opening)}
    {c : Connection} (h : connect devDir listen all = some (.ok c)) :
    ∃ line, (c.candidate, .port line) ∈ all ∧ c.probed = probe line listen ∧
      c.probed.answer = some (.ok (.bms c.frame)) ∧ c.line = c.probed.line := by
  rw [connect] at h
  split at h
  · cases h
  · clear * - h
    induction all with
    | nil => cases h
    | cons head rest ih =>
      have hrest : connectSweep listen rest = some (.ok c) →
          ∃ line, (c.candidate, .port line) ∈ head :: rest ∧ c.probed = probe line listen ∧
            c.probed.answer = some (.ok (.bms c.frame)) ∧ c.line = c.probed.line := by
        intro h'
        obtain ⟨line, hmem, hrest⟩ := ih h'
        exact ⟨line, List.mem_cons_of_mem _ hmem, hrest⟩
      obtain ⟨candidate, opening⟩ := head
      cases opening with
      | busy => exact hrest h
      | failed e => exact hrest h
      | port line =>
        simp only [connectSweep] at h
        split at h
        · cases h
        · rename_i frame hanswer
          cases h
          exact ⟨line, List.mem_cons_self .., rfl, hanswer, rfl⟩
        · exact hrest h
        · exact hrest h
        · exact hrest h

/-! ## How much a frame takes -/

theorem framesIn_of_length_lt {b : List UInt8} (h : b.length < 300) : framesIn b = [] := by
  have hlen := run_length (framer.run_drain b).1
  refine List.eq_nil_of_length_eq_zero ?_
  rw [framesIn]
  unfold frameLen at hlen
  omega

/-- A valid frame anywhere in a byte string makes a reader emit something. -/
theorem framesIn_ne_nil {s : List UInt8} {p : Nat} (hat : HeaderAt s p)
    (hav : Available s p) (hsum : SumMatches s p) : framesIn s ≠ [] := by
  obtain ⟨hrun, hstuck⟩ := framer.run_drain s
  change framer.Run (s.drop 0) _ _ at hrun
  obtain ⟨acc, rej, hscan, hframes, -⟩ := run_greedyScan (Nat.zero_le _) hrun hstuck
  rw [framesIn, hframes]
  intro hnil
  have hacc : acc = [] := List.map_eq_nil_iff.mp hnil
  rcases hscan.mem_or_overlapped (Nat.zero_le p) hat hav hsum with hmem | ⟨q, hmem, -⟩ <;>
    rw [hacc] at hmem <;> cases hmem

theorem framesIn_append (b s : List UInt8) :
    framesIn (b ++ s) = framesIn b ++ framesIn ((framer.drain b).2 ++ s) := by
  rw [framesIn, framer.drain_append, framesOf_append]
  rfl

/-! ## What may still become a frame -/

/-- `u` agrees with the header as far as both go. -/
def BeginsHeader (u : List UInt8) : Prop := u.take 4 <+: header

instance (u : List UInt8) : Decidable (BeginsHeader u) :=
  inferInstanceAs (Decidable (_ <+: _))

/-- Nothing in `buffer` is a frame, and nothing left over once it has been
scanned is the beginning of one. -/
def Clean (buffer : List UInt8) : Prop :=
  framesIn buffer = [] ∧
    ∀ q < (framer.drain buffer).2.length, ¬ BeginsHeader ((framer.drain buffer).2.drop q)

/-- Leftovers that begin no header are too short for one. -/
theorem length_of_clean {r : List UInt8} (hstuck : framer.Stuck r)
    (hno : ∀ q < r.length, ¬ BeginsHeader (r.drop q)) : r.length ≤ 3 := by
  rcases framer_stuck_iff.mp hstuck with ⟨hat, -⟩ | ⟨-, hlen⟩
  · refine absurd ?_ (hno 0 (by have := hat.le; omega))
    exact ⟨[], by rw [List.append_nil]; exact hat⟩
  · exact hlen

/-- Such leftovers are skipped, once something stands behind them. -/
theorem run_of_clean {r s : List UInt8} (hshort : r.length ≤ 3) (hs : 3 ≤ s.length)
    (hno : ∀ q < r.length, ¬ BeginsHeader (r.drop q)) :
    framer.Run (r ++ s) (List.replicate r.length .skipped) s := by
  have hskip := run_skipped r.length (b := r ++ s)
    (by rw [List.length_append]; omega) fun q hq hat => ?_
  · rwa [List.drop_left] at hskip
  · refine hno q hq ?_
    rw [HeaderAt, List.drop_append_of_le_length (Nat.le_of_lt hq)] at hat
    rw [BeginsHeader, List.take_of_length_le (by rw [List.length_drop]; omega)]
    have hpre : r.drop q <+: (r.drop q ++ s).take header.length :=
      List.prefix_take_iff.mpr ⟨List.prefix_append .., by
        rw [List.length_drop]; show _ ≤ 4; omega⟩
    rwa [hat] at hpre

/-- Leftovers that begin no header do not change what follows. -/
theorem framesIn_append_of_clean {r s : List UInt8} (hstuck : framer.Stuck r)
    (hno : ∀ q < r.length, ¬ BeginsHeader (r.drop q)) :
    framesIn (r ++ s) = framesIn s := by
  have hshort := length_of_clean hstuck hno
  rcases Nat.lt_or_ge s.length 3 with hs | hs
  · rw [framesIn_of_length_lt (by rw [List.length_append]; omega),
      framesIn_of_length_lt (by omega)]
  · rw [framesIn, (run_of_clean hshort hs hno).drain_eq, framesOf_append,
      framesOf_replicate_skipped, List.nil_append]
    rfl

/-- Bytes that complete the beginning of a header to a whole valid frame. -/
def completion (u : List UInt8) : List UInt8 :=
  let body := header.drop u.length ++ List.replicate (299 - max u.length 4) 0
  body ++ [checksum (u ++ body)]

theorem completion_spec {u : List UInt8} (hlen : u.length < 300) (hbegin : BeginsHeader u) :
    HeaderAt (u ++ completion u) 0 ∧ (u ++ completion u).length = 300 ∧
      SumOk (u ++ completion u) := by
  generalize hbody : header.drop u.length ++ List.replicate (299 - max u.length 4) 0 = body
  have hcompl : completion u = body ++ [checksum (u ++ body)] := by rw [← hbody]; rfl
  have hhead : header.length = 4 := rfl
  have hlen' : (u ++ body).length = 299 := by
    rw [← hbody]
    simp only [List.length_append, List.length_drop, List.length_replicate, hhead]
    omega
  have hfour : (u ++ body).take 4 = header := by
    rcases Nat.lt_or_ge u.length 4 with hu | hu
    · obtain ⟨t, ht⟩ := hbegin
      rw [List.take_of_length_le (Nat.le_of_lt hu)] at ht
      rw [← hbody, ← ht, List.drop_left, ← List.append_assoc, ht]
      exact List.take_left' hhead
    · rw [List.take_append_of_le_length hu]
      exact List.IsPrefix.eq_of_length hbegin (by rw [List.length_take, hhead]; omega)
  rw [hcompl, ← List.append_assoc]
  refine ⟨?_, by rw [List.length_append, hlen']; rfl, ?_⟩
  · rw [HeaderAt, List.drop_zero, List.take_append_of_le_length (by rw [hhead]; omega)]
    exact hfour
  · rw [SumOk, List.take_of_length_le (by rw [List.length_append, hlen']; exact Nat.le_refl _)]
    have hsum : checksum (u ++ body ++ [checksum (u ++ body)]) = checksum (u ++ body) := by
      rw [checksum, List.take_append_of_le_length (by rw [hlen']; exact Nat.le_refl _)]
      rfl
    rw [hsum, List.getD_eq_getElem?_getD, List.getElem?_append_right (by
      rw [hlen']; exact Nat.le_refl _), hlen']
    rfl

/-- A leftover that begins a header can still become a frame. -/
theorem framesIn_completion_ne_nil {r : List UInt8} {q : Nat} (hq : q < r.length)
    (hr : r.length < 300) (hbegin : BeginsHeader (r.drop q)) :
    framesIn (r ++ completion (r.drop q)) ≠ [] := by
  obtain ⟨hat, hlen, hsum⟩ :=
    completion_spec (u := r.drop q) (by rw [List.length_drop]; omega) hbegin
  have hdrop : (r ++ completion (r.drop q)).drop q = r.drop q ++ completion (r.drop q) :=
    List.drop_append_of_le_length (Nat.le_of_lt hq)
  refine framesIn_ne_nil (p := q) ?_ ?_ ?_
  · rw [← hdrop, headerAt_drop] at hat
    exact hat
  · rw [List.length_append, List.length_drop] at hlen
    rw [Available, List.length_append]
    omega
  · rw [← hdrop] at hsum
    exact (sumOk_drop_iff _ q).mp hsum

/-! ## The hand-over -/

/-- The frames the probe saw and those the session took are an initial part of
what one reader would emit on all the bytes the port delivered, and the rest of
those are still to come out of the session's buffer. -/
def Continuous (probed : Probed) (s : Served) : Prop :=
  probed.seen ++ s.seen <+: (FrameReader.feed {} (probed.bytes ++ s.bytes)).drain.1 ∧
    (FrameReader.feed {} (probed.bytes ++ s.bytes)).drain.1
      = probed.seen ++ s.seen ++ s.reader.drain.1

/-- What the probe read is what it saw, and what it left in its reader. -/
theorem probe_tracks (line : Line) (window : Nat) :
    ∃ l, Tracks (probe line window).bytes l (probe line window).reader ∧
      framesOf l = (probe line window).seen := by
  obtain ⟨clock, reads⟩ := line
  cases clock with
  | nil => exact ⟨[], tracks_default, rfl⟩
  | cons now clock =>
    obtain ⟨⟨l, htracks, hframes⟩, -⟩ :=
      readUntil_spec Frame.isRealtime (now + window) ⟨clock, reads⟩ tracks_default
    rw [List.nil_append, List.nil_append] at htracks
    exact ⟨l, htracks, hframes⟩

/-- Continuity is that dropping the probe's leftovers makes no difference. -/
theorem continuous_iff (line : Line) (window : Nat) (rest : Line) (qs : List Request) :
    Continuous (probe line window) (serve {} rest qs) ↔
      framesIn ((probe line window).reader.buffer ++ (serve {} rest qs).bytes)
        = framesIn (serve {} rest qs).bytes := by
  obtain ⟨l, htracks, hseen⟩ := probe_tracks line window
  have hall : framesIn ((probe line window).bytes ++ (serve {} rest qs).bytes)
      = (probe line window).seen ++
        framesIn ((probe line window).reader.buffer ++ (serve {} rest qs).bytes) := by
    rw [framesIn, (htracks.run.append _).drain_eq, framesOf_append, hseen]
    rfl
  have hsession := serve_seen rest qs
  rw [Continuous, feed_drain, hall, List.append_assoc, hsession]
  constructor
  · exact fun h => List.append_cancel_left h.2
  · intro h
    rw [h]
    refine ⟨?_, rfl⟩
    rw [← hsession, ← List.append_assoc]
    exact List.prefix_append ..

/-- Whatever bytes the port delivers, some sequence of calls reads them all. -/
theorem exists_serve_bytes (bytes : List UInt8) :
    ∃ line qs, (serve {} line qs).bytes = bytes := by
  refine ⟨⟨[0], [.ok bytes]⟩, [⟨fun _ => false, 1⟩], ?_⟩
  have hnone : ∀ r, (takeAccepted (fun _ => false) r).1 = none := by
    intro r
    obtain ⟨-, hverdict⟩ := takeAccepted_spec (fun _ => false) r
    cases hfound : (takeAccepted (fun _ => false) r).1 with
    | none => rfl
    | some f =>
      rw [hfound] at hverdict
      cases hverdict.1
  have htaken : ∀ r, ∃ seen r', takeAccepted (fun _ => false) r = (none, seen, r') :=
    fun r => ⟨_, _, Prod.ext (hnone r) rfl⟩
  obtain ⟨seen, r', h₀⟩ := htaken {}
  obtain ⟨seen', r'', h₁⟩ := htaken (r'.feed bytes)
  by_cases hempty : bytes.length = 0
  · have hnil := List.eq_nil_of_length_eq_zero hempty
    simp [serve, readUntil, h₀, readLoop, hnil]
  · simp [serve, readUntil, h₀, h₁, readLoop, hempty]

/-- **Continuity over the hand-over**: once `connect` has found the BMS, the
frames of the probe and of the session make up one uninterrupted sequence, for
everything the port may deliver from then on and every sequence of calls on it,
if and only if the probe's reader held nothing that is or may become a frame. -/
theorem handover_continuous_iff {devDir : String} {listen : Nat}
    {all : List (Candidate × Opening)} {c : Connection}
    (h : connect devDir listen all = some (.ok c)) :
    (∀ line qs, Continuous c.probed (serve (Session.start c).reader line qs)) ↔
      Clean c.probed.reader.buffer := by
  obtain ⟨line₀, -, hprobe, -, -⟩ := connect_eq_ok h
  show (∀ line qs, Continuous c.probed (serve {} line qs)) ↔ _
  rw [hprobe]
  generalize hbuf : (probe line₀ listen).reader.buffer = buffer
  have hdrained := (framer.run_drain buffer).2
  constructor
  · intro hcont
    have hkey : ∀ bytes, framesIn (buffer ++ bytes) = framesIn bytes := by
      intro bytes
      obtain ⟨line, qs, hbytes⟩ := exists_serve_bytes bytes
      have := (continuous_iff line₀ listen line qs).mp (hcont line qs)
      rwa [hbuf, hbytes] at this
    have hnone : framesIn buffer = [] := by
      have := hkey []
      rwa [List.append_nil, framesIn_nil] at this
    refine ⟨hnone, fun q hq hbegin => ?_⟩
    -- complete the leftover to a frame: only the probe's reader could have seen it
    have hshort : (framer.drain buffer).2.length < 300 := by
      rcases framer_stuck_iff.mp hdrained with ⟨-, hlen⟩ | ⟨-, hlen⟩
      · exact hlen
      · omega
    refine framesIn_completion_ne_nil hq hshort hbegin ?_
    have hcompl := hkey (completion ((framer.drain buffer).2.drop q))
    rw [framesIn_append, hnone, List.nil_append] at hcompl
    rw [hcompl]
    refine framesIn_of_length_lt ?_
    have hlen := (completion_spec (by rw [List.length_drop]; omega) hbegin).2.1
    rw [List.length_append, List.length_drop] at hlen
    omega
  · rintro ⟨hnone, hno⟩ line qs
    refine (continuous_iff line₀ listen line qs).mpr ?_
    rw [hbuf, framesIn_append, hnone, List.nil_append,
      framesIn_append_of_clean hdrained hno]

/-- A port that pushes its frames one read at a time hands over nothing. -/
theorem handover_continuous_iff_aligned :
    ∃ c, connect "/dev" 10 [(⟨"/dev/ttyUSB0", "port0", none⟩,
        .port ⟨[0, 1], [.ok (fixtureFrame realtime [7])]⟩)] = some (.ok c) ∧
      ∀ line qs, Continuous c.probed (serve (Session.start c).reader line qs) := by
  have hclean : (connect "/dev" 10 [(⟨"/dev/ttyUSB0", "port0", none⟩,
      .port ⟨[0, 1], [.ok (fixtureFrame realtime [7])]⟩)]).map
        (fun res => res.toOption.map fun c => c.probed.reader.buffer) = some (some []) := by
    decide +kernel
  rw [Option.map_eq_some_iff] at hclean
  obtain ⟨res, hconnect, hres⟩ := hclean
  cases res with
  | error e => cases hres
  | ok c =>
    have hbuf : c.probed.reader.buffer = [] := Option.some.inj hres
    refine ⟨c, hconnect, (handover_continuous_iff hconnect).mpr ?_⟩
    rw [hbuf]
    exact ⟨framesIn_nil, by decide +kernel⟩

/-- The port delivers 512 bytes in one read, a realtime frame and the beginning
of the settings frame behind it, and then the rest of that and a second realtime
frame: the settings frame is lost, and the session's first frame is not the
stream's second. -/
theorem handover_loses_frame :
    ∃ all c qs, connect "/dev" 10 all = some (.ok c) ∧
      ¬ (c.probed.seen ++ (serve (Session.start c).reader c.line qs).seen <+:
        (FrameReader.feed {} (c.probed.bytes ++
          (serve (Session.start c).reader c.line qs).bytes)).drain.1) := by
  let stream := fixtureFrame realtime [1] ++ fixtureFrame settings [2] ++
    fixtureFrame realtime [3]
  let all : List (Candidate × Opening) := [(⟨"/dev/ttyUSB0", "port0", none⟩,
    .port ⟨[0, 1, 2], [.ok (stream.take 512), .ok (stream.drop 512)]⟩)]
  let qs : List Request := [⟨fun _ => true, 10⟩]
  have hlost : (connect "/dev" 10 all).map (fun res => res.toOption.map fun c =>
      decide (c.probed.seen ++ (serve (Session.start c).reader c.line qs).seen <+:
        (FrameReader.feed {} (c.probed.bytes ++
          (serve (Session.start c).reader c.line qs).bytes)).drain.1)) = some (some false) := by
    decide +kernel
  rw [Option.map_eq_some_iff] at hlost
  obtain ⟨res, hconnect, hres⟩ := hlost
  cases res with
  | error e => cases hres
  | ok c => exact ⟨all, c, qs, hconnect, of_decide_eq_false (Option.some.inj hres)⟩

end HostServices.Bms
