import HostServices.Bms.Monitor

/-!
# When the producer gives up

`run` counts silent ticks and gives up at the third in a row. A tick is silent when no realtime
frame was accepted within the timeout before its end; nothing else that may go wrong, a bad
checksum, a frame that does not decode, a lost batch, enters the count or ends the run. An I/O
error ends it at once.

- `Judged`: what a tick's silence says about the accepted frames;
- `Kept`, `Measuring`: what every action of a run keeps;
- `Stopped`: what is known of a run that does not go on;
- `gives_up_exactly`: when a run ends, and how.
-/

namespace HostServices.Bms

open HostServices.Lib

/-! ## Silent ticks -/

/-- The realtime frame that was accepted last. -/
def latest (accepted : List Accepted) : Option Accepted :=
  (accepted.filter fun a => a.frame.isRealtime).getLast?

theorem latest_append (accepted : List Accepted) (a : Accepted) :
    latest (accepted ++ [a]) = if a.frame.isRealtime then some a else latest accepted := by
  rw [latest, List.filter_append]
  by_cases ha : a.frame.isRealtime
  · rw [if_pos ha, List.filter_cons_of_pos (by exact ha), List.filter_nil,
      List.getLast?_append, List.getLast?_singleton]
    rfl
  · rw [if_neg ha, List.filter_cons_of_neg (by exact ha), List.filter_nil, List.append_nil,
      latest]

/-- The newest realtime frame was accepted. -/
theorem latest_mem {accepted : List Accepted} {a : Accepted} (h : latest accepted = some a) :
    a ∈ accepted ∧ a.frame.isRealtime = true := by
  have hmem := List.mem_filter.mp (List.mem_of_getLast? h)
  exact ⟨hmem.1, hmem.2⟩

/-- The tick is silent exactly when no realtime frame was accepted within the timeout before
its end. -/
def Judged (timeout : Nat) (t : Tick) : Prop :=
  ∃ checked, t.checked = some checked ∧
    (t.silent = true ↔
      ∀ a ∈ t.accepted, a.frame.isRealtime = true → a.arrived + timeout < checked)

/-- The last three ticks were silent. -/
def ThreeSilent (ticks : List Tick) : Prop :=
  ∃ before t₁ t₂ t₃, ticks = before ++ [t₁, t₂, t₃] ∧
    t₁.silent = true ∧ t₂.silent = true ∧ t₃.silent = true

/-- How many ticks in a row were silent. -/
def silentRun (ticks : List Tick) : Nat := (ticks.reverse.takeWhile Tick.silent).length

theorem silentRun_append (ticks : List Tick) (t : Tick) :
    silentRun (ticks ++ [t]) = if t.silent then silentRun ticks + 1 else 0 := by
  rw [silentRun, List.reverse_append, List.reverse_singleton, List.singleton_append,
    List.takeWhile_cons]
  split <;> rfl

/-- A longer silence ends in a silent tick. -/
theorem silentRun_succ_le {ticks : List Tick} {k : Nat} (h : k + 1 ≤ silentRun ticks) :
    ∃ before t, ticks = before ++ [t] ∧ t.silent = true ∧ k ≤ silentRun before := by
  rcases List.eq_nil_or_concat ticks with rfl | ⟨before, t, rfl⟩
  · cases h
  · rw [List.concat_eq_append, silentRun_append] at h
    split at h
    · exact ⟨before, t, List.concat_eq_append, by assumption, Nat.le_of_succ_le_succ h⟩
    · cases h

/-- Three silent ticks in a row, counted. -/
theorem threeSilent_iff (ticks : List Tick) :
    ThreeSilent ticks ↔ maxSilentCycles ≤ silentRun ticks := by
  constructor
  · rintro ⟨before, t₁, t₂, t₃, rfl, h₁, h₂, h₃⟩
    have hthree : before ++ [t₁, t₂, t₃] = before ++ [t₁] ++ [t₂] ++ [t₃] := by simp
    rw [hthree, silentRun_append, if_pos h₃, silentRun_append, if_pos h₂, silentRun_append,
      if_pos h₁]
    exact Nat.le_add_left ..
  · intro h
    obtain ⟨ticks₂, t₃, rfl, h₃, hrun₂⟩ := silentRun_succ_le h
    obtain ⟨ticks₁, t₂, rfl, h₂, hrun₁⟩ := silentRun_succ_le hrun₂
    obtain ⟨before, t₁, rfl, h₁, -⟩ := silentRun_succ_le hrun₁
    exact ⟨before, t₁, t₂, t₃, by simp, h₁, h₂, h₃⟩

/-- No three ticks in a row were silent so far. -/
def Quiet (ticks : List Tick) : Prop := ∀ ts, ts <+: ticks → ¬ ThreeSilent ts

theorem Quiet.append {ticks : List Tick} {t : Tick} (h : Quiet ticks)
    (hlast : ¬ ThreeSilent (ticks ++ [t])) : Quiet (ticks ++ [t]) := by
  intro ts hts
  rcases List.prefix_concat_iff.mp hts with rfl | hts
  · exact hlast
  · exact h ts hts

/-! ## What a run keeps -/

/-- What holds of a run that goes on, from the moment the port was found. -/
structure Kept (timeout : Nat) (found : Found) (s : Monitor) : Prop where
  device : s.device = found.candidate.pathId
  clock : s.world.clock.Pairwise (· ≤ ·)
  passed : ∃ used, Passed found.world s.world used ∧ Delivered used
  freshest : s.freshest.realtime = (latest s.accepted).map Accepted.toStamped
  past : ∀ a ∈ s.accepted, ∀ t ∈ s.world.clock, a.arrived ≤ t
  newest : ∀ a ∈ s.accepted, a.frame.isRealtime = true →
    ∀ b, latest s.accepted = some b → a.arrived ≤ b.arrived
  judged : ∀ t ∈ s.ticks, Judged timeout t
  quiet : Quiet s.ticks

/-- The count is that of the ticks, of which there were `k`. -/
structure Counting (timeout : Nat) (found : Found) (k : Nat) (s : Monitor) : Prop
    extends Kept timeout found s where
  count : s.silentCycles = silentRun s.ticks
  length : s.ticks.length = k

/-- What holds of a run that has taken `k` measurements: by then it knows a realtime frame. -/
structure Measuring (timeout : Nat) (found : Found) (k : Nat) (s : Monitor) : Prop
    extends Counting timeout found k s where
  seeded : latest s.accepted ≠ none

/-- Which reads a run has used: a failed one is its last, and then the run has failed. -/
def UsedUp (found : Found) (s : Monitor) : Status → Prop
  | .failed message => ∃ before i e, Delivered before ∧
      Passed found.world s.world (before ++ [(i, .error e)]) ∧
      message = s!"{found.candidate.pathId}: {e}"
  | _ => ∃ used, Passed found.world s.world used ∧ Delivered used

/-- What is known of a run that does not go on. -/
structure Stopped {ρ σ : Type} (cfg : Config ρ σ) (found : Found) (status : Status)
    (s : Monitor) : Prop where
  judged : ∀ t ∈ s.ticks, Judged cfg.frameTimeout t
  early : ∀ ts, ts <+: s.ticks → ts ≠ s.ticks → ¬ ThreeSilent ts
  silent : ThreeSilent s.ticks ↔
    status = .gaveUp (pushedNothing found.candidate.pathId maxSilentCycles)
  reads : UsedUp found s status
  waiting : status = .waiting → s.world.clock = [] ∨ s.world.reads = []
  finished : status = .finished → cfg.once = true
  gaveUp : ∀ message, status = .gaveUp message → ThreeSilent s.ticks

section Kept

variable {timeout k : Nat} {found : Found} {s s' : Monitor}

/-- What an action may do between two measurements without accepting a frame. -/
structure Unheard (s s' : Monitor) : Prop where
  device : s'.device = s.device
  passed : ∃ used, Passed s.world s'.world used ∧ Delivered used
  freshest : s'.freshest = s.freshest
  silentCycles : s'.silentCycles = s.silentCycles
  accepted : s'.accepted = s.accepted
  ticks : s'.ticks = s.ticks

theorem Monitor.Idle.unheard (h : Monitor.Idle s s') : Unheard s s' where
  device := h.device
  passed := ⟨[], ⟨h.reads.symm, h.clock, by rw [h.history]; simp⟩, delivered_nil⟩
  freshest := h.freshest
  silentCycles := h.silentCycles
  accepted := h.accepted
  ticks := h.ticks

/-- What changes no counter keeps the invariant. -/
theorem Kept.unheard (h : Kept timeout found s) (hs : Unheard s s') : Kept timeout found s' := by
  obtain ⟨used, hpassed, hdelivered⟩ := h.passed
  obtain ⟨used', hpassed', hdelivered'⟩ := hs.passed
  constructor
  · rw [hs.device, h.device]
  · exact h.clock.sublist hpassed'.clock.sublist
  · exact ⟨_, hpassed.trans hpassed', hdelivered.append hdelivered'⟩
  · rw [hs.freshest, hs.accepted, h.freshest]
  · rw [hs.accepted]
    exact fun a ha t ht => h.past a ha t (hpassed'.clock.subset ht)
  · rw [hs.accepted]
    exact h.newest
  · rw [hs.ticks]
    exact h.judged
  · rw [hs.ticks]
    exact h.quiet

theorem Counting.unheard (h : Counting timeout found k s) (hs : Unheard s s') :
    Counting timeout found k s' := by
  refine ⟨h.toKept.unheard hs, ?_, ?_⟩
  · rw [hs.silentCycles, hs.ticks, h.count]
  · rw [hs.ticks, h.length]

theorem Measuring.unheard (h : Measuring timeout found k s) (hs : Unheard s s') :
    Measuring timeout found k s' := by
  refine ⟨h.toCounting.unheard hs, ?_⟩
  rw [hs.accepted]
  exact h.seeded

/-- The realtime frame that is held is the newest. -/
theorem Freshest.accept_realtime (freshest : Freshest) (frame : Frame) (now : Instant) :
    (freshest.accept frame now).realtime
      = if frame.isRealtime then some ⟨frame, now⟩ else freshest.realtime := by
  rw [Freshest.accept]
  split
  · rfl
  · split <;> rfl

/-- What is held is the newest of what was accepted. -/
theorem freshest_accept (h : s.freshest.realtime = (latest s.accepted).map Accepted.toStamped)
    (frame : Frame) (now read : Instant) :
    (s.freshest.accept frame now).realtime
      = (latest (s.accepted ++ [⟨⟨frame, now⟩, read⟩])).map Accepted.toStamped := by
  rw [Freshest.accept_realtime, latest_append]
  split
  · rfl
  · exact h

/-- Accepting a frame keeps the invariant, as it is no older than the clock. -/
theorem Kept.accept (h : Kept timeout found s) {frame : Frame} {now read : Instant}
    (hpast : ∀ a ∈ s.accepted, a.arrived ≤ now) (hnow : ∀ t ∈ s.world.clock, now ≤ t) :
    Kept timeout found { s with
      freshest := s.freshest.accept frame now
      accepted := s.accepted ++ [⟨⟨frame, now⟩, read⟩] } where
  device := h.device
  clock := h.clock
  passed := h.passed
  freshest := freshest_accept h.freshest frame now read
  past a ha := by
    rcases List.mem_append.mp ha with ha | ha
    · exact h.past a ha
    · rw [List.mem_singleton.mp ha]
      exact hnow
  newest a ha hrealtime b hb := by
    rw [latest_append] at hb
    rcases List.mem_append.mp ha with ha | ha
    · split at hb
      · cases hb
        exact hpast a ha
      · exact h.newest a ha hrealtime b hb
    · rw [List.mem_singleton.mp ha] at hrealtime ⊢
      rw [if_pos hrealtime] at hb
      cases hb
      exact Nat.le_refl _
  judged := h.judged
  quiet := h.quiet

theorem Kept.recount (h : Kept timeout found s) (cycles : Nat) :
    Kept timeout found { s with silentCycles := cycles } :=
  ⟨h.device, h.clock, h.passed, h.freshest, h.past, h.newest, h.judged, h.quiet⟩

/-- A tick is recorded as long as it is not the third silent one. -/
theorem Kept.record (h : Kept timeout found s) {t : Tick} (hjudged : Judged timeout t)
    (hlast : ¬ ThreeSilent (s.ticks ++ [t])) :
    Kept timeout found { s with ticks := s.ticks ++ [t] } where
  device := h.device
  clock := h.clock
  passed := h.passed
  freshest := h.freshest
  past := h.past
  newest := h.newest
  judged u hu := (List.mem_append.mp hu).elim (h.judged u) fun hu =>
    List.mem_singleton.mp hu ▸ hjudged
  quiet := h.quiet.append hlast

theorem latest_append_ne_none {accepted : List Accepted} (h : latest accepted ≠ none)
    (a : Accepted) : latest (accepted ++ [a]) ≠ none := by
  rw [latest_append]
  split
  · exact Option.some_ne_none a
  · exact h

end Kept

/-! ## How a run ends -/

section Stopped

variable {ρ σ : Type} {cfg : Config ρ σ} {found : Found} {s : Monitor}

/-- A run that stops before the third silent tick. -/
theorem Kept.stopped (h : Kept cfg.frameTimeout found s) {status : Status} {s' : Monitor}
    (hticks : s'.ticks = s.ticks) (hstatus : ∀ message, status ≠ .gaveUp message)
    (hreads : UsedUp found s' status)
    (hwaiting : status = .waiting → s'.world.clock = [] ∨ s'.world.reads = [])
    (hfinished : status = .finished → cfg.once = true) : Stopped cfg found status s' where
  judged := by
    rw [hticks]
    exact h.judged
  early ts hts _ := h.quiet ts (hticks ▸ hts)
  silent := by
    constructor
    · intro hsilent
      exact absurd hsilent (h.quiet _ (hticks ▸ List.prefix_refl _))
    · intro heq
      exact absurd heq (hstatus _)
  reads := hreads
  waiting := hwaiting
  finished := hfinished
  gaveUp message heq := absurd heq (hstatus message)

/-- A run that has no more answers is waiting. -/
theorem Kept.waiting (h : Kept cfg.frameTimeout found s)
    (hout : s.world.clock = [] ∨ s.world.reads = []) : Stopped cfg found .waiting s :=
  h.stopped rfl (fun _ heq => nomatch heq) h.passed (fun _ => hout) fun heq => nomatch heq

/-- A run that was to make one measurement is over after it. -/
theorem Kept.finished (h : Kept cfg.frameTimeout found s) (honce : cfg.once = true) :
    Stopped cfg found .finished s :=
  h.stopped rfl (fun _ heq => nomatch heq) h.passed (fun heq => nomatch heq) fun _ => honce

/-- A failed read ends the run with its error. -/
theorem Kept.failed (h : Kept cfg.frameTimeout found s) {w : World} {reader : FrameReader}
    {before : List (Instant × Except String (List UInt8))} {i : Instant} {e : String}
    (hpassed : Passed s.world w (before ++ [(i, .error e)])) (hbefore : Delivered before) :
    Stopped cfg found (.failed s!"{s.device}: {e}")
      { s with world := w, reader := reader } := by
  obtain ⟨used, hpassed', hused⟩ := h.passed
  refine h.stopped rfl (fun _ heq => nomatch heq)
    ⟨used ++ before, i, e, hused.append hbefore, ?_, by rw [h.device]⟩ (fun heq => nomatch heq)
    fun heq => nomatch heq
  rw [List.append_assoc]
  exact hpassed'.trans hpassed

end Stopped

/-! ## Every action keeps it -/

namespace Monitor

section Actions

variable {ρ σ : Type} {cfg : Config ρ σ} {found : Found} {k : Nat}

/-- A call of `readUntil` keeps whatever does not depend on the port. -/
theorem read_keeps {P : Monitor → Prop} (hP : ∀ s s', Unheard s s' → P s → P s')
    (hkept : ∀ s, P s → Kept cfg.frameTimeout found s) (deadline : Instant)
    (accept : Frame → Bool) :
    Triple P (readUntil deadline accept) (fun _ => P) (Stopped cfg found) := by
  refine triple_readUntil ?_ ?_ ?_
  · intro s _ w reader used hs hpassed hused
    exact hP s _ ⟨rfl, ⟨used, hpassed, hused⟩, rfl, rfl, rfl, rfl⟩ hs
  · intro s w reader before i e hs hpassed hbefore
    exact (hkept s hs).failed hpassed hbefore
  · intro s w reader used hs hpassed hused hout
    have hunheard : Unheard s { s with world := w, reader := reader } :=
      ⟨rfl, ⟨used, hpassed, hused⟩, rfl, rfl, rfl, rfl⟩
    exact ((hkept s hs).unheard hunheard).waiting hout

theorem idle_counting : ∀ s s', Idle s s' → Counting cfg.frameTimeout found k s →
    Counting cfg.frameTimeout found k s' := fun _ _ hidle h => h.unheard hidle.unheard

theorem idle_measuring : ∀ s s', Idle s s' → Measuring cfg.frameTimeout found k s →
    Measuring cfg.frameTimeout found k s' := fun _ _ hidle h => h.unheard hidle.unheard

theorem kept_waits : ∀ s, Kept cfg.frameTimeout found s → s.world.clock = [] →
    Stopped cfg found .waiting s := fun _ h hclock => h.waiting (.inl hclock)

theorem counting_waits : ∀ s, Counting cfg.frameTimeout found k s → s.world.clock = [] →
    Stopped cfg found .waiting s := fun s h => kept_waits s h.toKept

theorem measuring_waits : ∀ s, Measuring cfg.frameTimeout found k s → s.world.clock = [] →
    Stopped cfg found .waiting s := fun s h => kept_waits s h.toKept

/-- Waiting for settings accepts no frame, and ends only with the line. -/
theorem awaitSettings_keeps :
    Triple (Counting cfg.frameTimeout found k) (awaitSettings cfg)
      (fun _ => Counting cfg.frameTimeout found k) (Stopped cfg found) := by
  refine .bind (Q := fun _ => Counting cfg.frameTimeout found k) ?_ fun found? => ?_
  · refine (idle_now idle_counting counting_waits).bind fun started => ?_
    refine (read_keeps (fun _ _ hs h => h.unheard hs) (fun _ h => h.toKept) _ _).bind
      fun frame? => ?_
    cases frame? with
    | none => exact .value fun _ h => h
    | some frame =>
      exact (idle_now idle_counting counting_waits).bind fun _ => .value fun _ h => h
  · cases found? with
    | none => exact .value fun _ h => h
    | some frame => exact idle_publishSettings cfg idle_counting _

/-- A frame is accepted at the next reading of the clock. -/
theorem accept_keeps {P Q : Monitor → Prop} (frame : Frame) (read : Instant)
    (hkept : ∀ s, P s → Kept cfg.frameTimeout found s)
    (hQ : ∀ s t clock, P s → s.world.clock = t :: clock →
      Kept cfg.frameTimeout found { s with
        world := { s.world with clock := clock }
        freshest := s.freshest.accept frame t
        accepted := s.accepted ++ [⟨⟨frame, t⟩, read⟩] } →
      Q { s with
        world := { s.world with clock := clock }
        freshest := s.freshest.accept frame t
        accepted := s.accepted ++ [⟨⟨frame, t⟩, read⟩] }) :
    Triple P (accept frame read) (fun _ => Q) (Stopped cfg found) := by
  refine .bind (triple_now (Q := fun t s => Q { s with
      freshest := s.freshest.accept frame t
      accepted := s.accepted ++ [⟨⟨frame, t⟩, read⟩] }) ?_ fun s hs => kept_waits s (hkept s hs))
    fun t => .update fun s hs => hs
  intro s t clock hs hclock
  have h := hkept s hs
  have hidle : Idle s { s with world := { s.world with clock := clock } } :=
    ⟨rfl, hclock ▸ List.suffix_cons .., rfl, rfl, rfl, rfl, rfl, rfl, rfl⟩
  have hsorted := h.clock
  rw [hclock] at hsorted
  -- every stamp is an earlier reading of the same clock
  refine hQ s t clock hs hclock ((h.unheard hidle.unheard).accept ?_ ?_)
  · exact fun a ha => h.past a ha t (hclock ▸ List.mem_cons_self)
  · exact (List.pairwise_cons.mp hsorted).1

theorem acceptDrained_keeps (frame : Frame) (turns : Nat) :
    Triple (fun s => Measuring cfg.frameTimeout found k s ∧ s.world.clock.length ≤ turns)
      (acceptDrained frame)
      (fun _ s => Measuring cfg.frameTimeout found k s ∧ s.world.clock.length < turns)
      (Stopped cfg found) := by
  refine .look fun s₀ h₀ => ?_
  refine (accept_keeps (P := fun s => Measuring cfg.frameTimeout found k s ∧
    s.world.clock.length ≤ turns) frame _ (fun s hs => hs.1.toKept) ?_).weaken
      (fun s hs => hs ▸ h₀) (fun _ _ h => h) fun _ _ h => h
  rintro s t clock ⟨h, hlen⟩ hclock hkept
  refine ⟨⟨⟨hkept, h.count, h.length⟩, latest_append_ne_none h.seeded _⟩, ?_⟩
  rw [hclock] at hlen
  exact hlen

/-- Each turn of the loop uses up a reading of the clock. -/
theorem drainLoop_keeps (deadline : Instant) (turns : Nat) :
    Triple (fun s => Measuring cfg.frameTimeout found k s ∧ s.world.clock.length < turns)
      (drainLoop deadline turns) (fun _ => Measuring cfg.frameTimeout found k)
      (Stopped cfg found) := by
  induction turns with
  | zero => exact .stop fun s hs => absurd hs.2 (Nat.not_lt_zero _)
  | succ turns ih =>
    -- each turn takes a reading, so the turns outlast the clock
    have hunheard : ∀ s s', Unheard s s' →
        Measuring cfg.frameTimeout found k s ∧ s.world.clock.length ≤ turns →
        Measuring cfg.frameTimeout found k s' ∧ s'.world.clock.length ≤ turns := by
      rintro s s' hs ⟨h, hlen⟩
      obtain ⟨used, hpassed, -⟩ := hs.passed
      exact ⟨h.unheard hs, Nat.le_trans hpassed.clock.length_le hlen⟩
    refine .bind (Q := fun _ s => Measuring cfg.frameTimeout found k s ∧
      s.world.clock.length ≤ turns) ?_ fun t => ?_
    · refine (idle_now (fun s s' hidle => hunheard s s' hidle.unheard) ?_).weaken
        (fun s hs => ⟨hs.1, Nat.le_of_lt_succ hs.2⟩) (fun _ _ h => h) fun _ _ h => h
      exact fun s hs => measuring_waits s hs.1
    · split
      · refine (read_keeps hunheard (fun s hs => hs.1.toKept) _ _).bind fun frame? => ?_
        cases frame? with
        | none => exact .value fun s hs => hs.1
        | some frame => exact (acceptDrained_keeps frame turns).bind fun _ => ih
      · exact .value fun s hs => hs.1

theorem drainUntil_keeps (deadline : Instant) :
    Triple (Measuring cfg.frameTimeout found k) (drainUntil deadline)
      (fun _ => Measuring cfg.frameTimeout found k) (Stopped cfg found) := by
  refine .look fun s hs => (drainLoop_keeps deadline _).weaken ?_ (fun _ _ h => h)
    fun _ _ h => h
  rintro s rfl
  exact ⟨hs, Nat.lt_succ_self _⟩

/-! ### The measurement -/

/-- A realtime frame was accepted within the timeout before `checked`. -/
def Heard (timeout : Nat) (checked : Instant) (s : Monitor) : Prop :=
  ∃ a ∈ s.accepted, a.frame.isRealtime = true ∧ checked ≤ a.arrived + timeout

/-- The run has reset its count, and the tick is not yet recorded. -/
structure Resetting (timeout : Nat) (found : Found) (k : Nat) (checked : Instant)
    (s : Monitor) : Prop extends Kept timeout found s where
  seeded : latest s.accepted ≠ none
  reset : s.silentCycles = 0
  length : s.ticks.length = k
  heard : Heard timeout checked s

theorem idle_resetting {checked : Instant} : ∀ s s', Idle s s' →
    Resetting cfg.frameTimeout found k checked s →
    Resetting cfg.frameTimeout found k checked s' := by
  intro s s' hidle h
  refine ⟨h.toKept.unheard hidle.unheard, ?_, ?_, ?_, ?_⟩
  · rw [hidle.accepted]
    exact h.seeded
  · rw [hidle.silentCycles, h.reset]
  · rw [hidle.ticks, h.length]
  · rw [Heard, hidle.accepted]
    exact h.heard

/-- A tick that heard something starts the count anew, whatever it published. -/
theorem record_heard {checked : Instant} (published : Option Publication) :
    Triple (Resetting cfg.frameTimeout found k checked) (record false (some checked) published)
      (fun _ => Measuring cfg.frameTimeout found (k + 1)) (Stopped cfg found) := by
  refine .update fun s h => ?_
  generalize ht : (⟨false, some checked, s.accepted, s.world.history,
    s.reader.drain.1, published⟩ : Tick) = t
  have hrun : silentRun (s.ticks ++ [t]) = 0 := by rw [silentRun_append, ← ht]; rfl
  have hjudged : Judged cfg.frameTimeout t := by
    obtain ⟨a, ha, hrealtime, hrecent⟩ := h.heard
    rw [← ht]
    refine ⟨checked, rfl, ⟨fun hsilent => (nomatch hsilent), fun hold => ?_⟩⟩
    exact absurd (hold a ha hrealtime) (Nat.not_lt_of_le hrecent)
  have hlast : ¬ ThreeSilent (s.ticks ++ [t]) := by
    rw [threeSilent_iff, hrun]
    decide
  refine ⟨⟨h.toKept.record hjudged hlast, ?_, ?_⟩, h.seeded⟩
  · rw [hrun, h.reset]
  · rw [List.length_append, h.length]
    rfl

/-- A tick with a fresh frame ends the silence. -/
theorem fresh_keeps (a : Stamped) (checked : Instant) :
    Triple (fun s => Measuring cfg.frameTimeout found k s ∧ Heard cfg.frameTimeout checked s)
      (fresh cfg a checked) (fun _ => Measuring cfg.frameTimeout found (k + 1))
      (Stopped cfg found) := by
  refine .bind (.update (R := fun _ => Resetting cfg.frameTimeout found k checked) ?_)
    fun _ => ?_
  · rintro s ⟨h, hheard⟩
    exact ⟨h.toKept.recount 0, h.seeded, rfl, h.length, hheard⟩
  · have hwaits : ∀ s, Resetting cfg.frameTimeout found k checked s → s.world.clock = [] →
        Stopped cfg found .waiting s := fun s h => kept_waits s h.toKept
    cases cfg.parseRealtime a.frame with
    | error e => exact record_heard none
    | ok v =>
      exact (idle_now idle_resetting hwaits).bind fun _ =>
        (idle_link idle_resetting hwaits _).bind fun _ =>
        (idle_publish cfg idle_resetting).bind fun _ => record_heard _

/-- A silent tick counts, and the third in a row is the last. -/
theorem silence_keeps (checked : Instant) :
    Triple (fun s => Measuring cfg.frameTimeout found k s ∧ ¬ Heard cfg.frameTimeout checked s)
      (silence (some checked)) (fun _ => Measuring cfg.frameTimeout found (k + 1))
      (Stopped cfg found) := by
  rintro s ⟨h, hunheard⟩
  generalize ht : (⟨true, some checked, s.accepted, s.world.history,
    s.reader.drain.1, none⟩ : Tick) = t
  have hrun : silentRun (s.ticks ++ [t]) = s.silentCycles + 1 := by
    rw [silentRun_append, ← ht, if_pos rfl, h.count]
  have hjudged : Judged cfg.frameTimeout t := by
    rw [← ht]
    refine ⟨checked, rfl, ⟨fun _ a ha hrealtime => ?_, fun _ => rfl⟩⟩
    exact Nat.lt_of_not_le fun hrecent => hunheard ⟨a, ha, hrealtime, hrecent⟩
  -- the run was still going, so this is at most the third
  have hbound : s.silentCycles < maxSilentCycles := by
    have hlast := h.quiet _ (List.prefix_refl _)
    rw [threeSilent_iff, ← h.count] at hlast
    exact Nat.lt_of_not_le hlast
  have hsilence : silence (some checked) s =
      (if maxSilentCycles ≤ s.silentCycles + 1 then
        throw (.gaveUp (pushedNothing s.device (s.silentCycles + 1)))
      else pure () : Act Unit)
        { s with silentCycles := s.silentCycles + 1, ticks := s.ticks ++ [t] } := by
    rw [← ht]
    rfl
  rw [hsilence]
  by_cases hthree : maxSilentCycles ≤ s.silentCycles + 1
  · rw [if_pos hthree]
    have hcycles : s.silentCycles + 1 = maxSilentCycles := by omega
    have hsilent : ThreeSilent (s.ticks ++ [t]) := by
      rw [threeSilent_iff, hrun]
      exact hthree
    exact {
      judged := fun u hu => (List.mem_append.mp hu).elim (h.judged u) fun hu =>
        List.mem_singleton.mp hu ▸ hjudged
      early := fun ts hts hne => (List.prefix_concat_iff.mp hts).elim
        (fun heq => absurd heq hne) (h.quiet ts)
      silent := ⟨fun _ => by rw [hcycles, h.device], fun _ => hsilent⟩
      reads := h.passed
      waiting := fun heq => (nomatch heq)
      finished := fun heq => (nomatch heq)
      gaveUp := fun _ _ => hsilent }
  · rw [if_neg hthree]
    have hlast : ¬ ThreeSilent (s.ticks ++ [t]) := by
      rw [threeSilent_iff, hrun]
      exact hthree
    have hkept := (h.toKept.recount (s.silentCycles + 1)).record hjudged hlast
    refine ⟨⟨hkept, hrun.symm, ?_⟩, h.seeded⟩
    rw [List.length_append, h.length]
    rfl

/-- A measurement makes one tick, or the run stops there. -/
theorem measure_keeps :
    Triple (Measuring cfg.frameTimeout found k) (measure cfg)
      (fun _ => Measuring cfg.frameTimeout found (k + 1)) (Stopped cfg found) := by
  refine .look fun s₀ h₀ => ?_
  -- there is always a frame to look at: the probe's own, if no other
  obtain ⟨a, ha⟩ := Option.ne_none_iff_exists'.mp h₀.seeded
  have hlatest : s₀.freshest.realtime = some a.toStamped := by
    rw [h₀.freshest, ha]
    rfl
  simp only [hlatest]
  refine .bind (Q := fun _ s => Measuring cfg.frameTimeout found k s ∧
    latest s.accepted = some a) ?_ fun checked => ?_
  · refine (idle_now ?_ fun s hs => measuring_waits s hs.1).weaken
      (fun s hs => hs ▸ ⟨h₀, ha⟩) (fun _ _ h => h) fun _ _ h => h
    rintro s s' hidle ⟨h, hlatest⟩
    exact ⟨idle_measuring s s' hidle h, hidle.accepted ▸ hlatest⟩
  · split
    · rename_i hage
      refine (fresh_keeps a.toStamped checked).weaken ?_ (fun _ _ h => h) fun _ _ h => h
      rintro s ⟨h, hlatest⟩
      obtain ⟨hmem, hrealtime⟩ := latest_mem hlatest
      exact ⟨h, a, hmem, hrealtime, Nat.sub_le_iff_le_add'.mp hage⟩
    · rename_i hage
      refine (silence_keeps checked).weaken ?_ (fun _ _ h => h) fun _ _ h => h
      rintro s ⟨h, hlatest⟩
      refine ⟨h, ?_⟩
      rintro ⟨b, hmem, hrealtime, hrecent⟩
      -- any recent frame would have made the latest one recent
      have hle := h.newest b hmem hrealtime a hlatest
      refine hage (Nat.sub_le_iff_le_add'.mpr ?_)
      exact Nat.le_trans hrecent (Nat.add_le_add_right hle _)

/-! ### The run -/

theorem tick_keeps (started : Instant) (i : Nat) :
    Triple (Measuring cfg.frameTimeout found k) (tick cfg started i)
      (fun _ => Measuring cfg.frameTimeout found (k + 1)) (Stopped cfg found) := by
  refine (drainUntil_keeps _).bind fun _ => measure_keeps.bind fun _ => ?_
  split
  · exact .stop fun s h => h.toKept.finished (by assumption)
  · exact idle_republishSettings cfg idle_measuring measuring_waits

/-- After `n` more ticks, `n` more measurements have been made. -/
theorem ticksFrom_keeps (started : Instant) (i n : Nat) :
    Triple (Measuring cfg.frameTimeout found k) (ticksFrom cfg started i n)
      (fun _ => Measuring cfg.frameTimeout found (k + n)) (Stopped cfg found) := by
  induction n generalizing i k with
  | zero => exact .value fun _ h => h
  | succ n ih =>
    refine (tick_keeps started i).bind fun _ => ?_
    rw [← Nat.add_assoc, Nat.add_right_comm]
    exact ih (i + 1)

end Actions

end Monitor

/-- The frame that a probe found is a realtime frame. -/
theorem Found.first_isRealtime (found : Found) : found.first.isRealtime = true :=
  List.find?_some (((probe_answer found.answered).1.bms found.first).mp rfl)

theorem Found.world_clock_suffix (found : Found) : found.world.clock <:+ found.clock := by
  obtain ⟨-, start, ticks, used, hlistened⟩ := probe_answer found.answered
  exact ⟨_, (hlistened.found found.first rfl).symm⟩

theorem kept_start (timeout : Nat) (found : Found) :
    Kept timeout found (Monitor.start found) where
  device := rfl
  clock := found.monotone.sublist found.world_clock_suffix.sublist
  passed := ⟨[], Passed.refl _, delivered_nil⟩
  freshest := rfl
  past := List.forall_mem_nil _
  newest := List.forall_mem_nil _
  judged := List.forall_mem_nil _
  quiet ts hts := by
    rw [List.prefix_nil.mp hts, threeSilent_iff]
    decide

/-- **A run makes its ticks, or stops for a reason.** -/
theorem run_keeps {ρ σ : Type} (cfg : Config ρ σ) (found : Found) (n : Nat) :
    Triple (· = Monitor.start found) (Monitor.measureFor cfg found n)
      (fun _ => Measuring cfg.frameTimeout found n) (Stopped cfg found) := by
  refine .bind (Q := fun _ => Counting cfg.frameTimeout found 0) ?_ fun _ => ?_
  · refine (Monitor.idle_connected Monitor.idle_counting Monitor.counting_waits).weaken ?_
      (fun _ _ h => h) fun _ _ h => h
    rintro s rfl
    exact ⟨kept_start _ found, rfl, rfl⟩
  refine Monitor.awaitSettings_keeps.bind fun _ =>
    (Monitor.idle_settingsAwaited Monitor.idle_counting Monitor.counting_waits).bind fun _ =>
    (Monitor.idle_now Monitor.idle_counting Monitor.counting_waits).bind fun started => ?_
  -- the frame of the probe is what the first measurement starts from
  refine .bind (Q := fun _ => Measuring cfg.frameTimeout found 0) ?_ fun _ => ?_
  · refine Monitor.accept_keeps found.first _ (fun s h => h.toKept) ?_
    intro s t clock h _ hkept
    refine ⟨⟨hkept, h.count, h.length⟩, ?_⟩
    rw [latest_append, if_pos found.first_isRealtime]
    exact Option.some_ne_none _
  · have hticks : Triple (Measuring cfg.frameTimeout found 0) (Monitor.ticksFrom cfg started 0 n)
        (fun _ => Measuring cfg.frameTimeout found (0 + n)) (Stopped cfg found) :=
      Monitor.ticksFrom_keeps started 0 n
    rwa [Nat.zero_add] at hticks

/-- **When the producer gives up.** Over any number of ticks without `--once`, on any port and
whatever comes of parsing and posting: a tick is silent exactly when no realtime frame was
accepted within the timeout before its end. The run ends with the silence error exactly when the
last three ticks were silent, which is never before the last tick; it fails at the first read
that fails; and otherwise it goes on, as far as the outside has answered. -/
theorem gives_up_exactly {ρ σ : Type} (cfg : Config ρ σ) (honce : cfg.once = false)
    (found : Found) (n : Nat) (s : Monitor) (outcome : Except Status Unit)
    (hrun : run cfg found n = (outcome, s)) :
    (∀ t ∈ s.ticks, Judged cfg.frameTimeout t) ∧
    (∀ ts, ts <+: s.ticks → ts ≠ s.ticks → ¬ ThreeSilent ts) ∧
    match outcome with
    | .error (.gaveUp message) => ThreeSilent s.ticks ∧
        message = pushedNothing found.candidate.pathId maxSilentCycles ∧
        ∃ used, Passed found.world s.world used ∧ Delivered used
    | .error (.failed message) => ¬ ThreeSilent s.ticks ∧
        ∃ before i e, Delivered before ∧
          Passed found.world s.world (before ++ [(i, .error e)]) ∧
          message = s!"{found.candidate.pathId}: {e}"
    | .error .waiting => ¬ ThreeSilent s.ticks ∧
        (∃ used, Passed found.world s.world used ∧ Delivered used) ∧
        (s.world.clock = [] ∨ s.world.reads = [])
    | .error .finished => False
    | .ok () => ¬ ThreeSilent s.ticks ∧
        (∃ used, Passed found.world s.world used ∧ Delivered used) ∧ s.ticks.length = n := by
  have h := run_keeps cfg found n _ rfl
  rw [show Monitor.measureFor cfg found n (Monitor.start found) = _ from hrun] at h
  obtain (_ | _ | message | message) | _ := outcome
  · -- waiting
    refine ⟨h.judged, h.early, ?_, h.reads, h.waiting rfl⟩
    exact fun hsilent => nomatch h.silent.mp hsilent
  · exact absurd (h.finished rfl) (honce ▸ Bool.false_ne_true)
  · refine ⟨h.judged, h.early, ?_, h.reads⟩
    exact fun hsilent => nomatch h.silent.mp hsilent
  · have hsilent := h.gaveUp message rfl
    exact ⟨h.judged, h.early, hsilent, Status.gaveUp.inj (h.silent.mp hsilent), h.reads⟩
  · exact ⟨h.judged, fun ts hts _ => h.quiet ts hts, h.quiet _ (List.prefix_refl _), h.passed,
      h.length⟩

/-- Everything decodes and every batch arrives. -/
def plainConfig (interval frameTimeout : Nat) : Config Unit Unit where
  interval := interval
  settingsInterval := 86400
  frameTimeout := frameTimeout
  once := false
  parseRealtime _ := .ok ()
  parseSettings _ := .ok ()
  upload _ := .accepted

/-- A pack that says nothing more once it was found. -/
def quietPort : Found where
  candidate := ⟨"/dev/ttyUSB0", "port0", none⟩
  clock := [0, 1, 1, 1, 2, 2, 2, 2, 2, 3, 12, 12, 12, 13, 22, 22, 22, 23, 32, 32]
  reads := [(1, .ok (fixtureFrame realtime [7])), (2, .ok (fixtureFrame settings []))]
  listen := 10
  first := ⟨realtime, fixtureFrame realtime [7]⟩
  monotone := by decide
  answered := by decide +kernel

theorem gives_up_exactly_quiet : ∃ s,
    run (plainConfig 10 5) quietPort 5 =
      (.error (.gaveUp "port0 pushed nothing for 3 consecutive measurements"), s) ∧
    ThreeSilent s.ticks := by
  have hout : (run (plainConfig 10 5) quietPort 5).1 =
      .error (.gaveUp "port0 pushed nothing for 3 consecutive measurements") := by
    decide +kernel
  refine ⟨(run (plainConfig 10 5) quietPort 5).2, Prod.ext hout rfl, ?_⟩
  exact (gives_up_exactly (plainConfig 10 5) rfl quietPort 5 _ _ (Prod.ext hout rfl)).2.2.1

end HostServices.Bms
