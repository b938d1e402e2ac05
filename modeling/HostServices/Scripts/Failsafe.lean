import HostServices.Lib.Runs
import HostServices.Lib.Shell
import Mathlib.Algebra.Order.BigOperators.Group.List
import Mathlib.Algebra.Order.Ring.Rat
import Mathlib.Tactic.Linarith
import Mathlib.Tactic.Positivity

/-!
# The SSH failsafe (`modules/iroh-ssh.nix`)

A loop probes the tunnel. While it answers, port 22 is closed; once it has not answered for
`delaySeconds`, a tagged rule opens the port. The loop does not measure that time: it counts
one `recheckIntervalSeconds` for every probe that fails, before it sleeps for as long.

- `openPort`, `closePort`: the firewall;
- `Loop`, `step`: one pass of the loop, with the clock beside it;
- `inv_step`: the counter and the clock along a failing streak;
- `failsafe_opens_after_delay`: when the port is opened, and that it is closed again.
-/

namespace HostServices.Scripts.Failsafe

open HostServices.Lib

/-! ## The firewall -/

/-- A rule of the chain `input-allow`. -/
structure Rule where
  handle : Nat
  /-- it carries the failsafe's comment -/
  tagged : Bool
  deriving DecidableEq, Repr

/-- What the failsafe touches on the host. -/
structure Host where
  rules : List Rule := []
  /-- the second in `last-engaged` -/
  lastEngaged : Option Nat := none
  deriving DecidableEq, Repr

/-- `port_is_open`: some rule carries the tag. -/
def portIsOpen (host : Host) : Bool := host.rules.any Rule.tagged

/-- Record the engagement, and insert the rule unless it is there. -/
def openPort (second : Nat) (host : Host) : Host :=
  let rule : Rule := { handle := (host.rules.map Rule.handle).foldl max 0 + 1, tagged := true }
  { rules := if portIsOpen host then host.rules else rule :: host.rules
    lastEngaged := some second }

/-- Delete the tagged rules, one by one and by their handles. -/
def closePort (host : Host) : Host :=
  let handles := (host.rules.filter Rule.tagged).map Rule.handle
  { host with
    rules := handles.foldl (fun rules handle => rules.filter (·.handle ≠ handle)) host.rules }

theorem mem_of_mem_foldl_filter {handles : List Nat} {rules : List Rule} {rule : Rule}
    (h : rule ∈ handles.foldl (fun rules handle => rules.filter (·.handle ≠ handle)) rules) :
    rule ∈ rules ∧ rule.handle ∉ handles := by
  induction handles generalizing rules with
  | nil => exact ⟨h, List.not_mem_nil⟩
  | cons handle handles ih =>
    obtain ⟨hmem, hnot⟩ := ih h
    rw [List.mem_filter, decide_eq_true_iff] at hmem
    refine ⟨hmem.1, ?_⟩
    rw [List.mem_cons, not_or]
    exact ⟨hmem.2, hnot⟩

/-- Behind `close_port` the port is closed. -/
theorem portIsOpen_closePort (host : Host) : portIsOpen (closePort host) = false := by
  rw [portIsOpen, List.any_eq_false]
  intro rule hrule htagged
  obtain ⟨hmem, hnot⟩ := mem_of_mem_foldl_filter hrule
  exact hnot (List.mem_map_of_mem (List.mem_filter.mpr ⟨hmem, htagged⟩))

/-! ## The loop -/

/-- The options, positive integers of 64 bits. -/
structure Options where
  delaySeconds : Nat
  recheckIntervalSeconds : Nat
  probeIntervalSeconds : Nat
  delay_pos : 0 < delaySeconds
  recheck_pos : 0 < recheckIntervalSeconds
  probe_pos : 0 < probeIntervalSeconds

/-- What one probe comes to, and how long it takes. -/
structure Probe where
  ok : Bool
  duration : ℚ
  nonneg : 0 ≤ duration
  /-- what `date +%s` would print when it is over -/
  second : Nat

/-- What happens to the loop. -/
inductive Event
  | iterate (probe : Probe)
  /-- the firewall is reloaded while the loop sleeps, and loses what was added at run time -/
  | reload (rules : List Rule)

/-- A probe that was made. -/
structure Attempt where
  start : ℚ
  probe : Probe

/-- The loop, with the time that has passed and what it has done. -/
structure Loop where
  down : Int := 0
  host : Host := {}
  clock : ℚ := 0
  attempts : List Attempt := []
  /-- when `open_port` ran, with the probes that had failed by then since the last success -/
  openings : List (ℚ × List Attempt) := []
  /-- the last probe to succeed came after the last `open_port` -/
  answered : Bool := false

/-- The unbroken failing streak that some attempts end with. -/
def streak (attempts : List Attempt) : List Attempt := attempts.rtakeWhile fun a => !a.probe.ok

/-- An iteration with its sleep, or a reload in the middle of one. -/
def step (o : Options) (s : Loop) : Event → Loop
  | .reload rules => { s with host := { s.host with rules := rules } }
  | .iterate probe =>
    let attempts := s.attempts ++ [{ start := s.clock, probe := probe }]
    let time := s.clock + probe.duration
    if probe.ok then
      { s with
        down := 0
        host := closePort s.host
        clock := time + o.probeIntervalSeconds
        attempts := attempts
        answered := true }
    else
      -- counted before the sleep it stands for
      let down := Shell.wrap (s.down + o.recheckIntervalSeconds)
      if o.delaySeconds ≤ down then
        { s with
          down := down
          host := openPort probe.second s.host
          clock := time + o.recheckIntervalSeconds
          attempts := attempts
          openings := s.openings ++ [(time, streak attempts)]
          answered := false }
      else
        { s with
          down := down
          clock := time + o.recheckIntervalSeconds
          attempts := attempts }

/-- A reload puts no tagged rule in place. -/
def Possible (_ : Loop) : Event → Prop
  | .iterate _ => True
  | .reload rules => ∀ rule ∈ rules, rule.tagged = false

/-! ## Counting and measuring -/

/-- The number of failing probes at which the count reaches the delay. -/
def Options.enough (o : Options) : Nat :=
  (o.delaySeconds + o.recheckIntervalSeconds - 1) / o.recheckIntervalSeconds

/-- Fewer iterations cannot have slept that long. -/
theorem Options.enough_le {o : Options} {n : Nat}
    (h : o.delaySeconds ≤ n * o.recheckIntervalSeconds) : o.enough ≤ n := by
  have hpos := o.recheck_pos
  rw [Options.enough, ← Nat.lt_succ_iff, Nat.div_lt_iff_lt_mul hpos, Nat.succ_mul]
  omega

/-- Enough iterations have slept for as long as the delay. -/
theorem Options.delay_le_enough (o : Options) :
    o.delaySeconds ≤ o.enough * o.recheckIntervalSeconds := by
  have hpos := o.recheck_pos
  have hlt := Nat.lt_div_mul_add hpos (a := o.delaySeconds + o.recheckIntervalSeconds - 1)
  rw [Options.enough]
  omega

/-- The time that probes took. -/
def spent (attempts : List Attempt) : ℚ := (attempts.map fun a => a.probe.duration).sum

theorem spent_append (attempts : List Attempt) (a : Attempt) :
    spent (attempts ++ [a]) = spent attempts + a.probe.duration := by
  simp [spent]

theorem spent_nonneg (attempts : List Attempt) : 0 ≤ spent attempts := by
  refine List.sum_nonneg fun d hd => ?_
  obtain ⟨a, -, rfl⟩ := List.mem_map.mp hd
  exact a.probe.nonneg

theorem streak_failed {attempts : List Attempt} {a : Attempt} (h : a ∈ streak attempts) :
    a.probe.ok = false := by
  simpa using List.mem_rtakeWhile_imp h

/-- The opening of the port comes late enough. -/
def Late (o : Options) (opening : ℚ × List Attempt) : Prop :=
  (∀ a ∈ opening.2, a.probe.ok = false) ∧
    ∃ first rest, opening.2 = first :: rest ∧ first.start + o.delaySeconds ≤ opening.1

/-- The count stands for the number of failing probes; between the first of them and now lie
the probes and as many sleeps. -/
structure Inv (o : Options) (s : Loop) : Prop where
  down : s.down = Shell.wrap ((streak s.attempts).length * o.recheckIntervalSeconds)
  clock : ∀ first rest, streak s.attempts = first :: rest →
    s.clock = first.start + spent (streak s.attempts)
      + (streak s.attempts).length * o.recheckIntervalSeconds
  openings : ∀ opening ∈ s.openings, Late o opening

/-- The probes that are enough for the count take the time that the sleeps between them
leave of the delay. -/
def SlowEnough (o : Options) (s : Loop) (e : Event) : Prop :=
  Possible s e ∧ ∀ probe, e = .iterate probe → probe.ok = false →
    (streak s.attempts).length + 1 = o.enough →
    (o.delaySeconds : ℚ) ≤
      ((o.enough - 1 : Nat) : ℚ) * o.recheckIntervalSeconds
        + (spent (streak s.attempts) + probe.duration)

/-- When the `n`-th failing probe of a streak is over. -/
theorem Inv.time {o : Options} {s : Loop} (h : Inv o s) {a : Attempt} (ha : a.start = s.clock)
    {first : Attempt} {rest : List Attempt} (hfirst : streak s.attempts ++ [a] = first :: rest) :
    s.clock + a.probe.duration = first.start + spent (streak s.attempts ++ [a])
      + (streak s.attempts).length * o.recheckIntervalSeconds := by
  cases hstreak : streak s.attempts with
  | nil =>
    rw [hstreak] at hfirst
    cases hfirst
    simp [spent, ha]
  | cons b more =>
    have hclock := h.clock b more hstreak
    rw [hstreak] at hfirst hclock
    rw [List.cons_append, List.cons.injEq] at hfirst
    obtain ⟨rfl, -⟩ := hfirst
    rw [spent_append, hclock]
    ring

/-- A count that has reached the delay: the port is opened late enough. -/
theorem Inv.late {o : Options} {s : Loop} (h : Inv o s) {probe : Probe}
    (hok : probe.ok = false) (hslow : SlowEnough o s (.iterate probe))
    (hdown : (o.delaySeconds : Int) ≤ Shell.wrap (s.down + o.recheckIntervalSeconds)) :
    Late o (s.clock + probe.duration, streak s.attempts ++ [⟨s.clock, probe⟩]) := by
  refine ⟨?_, ?_⟩
  · intro a ha
    rcases List.mem_append.mp ha with hold | hnew
    · exact streak_failed hold
    · rw [List.mem_singleton.mp hnew]
      exact hok
  · obtain ⟨first, rest, hfirst⟩ : ∃ first rest,
        streak s.attempts ++ [⟨s.clock, probe⟩] = first :: rest :=
      List.exists_cons_of_ne_nil (by simp)
    refine ⟨first, rest, hfirst, ?_⟩
    have htime := h.time rfl hfirst
    rw [spent_append] at htime
    -- the count is at most the number of failing probes times the interval
    have hcount : o.delaySeconds ≤ ((streak s.attempts).length + 1) * o.recheckIntervalSeconds := by
      rw [h.down, Shell.wrap_wrap_add] at hdown
      have hnonneg : (0 : Int) ≤ (streak s.attempts).length * o.recheckIntervalSeconds
          + o.recheckIntervalSeconds := by
        positivity
      have hle := hdown.trans (Shell.wrap_le hnonneg)
      rw [Nat.succ_mul]
      exact_mod_cast hle
    have henough := Options.enough_le hcount
    dsimp only at htime ⊢
    rw [htime]
    by_cases hlast : (streak s.attempts).length + 1 = o.enough
    · -- the first time around, the probes have to make up for the sleep that is to come
      have htook := hslow.2 probe rfl hok hlast
      rw [← hlast, Nat.add_sub_cancel] at htook
      linarith
    · -- afterwards the sleeps alone have lasted long enough
      have hmul : o.delaySeconds ≤ (streak s.attempts).length * o.recheckIntervalSeconds :=
        o.delay_le_enough.trans (Nat.mul_le_mul_right _ (by omega))
      have hsleeps : (o.delaySeconds : ℚ)
          ≤ (streak s.attempts).length * o.recheckIntervalSeconds := by
        exact_mod_cast hmul
      have hspent := spent_nonneg (streak s.attempts)
      have hprobe := probe.nonneg
      linarith

/-- One pass of the loop. -/
theorem inv_step {o : Options} {s : Loop} {e : Event} (h : Inv o s) (hslow : SlowEnough o s e) :
    Inv o (step o s e) := by
  cases e with
  | reload rules => exact ⟨h.down, h.clock, h.openings⟩
  | iterate probe =>
    rw [step]
    cases hok : probe.ok with
    | true =>
      -- an answer ends the streak, and the count with it
      have hnone : streak (s.attempts ++ [⟨s.clock, probe⟩]) = [] :=
        List.rtakeWhile_concat_neg _ _ _ (by simp [hok])
      refine ⟨?_, ?_, h.openings⟩
      · rw [if_pos rfl, hnone, List.length_nil, Nat.cast_zero, zero_mul, Shell.wrap_zero]
      · intro first rest hfirst
        rw [if_pos rfl, hnone] at hfirst
        cases hfirst
    | false =>
      have hmore : streak (s.attempts ++ [⟨s.clock, probe⟩])
          = streak s.attempts ++ [⟨s.clock, probe⟩] :=
        List.rtakeWhile_concat_pos _ _ _ (by simp [hok])
      have hlen : (streak (s.attempts ++ [⟨s.clock, probe⟩])).length
          = (streak s.attempts).length + 1 := by
        rw [hmore, List.length_append, List.length_singleton]
      have hdown : Shell.wrap (s.down + o.recheckIntervalSeconds) = Shell.wrap
          ((streak (s.attempts ++ [⟨s.clock, probe⟩])).length * o.recheckIntervalSeconds) := by
        rw [h.down, Shell.wrap_wrap_add, hlen, Nat.cast_succ, add_one_mul]
      -- the clock is one sleep further on than the count was when this probe began
      have hclock : ∀ first rest, streak (s.attempts ++ [⟨s.clock, probe⟩]) = first :: rest →
          s.clock + probe.duration + o.recheckIntervalSeconds
            = first.start + spent (streak (s.attempts ++ [⟨s.clock, probe⟩]))
              + (streak (s.attempts ++ [⟨s.clock, probe⟩])).length * o.recheckIntervalSeconds := by
        intro first rest hfirst
        rw [hmore] at hfirst
        have htime := h.time rfl hfirst
        rw [hlen, hmore, Nat.cast_succ, add_one_mul, htime]
        ring
      rw [if_neg Bool.false_ne_true]
      dsimp only
      split_ifs with hreached
      · refine ⟨hdown, hclock, ?_⟩
        intro opening hopening
        rcases List.mem_append.mp hopening with hold | hnew
        · exact h.openings opening hold
        · rw [List.mem_singleton.mp hnew, hmore]
          exact h.late hok hslow hreached
      · exact ⟨hdown, hclock, h.openings⟩

/-! ## The port is closed again -/

/-- A successful probe leaves the port closed. -/
theorem closed_step {o : Options} {s : Loop} {e : Event} (he : Possible s e)
    (h : s.answered = true → portIsOpen s.host = false) :
    (step o s e).answered = true → portIsOpen (step o s e).host = false := by
  cases e with
  | reload rules =>
    intro _
    rw [portIsOpen, List.any_eq_false]
    exact fun rule hrule => Bool.eq_false_iff.mp (he rule hrule)
  | iterate probe =>
    rw [step]
    dsimp only
    split_ifs with hok hreached
    · exact fun _ => portIsOpen_closePort s.host
    -- the port was opened just now
    · exact fun hanswered => (nomatch hanswered)
    · exact h

/-- **The failsafe opens port 22 only after a sustained outage**, in every run in which the
probes of a failing streak that are enough for the count also take the rest of the delay;
and in every run the tagged rule is absent after a successful probe until `open_port` runs. -/
theorem failsafe_opens_after_delay (o : Options) (host : Host) :
    (∀ s, Reached (step o) (SlowEnough o) { host := host } s →
      ∀ opening ∈ s.openings, Late o opening) ∧
    (∀ s, Reached (step o) Possible { host := host } s → s.answered = true →
      portIsOpen s.host = false) := by
  refine ⟨fun s hs => ?_, fun s hs => ?_⟩
  · have hinv : Inv o s := by
      refine hs.invariant ⟨?_, fun _ _ hfirst => (nomatch hfirst),
        fun _ hopening => (nomatch hopening)⟩ fun s e h he => inv_step h he
      rw [show streak [] = [] from rfl, List.length_nil, Nat.cast_zero, zero_mul, Shell.wrap_zero]
    exact hinv.openings
  · exact hs.invariant (fun hanswered => (nomatch hanswered)) fun s e h he => closed_step he h

/-- A delay of one recheck interval. -/
def sampleOptions : Options where
  delaySeconds := 30
  recheckIntervalSeconds := 30
  probeIntervalSeconds := 3600
  delay_pos := by decide
  recheck_pos := by decide
  probe_pos := by decide

/-- A probe that fails after some seconds. -/
def failing (seconds : Nat) : Probe where
  ok := false
  duration := seconds
  nonneg := Nat.cast_nonneg seconds
  second := 0

theorem openings_failing (seconds : Nat) (host : Host) :
    (step sampleOptions { host := host } (.iterate (failing seconds))).openings
      = [(0 + (seconds : ℚ), [⟨0, failing seconds⟩])] := by
  have hdown : Shell.wrap (0 + sampleOptions.recheckIntervalSeconds) = 30 :=
    Shell.wrap_of_lt (by decide) (by decide)
  rw [step]
  dsimp only
  rw [hdown]
  rfl

/-- A probe that fails after half a minute opens the port, in time. -/
theorem failsafe_opens_after_delay_sample :
    Late sampleOptions (0 + ((30 : Nat) : ℚ), [⟨0, failing 30⟩]) := by
  have hslow : SlowEnough sampleOptions {} (.iterate (failing 30)) := by
    refine ⟨trivial, ?_⟩
    rintro probe heq - -
    cases heq
    norm_num [sampleOptions, Options.enough, streak, spent, failing]
  have hreached : Reached (step sampleOptions) (SlowEnough sampleOptions) {} _ :=
    .next _ .start hslow
  refine (failsafe_opens_after_delay sampleOptions {}).1 _ hreached _ ?_
  rw [openings_failing]
  exact List.mem_singleton_self _

/-- A probe that fails at once opens the port at once: the interval was counted and has not
been slept. -/
theorem failsafe_opens_early :
    ¬ ∀ (o : Options) (host : Host) (s : Loop), Reached (step o) Possible { host := host } s →
      (∀ opening ∈ s.openings, Late o opening) ∧
        (s.answered = true → portIsOpen s.host = false) := by
  intro hall
  have hpossible : Possible {} (.iterate (failing 0)) := trivial
  have hlate := (hall sampleOptions {} _ (.next _ .start hpossible)).1
    (0 + ((0 : Nat) : ℚ), [⟨0, failing 0⟩]) (by
      rw [openings_failing]
      exact List.mem_singleton_self _)
  obtain ⟨-, first, rest, hfirst, hle⟩ := hlate
  cases hfirst
  norm_num [sampleOptions] at hle

end HostServices.Scripts.Failsafe
