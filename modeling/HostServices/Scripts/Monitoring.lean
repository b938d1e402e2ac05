import HostServices.Scripts.Failsafe

/-!
# Reporting the failsafe (`modules/monitoring.nix`)

A monitoring run notes the second in which it starts, makes its checks, and if its report
goes out writes that second to a marker. The check of the tunnel compares the marker with
the second in which the failsafe last opened the port.

- `checkIrohSsh`: the check;
- `State`, `step`: the failsafe and the monitoring runs side by side;
- `Inv`, `inv_step`: what the seconds that were noted say about the order of events;
- `engagement_reported`: every engagement is reported by the next run that is delivered,
  unless the clock cannot tell it from the run before.
-/

namespace HostServices.Scripts.Monitoring

open HostServices.Lib HostServices.Scripts.Failsafe

/-! ## The check -/

/-- What the module is configured with. -/
structure Config where
  irohSshEnabled : Bool := true
  firewallManaged : Bool := true
  deriving DecidableEq, Repr

/-- A line of the log. -/
inductive Line
  | skip (text : String)
  | ok (text : String)
  | fail (text : String)
  deriving DecidableEq, Repr

/-- The line reports a failure. -/
def Line.failed : Line → Bool
  | .fail _ => true
  | .skip _ | .ok _ => false

/-- `check_iroh_ssh`, where `unit` is what `systemctl is-active` prints and `utc` how `date`
prints a second. -/
def checkIrohSsh (cfg : Config) (utc : Nat → String) (unit : String) (host : Host)
    (lastRun : Option Nat) : Line :=
  if !cfg.irohSshEnabled then .skip "iroh-ssh: disabled"
  else if unit ≠ "active" then .fail s!"iroh-ssh: iroh-ssh.service is {unit}"
  else if !cfg.firewallManaged then .ok "iroh-ssh: service running"
  else if portIsOpen host then
    .fail "iroh-ssh: failsafe engaged, port 22 open (tunnel not answering)"
  else
    -- a stamp that cannot be read is the epoch
    let lastEngaged := host.lastEngaged.getD 0
    let prevRun := lastRun.getD 0
    -- whole seconds on both sides: an engagement in the second of the start is missed
    if prevRun < lastEngaged then
      .fail s!"iroh-ssh: failsafe engaged at {utc lastEngaged}, since the previous monitoring run"
    else .ok "iroh-ssh: service running, port 22 closed"

/-! ## Two processes -/

/-- Where a monitoring run stands. `opens` is the number of engagements before its check. -/
inductive Phase
  | idle
  | started (second : Nat)
  | checked (second : Nat) (line : Line) (opens : Nat)

/-- A run whose report went out. -/
structure Report where
  started : Nat
  line : Line
  opens : Nat

/-- The host, the clock, the record of the last run and the run that is under way. -/
structure State where
  /-- what `date +%s` prints -/
  now : Nat := 0
  host : Host := {}
  /-- `common-monitoring.last-run` -/
  lastRun : Option Nat := none
  phase : Phase := .idle
  /-- the seconds in which `open_port` ran -/
  opens : List Nat := []
  /-- the runs that were delivered -/
  reports : List Report := []

/-- What happens between two lines of the script, and its lines. -/
inductive Event
  | tick (second : Nat)
  | openPort
  | closePort
  /-- the firewall is reloaded -/
  | reload (rules : List Rule)
  | start
  | check (unit : String)
  | finish (delivered : Bool)
  /-- a run ends before its report -/
  | abort

/-- One line of the script, or what happens beside it. -/
def step (cfg : Config) (utc : Nat → String) (s : State) : Event → State
  | .tick second => { s with now := second }
  | .openPort => { s with host := openPort s.now s.host, opens := s.opens ++ [s.now] }
  | .closePort => { s with host := closePort s.host }
  | .reload rules => { s with host := { s.host with rules := rules } }
  | .start => { s with phase := .started s.now }
  | .check unit =>
    match s.phase with
    | .started second =>
      { s with
        phase := .checked second (checkIrohSsh cfg utc unit s.host s.lastRun) s.opens.length }
    | _ => s
  | .finish delivered =>
    match s.phase with
    | .checked second line opens =>
      if delivered then
        { s with
          phase := .idle
          lastRun := some second
          reports := s.reports ++ [⟨second, line, opens⟩] }
      else { s with phase := .idle }
    | _ => s
  | .abort => { s with phase := .idle }

/-- The clock does not go back, and one run follows the other. -/
def Possible (s : State) : Event → Prop
  | .tick second => s.now ≤ second
  | .start => s.phase = .idle
  | _ => True

/-! ## What is to be shown -/

/-- The first delivered run whose check came after an engagement reports it. -/
def Reported (s : State) : Prop :=
  ∀ j < s.opens.length, ∀ r, s.reports.find? (fun r => j < r.opens) = some r →
    r.line.failed = true

/-- The second in which the last delivered run started whose check came before the `j`-th
engagement. -/
def previousStart (reports : List Report) (j : Nat) : Nat :=
  ((reports.filter (·.opens ≤ j)).getLast?.map Report.started).getD 0

/-- No engagement falls into the second in which that run started. -/
def Distinct (s : State) : Prop :=
  ∀ j second, s.opens[j]? = some second → second ≠ previousStart s.reports j

/-! ## The order of events in the seconds -/

/-- Of the engagements in `opens`, the first `n` came before something that began in
`second`, and none of the others did. -/
structure Placed (now : Nat) (opens : List Nat) (second n : Nat) : Prop where
  known : n ≤ opens.length
  past : second ≤ now
  after : ∀ x ∈ opens.drop n, second ≤ x

/-- The clock goes on. -/
theorem Placed.tick {now now' : Nat} {opens : List Nat} {second n : Nat}
    (h : Placed now opens second n) (hnow : now ≤ now') : Placed now' opens second n :=
  ⟨h.known, h.past.trans hnow, h.after⟩

/-- One more opening. -/
theorem Placed.openPort {now : Nat} {opens : List Nat} {second n : Nat}
    (h : Placed now opens second n) : Placed now (opens ++ [now]) second n := by
  refine ⟨?_, h.past, ?_⟩
  · rw [List.length_append]
    exact h.known.trans (Nat.le_add_right _ _)
  · intro x hx
    rw [List.drop_append_of_le_length h.known, List.mem_append, List.mem_singleton] at hx
    rcases hx with hold | rfl
    · exact h.after x hold
    · exact h.past

/-- Everything that a check without a complaint has seen was before `lastRun`. -/
def Quiet (opens : List Nat) (line : Line) (n : Nat) (lastRun : Option Nat) : Prop :=
  line.failed = false → ∀ x ∈ opens.take n, x ≤ lastRun.getD 0

/-- An opening behind the check is of the next run. -/
theorem Quiet.openPort {opens : List Nat} {line : Line} {n : Nat} {lastRun : Option Nat}
    (h : Quiet opens line n lastRun) (hn : n ≤ opens.length) (second : Nat) :
    Quiet (opens ++ [second]) line n lastRun := by
  intro hline x hx
  rw [List.take_append_of_le_length hn] at hx
  exact h hline x hx

/-- What holds of the run that is going on. -/
def PhaseInv (s : State) : Phase → Prop
  | .idle => True
  | .started second => second ≤ s.now
  | .checked second line n =>
    Placed s.now s.opens second n ∧ (∀ r ∈ s.reports, r.opens ≤ n) ∧ Quiet s.opens line n s.lastRun

/-- The seconds that were noted agree with the order of events. -/
structure Inv (s : State) : Prop where
  engaged : s.host.lastEngaged = s.opens.getLast?
  sorted : s.opens.Pairwise (· ≤ ·)
  past : ∀ x ∈ s.opens, x ≤ s.now
  lastRun : s.lastRun = s.reports.getLast?.map Report.started
  ordered : s.reports.Pairwise fun r r' => r.opens ≤ r'.opens
  placed : ∀ r ∈ s.reports, Placed s.now s.opens r.started r.opens
  quiet : ∀ before r after, s.reports = before ++ r :: after →
    Quiet s.opens r.line r.opens (before.getLast?.map Report.started)
  phase : PhaseInv s s.phase

/-- A check without a complaint has found no engagement after the last delivered run. -/
theorem Inv.quiet_check {s : State} (h : Inv s) {cfg : Config}
    (henabled : cfg.irohSshEnabled = true) (hmanaged : cfg.firewallManaged = true)
    (utc : Nat → String) (unit : String) :
    Quiet s.opens (checkIrohSsh cfg utc unit s.host s.lastRun) s.opens.length s.lastRun := by
  intro hline x hx
  rw [List.take_length] at hx
  -- the stamp is that of the last engagement, and they are in order
  have hlast : ∀ y, s.opens.getLast? = some y → x ≤ y := by
    intro y hy
    rw [List.getLast?_eq_some_iff] at hy
    obtain ⟨init, hinit⟩ := hy
    have hsorted := h.sorted
    rw [hinit, List.pairwise_append] at hsorted
    rw [hinit, List.mem_append, List.mem_singleton] at hx
    rcases hx with hold | rfl
    · exact hsorted.2.2 x hold y List.mem_cons_self
    · exact Nat.le_refl _
  rw [checkIrohSsh, henabled, hmanaged] at hline
  simp only [Bool.not_true, Bool.false_eq_true, if_false] at hline
  split_ifs at hline with hunit hopen hlate
  · cases hline
  · cases hline
  · cases hline
  · rw [h.engaged] at hlate
    cases hy : s.opens.getLast? with
    | none => rw [List.getLast?_eq_none_iff.mp hy] at hx; cases hx
    | some y =>
      rw [hy, Option.getD_some] at hlate
      exact (hlast y hy).trans (Nat.not_lt.mp hlate)

/-- The clock moves on. -/
theorem Inv.tick {s : State} (h : Inv s) {second : Nat} (hle : s.now ≤ second) :
    Inv { s with now := second } := by
  refine ⟨h.engaged, h.sorted, fun x hx => (h.past x hx).trans hle, h.lastRun, h.ordered,
    fun r hr => (h.placed r hr).tick hle, h.quiet, ?_⟩
  have hphase := h.phase
  cases hp : s.phase with
  | idle => trivial
  | started began =>
    rw [hp] at hphase
    exact Nat.le_trans hphase hle
  | checked began line n =>
    rw [hp] at hphase
    exact ⟨hphase.1.tick hle, hphase.2⟩

/-- The port is opened. -/
theorem Inv.openPort {s : State} (h : Inv s) :
    Inv { s with host := Failsafe.openPort s.now s.host, opens := s.opens ++ [s.now] } := by
  refine ⟨?_, ?_, ?_, h.lastRun, h.ordered, fun r hr => (h.placed r hr).openPort, ?_, ?_⟩
  · rw [List.getLast?_concat]
    rfl
  · rw [List.pairwise_append]
    refine ⟨h.sorted, List.pairwise_singleton _ _, ?_⟩
    intro x hx y hy
    rw [List.mem_singleton.mp hy]
    exact h.past x hx
  · intro x hx
    rcases List.mem_append.mp hx with hold | hnew
    · exact h.past x hold
    · exact Nat.le_of_eq (List.mem_singleton.mp hnew)
  · intro before r after hsplit
    have hmem : r ∈ s.reports := by
      rw [hsplit]
      exact List.mem_append_right _ List.mem_cons_self
    exact (h.quiet before r after hsplit).openPort (h.placed r hmem).known s.now
  · have hphase := h.phase
    cases hp : s.phase with
    | idle => trivial
    | started began =>
      rw [hp] at hphase
      exact hphase
    | checked began line n =>
      rw [hp] at hphase
      exact ⟨hphase.1.openPort, hphase.2.1, hphase.2.2.openPort hphase.1.known s.now⟩

/-- A run's report goes out. -/
theorem Inv.deliver {s : State} (h : Inv s) {second : Nat} {line : Line} {n : Nat}
    (hrun : PhaseInv s (.checked second line n)) :
    Inv { s with
      phase := .idle
      lastRun := some second
      reports := s.reports ++ [⟨second, line, n⟩] } := by
  obtain ⟨hplaced, hle, hquiet⟩ := hrun
  refine ⟨h.engaged, h.sorted, h.past, ?_, ?_, ?_, ?_, trivial⟩
  · rw [List.getLast?_concat]
    rfl
  · rw [List.pairwise_append]
    refine ⟨h.ordered, List.pairwise_singleton _ _, ?_⟩
    intro r hr r' hr'
    rw [List.mem_singleton.mp hr']
    exact hle r hr
  · intro r hr
    rcases List.mem_append.mp hr with hold | hnew
    · exact h.placed r hold
    · rw [List.mem_singleton.mp hnew]
      exact hplaced
  · intro before r after hsplit
    rcases List.eq_nil_or_concat after with rfl | ⟨after, last, rfl⟩
    · -- the report that is added
      obtain ⟨hbefore, hr⟩ := List.append_inj' hsplit rfl
      rw [List.singleton_inj] at hr
      rw [← hbefore, ← hr, ← h.lastRun]
      exact hquiet
    · rw [List.concat_eq_append, ← List.cons_append, ← List.append_assoc] at hsplit
      exact h.quiet before r after (List.append_inj' hsplit rfl).1

/-- **Every step keeps the order.** -/
theorem inv_step {cfg : Config} (henabled : cfg.irohSshEnabled = true)
    (hmanaged : cfg.firewallManaged = true) {utc : Nat → String} {s : State} {e : Event}
    (h : Inv s) (he : Possible s e) : Inv (step cfg utc s e) := by
  cases e with
  | tick second => exact h.tick he
  | openPort => exact h.openPort
  | closePort =>
    exact ⟨h.engaged, h.sorted, h.past, h.lastRun, h.ordered, h.placed, h.quiet, h.phase⟩
  | reload rules =>
    exact ⟨h.engaged, h.sorted, h.past, h.lastRun, h.ordered, h.placed, h.quiet, h.phase⟩
  | start =>
    exact ⟨h.engaged, h.sorted, h.past, h.lastRun, h.ordered, h.placed, h.quiet, Nat.le_refl _⟩
  | abort =>
    exact ⟨h.engaged, h.sorted, h.past, h.lastRun, h.ordered, h.placed, h.quiet, trivial⟩
  | check unit =>
    have hphase := h.phase
    rw [step]
    cases hp : s.phase with
    | idle => exact h
    | checked began line n => exact h
    | started second =>
      rw [hp] at hphase
      -- every engagement so far lies before this check
      refine ⟨h.engaged, h.sorted, h.past, h.lastRun, h.ordered, h.placed, h.quiet,
        ⟨Nat.le_refl _, hphase, ?_⟩, fun r hr => (h.placed r hr).known,
        h.quiet_check henabled hmanaged utc unit⟩
      intro x hx
      rw [List.drop_length] at hx
      cases hx
  | finish delivered =>
    have hphase := h.phase
    rw [step]
    cases hp : s.phase with
    | idle => exact h
    | started began => exact h
    | checked second line n =>
      rw [hp] at hphase
      cases delivered with
      | true => exact h.deliver hphase
      | false =>
        exact ⟨h.engaged, h.sorted, h.past, h.lastRun, h.ordered, h.placed, h.quiet, trivial⟩

/-! ## Every engagement is reported -/

/-- The run before the first one that could report an engagement. -/
theorem previousStart_split {before after : List Report} {r : Report} {j : Nat}
    (hordered : (before ++ r :: after).Pairwise fun r r' => r.opens ≤ r'.opens)
    (hbefore : ∀ r' ∈ before, r'.opens ≤ j) (hr : j < r.opens) :
    previousStart (before ++ r :: after) j = (before.getLast?.map Report.started).getD 0 := by
  rw [List.pairwise_append, List.pairwise_cons] at hordered
  have hnone : (r :: after).filter (·.opens ≤ j) = [] := by
    rw [List.filter_eq_nil_iff]
    intro r' hr'
    rw [decide_eq_true_iff, Nat.not_le]
    rcases List.mem_cons.mp hr' with rfl | hafter
    · exact hr
    · exact Nat.lt_of_lt_of_le hr (hordered.2.1.1 r' hafter)
  have hall : before.filter (·.opens ≤ j) = before := by
    rw [List.filter_eq_self]
    exact fun r' hr' => decide_eq_true (hbefore r' hr')
  rw [previousStart, List.filter_append, hnone, hall, List.append_nil]

/-- With runs in different seconds every opening is reported. -/
theorem Inv.reported {s : State} (h : Inv s) (hdistinct : Distinct s) : Reported s := by
  intro j hj r hfind
  rw [List.find?_eq_some_iff_append] at hfind
  obtain ⟨hr, before, after, hsplit, hbefore⟩ := hfind
  rw [decide_eq_true_iff] at hr
  have hle : ∀ r' ∈ before, r'.opens ≤ j := by
    intro r' hr'
    simpa using hbefore r' hr'
  have hprevious := previousStart_split (hsplit ▸ h.ordered) hle hr
  by_contra hfailed
  rw [Bool.not_eq_true] at hfailed
  have hquiet := h.quiet before r after hsplit hfailed s.opens[j]
    (List.mem_take_iff_getElem.mpr ⟨j, by omega, rfl⟩)
  refine hdistinct j s.opens[j] (List.getElem?_eq_getElem hj) ?_
  rw [hsplit, hprevious]
  refine Nat.le_antisymm hquiet ?_
  cases hlast : before.getLast? with
  | none => exact Nat.zero_le _
  | some r' =>
    have hmem := List.mem_of_getLast? hlast
    refine (h.placed r' (hsplit ▸ List.mem_append_left _ hmem)).after _ ?_
    rw [List.mem_iff_getElem?]
    exact ⟨j - r'.opens, by
      rw [List.getElem?_drop, Nat.add_sub_cancel' (hle r' hmem), List.getElem?_eq_getElem hj]⟩

/-- **No failsafe engagement goes unreported**, in every run in which no engagement falls
into the second in which the last delivered run before it started: the first delivered run
whose check comes after an engagement complains about the tunnel. -/
theorem engagement_reported {cfg : Config} (henabled : cfg.irohSshEnabled = true)
    (hmanaged : cfg.firewallManaged = true) (utc : Nat → String) {now : Nat} {s : State}
    (h : Reached (step cfg utc) Possible { now := now } s) (hdistinct : Distinct s) :
    Reported s := by
  have hinv : Inv s := by
    refine h.invariant ⟨rfl, .nil, fun x hx => (nomatch hx), rfl, .nil, fun r hr => (nomatch hr),
      fun before r after hsplit => ?_, trivial⟩ fun s e hs he => inv_step henabled hmanaged hs he
    cases before <;> cases hsplit
  exact hinv.reported hdistinct

/-- A run is delivered, the port is opened in `second` and closed again, and another run is
delivered. -/
def recovered (second : Nat) : List Event :=
  [.start, .check "active", .tick second, .openPort, .finish true, .tick 160, .closePort,
    .tick 200, .start, .check "active", .finish true]

theorem reached_recovered {second : Nat} (hlow : 100 ≤ second) (hhigh : second ≤ 160) :
    Reached (step {} fun _ => "") Possible { now := 100 }
      ((recovered second).foldl (step {} fun _ => "") { now := 100 }) := by
  have hlater : 160 ≤ 200 := by decide
  have hpermitted : Permitted (step {} fun _ => "") Possible { now := 100 } (recovered second) :=
    ⟨rfl, trivial, hlow, trivial, trivial, hhigh, trivial, hlater, rfl, trivial, trivial, trivial⟩
  exact hpermitted.reached .start

/-- The second run reports an engagement one second after the first run began. -/
theorem engagement_reported_sample :
    Reported ((recovered 101).foldl (step {} fun _ => "") { now := 100 }) := by
  refine engagement_reported rfl rfl (fun _ => "") (reached_recovered (by decide) (by decide)) ?_
  intro j second hj
  match j with
  | 0 =>
    cases hj
    decide
  | j + 1 => cases hj

/-- In the same second it does not: the port was opened and closed again, and two runs were
delivered without a word. -/
theorem engagement_not_reported :
    ¬ ∀ (cfg : Config) (utc : Nat → String) (now : Nat) (s : State),
      cfg.irohSshEnabled = true → cfg.firewallManaged = true →
      Reached (step cfg utc) Possible { now := now } s → Reported s := by
  intro hall
  have hreported := hall {} (fun _ => "") 100 _ rfl rfl
    (reached_recovered (Nat.le_refl 100) (by decide)) 0 (by decide) _ rfl
  revert hreported
  decide

end HostServices.Scripts.Monitoring
