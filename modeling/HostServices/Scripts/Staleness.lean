import HostServices.Lib.Fallible
import HostServices.Lib.Shell
import HostServices.Lib.Utf8

/-!
# Units that have not run for too long (`modules/monitoring.nix`)

A monitoring run checks of some units that their last success is not too long ago. How long
is too long is an option such as `14d`, which a function turns into seconds. Where it does not
understand the option, that function complains, sets the flag of a failed check and prints 0;
but it runs in a command substitution, where the flag is lost and the complaint becomes part of
the number.

- `parseDurationSeconds`, `checkUnitRecent`: the source's functions;
- `Check`, `Step`, `runSteps`: a run, with the other checks around;
- `duration`: what an option stands for;
- `maxSeconds_unit`, `maxSeconds_other`: what becomes of the option;
- `watched_iff`: the runs that do not pass a check by accident.
-/

namespace HostServices.Scripts.Staleness

open HostServices.Lib HostServices.Lib.Shell

/-! ## Logging -/

/-- The flag of a run, and the file it logs to. -/
structure State where
  checksFailed : Bool := false
  log : List (List UInt8) := []

/-- `log`: the line goes to the file and to the output. -/
def log (text : List UInt8) (s : State) : List UInt8 × State :=
  (text ++ [newline], { s with log := s.log ++ [text] })

/-- `fail`: the line is written, and the checks have failed. -/
def fail (text : List UInt8) (s : State) : State :=
  (log (utf8Bytes "[FAIL] " ++ text) { s with checksFailed := true }).2

/-- `ok`: the line is written. -/
def ok (text : List UInt8) (s : State) : State := (log (utf8Bytes "[OK] " ++ text) s).2

/-- `skip`: the line is written. -/
def skip (text : List UInt8) (s : State) : State := (log (utf8Bytes "[SKIP] " ++ text) s).2

/-- `info`: the line is written. -/
def info (text : List UInt8) (s : State) : State := (log (utf8Bytes "[INFO] " ++ text) s).2

/-- Why a function does not come to its end. -/
inductive Stop
  /-- an expansion fails, and the shell goes on with the next command of the script -/
  | discarded (s : State)
  /-- a command fails under `errexit`, and the shell exits -/
  | ended (s : State)

/-- What had been written by then. -/
def Stop.state : Stop → State
  | discarded s | ended s => s

/-- A command substitution: what is printed is the value, and of the state only the file stays.
Where the subshell stops, the shell exits. -/
def commandSubstitution (f : State → Except Stop (List UInt8 × State)) (s : State) :
    Except Stop (List UInt8 × State) :=
  match f s with
  | .ok (output, inner) => .ok (substitute output, { s with log := inner.log })
  | .error stop => .error (.ended { s with log := stop.state.log })

/-! ## The check of a unit -/

/-- `${value%[smhd]}` -/
def numberOf (value : List UInt8) : List UInt8 :=
  if value.getLast?.any (utf8Bytes "smhd").contains then value.dropLast else value

/-- What is printed for `m`, `h` and `d`. -/
def printProduct (arith : Arithmetic) (number : List UInt8) (factor : Int) (s : State) :
    Except Stop (List UInt8 × State) :=
  match arith.eval number with
  | some n => .ok (decimalInt (wrap (n * factor)) ++ [newline], s)
  | none => .error (.discarded s)

/-- `parse_duration_seconds`: a number, and a unit. -/
def parseDurationSeconds (arith : Arithmetic) (value : List UInt8) (s : State) :
    Except Stop (List UInt8 × State) :=
  let number := numberOf value
  let unit := value.drop number.length
  if unit = utf8Bytes "s" then .ok (number ++ [newline], s)
  else if unit = utf8Bytes "m" then printProduct arith number 60 s
  else if unit = utf8Bytes "h" then printProduct arith number (60 * 60) s
  else if unit = utf8Bytes "d" then printProduct arith number (24 * 60 * 60) s
  else
    -- the complaint is printed in front of the 0
    let (output, s) := log (utf8Bytes "[FAIL] unsupported duration '" ++ value
      ++ utf8Bytes "'; use Ns, Nm, Nh, or Nd") s
    .ok (output ++ (utf8Bytes "0" ++ [newline]), { s with checksFailed := true })

/-- The file with the second of the last success. -/
structure Marker where
  content : List UInt8
  last : Int
  holds : substitute content = decimalInt last
  low : -2 ^ 63 < last
  high : last < 2 ^ 63

/-- A call of `check_unit_recent`, and what it finds. -/
structure Check where
  label : List UInt8
  unit : List UInt8
  maxAge : List UInt8
  /-- the marker, where it can be read -/
  marker : Option Marker
  /-- what `date +%s` prints -/
  now : Int
  /-- what `date` prints for a second, where it is one of its calendar -/
  date : List UInt8 → Option (List UInt8)
  arith : Arithmetic
  now_low : -2 ^ 63 < now
  now_high : now < 2 ^ 63
  age_low : ∀ m, marker = some m → -2 ^ 63 ≤ now - m.last
  age_high : ∀ m, marker = some m → now - m.last < 2 ^ 63

namespace Check

/-- How a line about the unit begins. -/
def subject (c : Check) : List UInt8 := c.label ++ utf8Bytes ": " ++ c.unit

/-- What is written when the last success is recent enough. -/
def okText (c : Check) (lastWhen : List UInt8) : List UInt8 :=
  c.subject ++ utf8Bytes " last succeeded at " ++ lastWhen

/-- What is written when it is too old. -/
def failText (c : Check) (lastWhen : List UInt8) : List UInt8 :=
  c.okText lastWhen ++ utf8Bytes ", older than " ++ c.maxAge

end Check

/-- `check_unit_recent`: the age limit, the marker, and the comparison of the two. -/
def checkUnitRecent (c : Check) (s : State) : Except Stop State :=
  match commandSubstitution (parseDurationSeconds c.arith c.maxAge) s with
  | .error stop => .error stop
  | .ok (maxSeconds, s) =>
    match c.marker with
    | none => .ok (fail (c.subject ++ utf8Bytes " has no successful run recorded") s)
    | some m =>
      let lastSeconds := substitute m.content
      match c.arith.eval (decimalInt c.now), c.arith.eval lastSeconds with
      | some now, some last =>
        match c.date lastSeconds with
        | none => .error (.ended s)
        | some lastWhen =>
          -- an operand that is no number is an error, and an error is not true
          if greater (decimalInt (wrap (now - last))) maxSeconds = some true then
            .ok (fail (c.failText lastWhen) s)
          else .ok (ok (c.okText lastWhen) s)
      | _, _ => .error (.discarded s)

/-! ## A run -/

/-- What the other checks log. -/
inductive Message
  | fail (text : List UInt8)
  | ok (text : List UInt8)
  | skip (text : List UInt8)
  | info (text : List UInt8)

/-- One line of the report. -/
def Message.write (s : State) : Message → State
  | fail text => Staleness.fail text s
  | ok text => Staleness.ok text s
  | skip text => Staleness.skip text s
  | info text => Staleness.info text s

/-- A command of the script: a function that checks one unit after the other, or another one,
which logs some lines and may end the run. -/
inductive Step
  | units (checks : List Check)
  | other (messages : List Message) (ends : Bool)

/-- The checks of the units, one after the other. -/
def runChecks (checks : List Check) (s : State) : Except Stop State :=
  checks.foldlM (fun s c => checkUnitRecent c s) s

/-- One part of the script; an error in a check discards the rest of these checks only. -/
def Step.run (s : State) : Step → Except State State
  | units checks =>
    match runChecks checks s with
    | .ok s | .error (.discarded s) => .ok s
    | .error (.ended s) => .error s
  | other messages ends =>
    if ends then .error (messages.foldl Message.write s) else .ok (messages.foldl Message.write s)

/-- The parts of the script, up to the first that ends it. -/
def runSteps (steps : List Step) (s : State) : Except State State := steps.foldlM Step.run s

/-- The status line of a run that comes to its end. -/
def status (s : State) : List UInt8 :=
  if s.checksFailed then utf8Bytes "status=failed" else utf8Bytes "status=ok"

/-- The script fails if a check or the report did. -/
def exitCode (reportFailed : Bool) (s : State) : Nat :=
  if s.checksFailed || reportFailed then 1 else 0

/-! ## What a run is to do -/

/-- The seconds of a unit of time. -/
def unitSeconds (byte : UInt8) : Option Nat :=
  if byte = 0x73 then some 1
  else if byte = 0x6D then some 60
  else if byte = 0x68 then some (60 * 60)
  else if byte = 0x64 then some (24 * 60 * 60)
  else none

/-- What an option stands for: digits, and a unit of time. -/
def duration (maxAge : List UInt8) : Option Nat :=
  (maxAge.getLast?.bind unitSeconds).bind fun seconds =>
    if isNumeric maxAge.dropLast then some (value 10 maxAge.dropLast * seconds) else none

/-- The last success is not longer ago than the option says. -/
def Check.Recent (c : Check) : Prop :=
  ∃ m seconds, c.marker = some m ∧ duration c.maxAge = some seconds ∧ c.now - m.last ≤ seconds

/-- The last success is longer ago than the option says. -/
def Check.Stale (c : Check) : Prop :=
  ∃ m seconds, c.marker = some m ∧ duration c.maxAge = some seconds ∧ seconds < c.now - m.last

/-- The check ends with the line that says that all is well. -/
def LogsOk (c : Check) (s : State) : Prop :=
  ∃ s' before lastWhen, checkUnitRecent c s = .ok s' ∧
    s'.log = before ++ [utf8Bytes "[OK] " ++ c.okText lastWhen]

/-- A run comes to the check, with this state. -/
def Executed (steps : List Step) (c : Check) (s : State) : Prop :=
  ∃ before checks checks' after s₀, steps = before ++ .units (checks ++ c :: checks') :: after ∧
    runSteps before {} = .ok s₀ ∧ runChecks checks s₀ = .ok s

/-- The run has the check among its commands. -/
def Contains (steps : List Step) (c : Check) : Prop := ∃ checks, .units checks ∈ steps ∧ c ∈ checks

/-- No check of a run passes by accident. -/
structure Watched (steps : List Step) : Prop where
  ok_recent : ∀ c s, Executed steps c s → LogsOk c s → c.Recent
  failed : ∀ c s, Contains steps c → runSteps steps {} = .ok s →
    duration c.maxAge = none ∨ c.Stale →
    s.checksFailed = true ∧ status s = utf8Bytes "status=failed" ∧
      ∀ reportFailed, exitCode reportFailed s = 1

/-! ## What becomes of the option -/

theorem unitSeconds_isSome {byte : UInt8} :
    (unitSeconds byte).isSome ↔ (utf8Bytes "smhd").contains byte = true := by
  rw [show utf8Bytes "smhd" = [0x73, 0x6D, 0x68, 0x64] from rfl, List.contains_iff_mem]
  simp only [List.mem_cons, List.not_mem_nil, or_false]
  rw [unitSeconds]
  split_ifs with hs hm hh hd
  · simp [hs]
  · simp [hm]
  · simp [hh]
  · simp [hd]
  · simp [hs, hm, hh, hd]

/-- What stands in front of the unit. -/
theorem numberOf_concat {byte : UInt8} {seconds : Nat} (h : unitSeconds byte = some seconds)
    (number : List UInt8) : numberOf (number ++ [byte]) = number := by
  have hunit : (utf8Bytes "smhd").contains byte = true :=
    unitSeconds_isSome.mp (by rw [h]; rfl)
  rw [numberOf, List.getLast?_concat, Option.any_some, if_pos hunit, List.dropLast_concat]

/-- The value does not end in a unit of time. -/
def Unsupported (value : List UInt8) : Prop :=
  ∀ number byte, value = number ++ [byte] → unitSeconds byte = none

/-- Without a unit all of the text is the number. -/
theorem numberOf_of_unsupported {value : List UInt8} (h : Unsupported value) :
    numberOf value = value := by
  rcases List.eq_nil_or_concat value with rfl | ⟨number, byte, rfl⟩
  · rfl
  · have hbyte := h number byte List.concat_eq_append
    rw [numberOf, List.concat_eq_append, List.getLast?_concat, Option.any_some, if_neg]
    intro hcontains
    rw [← unitSeconds_isSome, hbyte] at hcontains
    cases hcontains

/-- What a printed product becomes. -/
theorem commandSubstitution_product (arith : Arithmetic) (number : List UInt8) (factor : Int)
    (s : State) :
    commandSubstitution (printProduct arith number factor) s
      = match arith.eval number with
        | some n => .ok (decimalInt (wrap (n * factor)), s)
        | none => .error (.ended s) := by
  rw [commandSubstitution, printProduct]
  cases arith.eval number with
  | none => rfl
  | some n =>
    show Except.ok (substitute (decimalInt (wrap (n * factor)) ++ [newline]), s) = _
    rw [substitute_decimalInt]

/-- **A unit of time**: the number as it stands for `s`, and a product for the others. -/
theorem commandSubstitution_unit {byte : UInt8} {seconds : Nat}
    (h : unitSeconds byte = some seconds) (arith : Arithmetic) (number : List UInt8) (s : State) :
    commandSubstitution (parseDurationSeconds arith (number ++ [byte])) s
      = if byte = 0x73 then .ok (substitute (number ++ [newline]), s)
        else match arith.eval number with
          | some n => .ok (decimalInt (wrap (n * seconds)), s)
          | none => .error (.ended s) := by
  have hparse : parseDurationSeconds arith (number ++ [byte]) = fun s =>
      if [byte] = utf8Bytes "s" then .ok (number ++ [newline], s)
      else if [byte] = utf8Bytes "m" then printProduct arith number 60 s
      else if [byte] = utf8Bytes "h" then printProduct arith number (60 * 60) s
      else if [byte] = utf8Bytes "d" then printProduct arith number (24 * 60 * 60) s
      else parseDurationSeconds arith (number ++ [byte]) s := by
    funext s
    rw [parseDurationSeconds, numberOf_concat h, List.drop_left]
    split_ifs <;> rfl
  rw [hparse]
  unfold unitSeconds at h
  split_ifs at h with hs hm hh hd
  · subst hs
    rfl
  · subst hm
    cases h
    exact commandSubstitution_product arith number 60 s
  · subst hh
    cases h
    exact commandSubstitution_product arith number (60 * 60) s
  · subst hd
    cases h
    exact commandSubstitution_product arith number (24 * 60 * 60) s

/-- **No unit of time**: the complaint and a 0, which are no number. -/
theorem commandSubstitution_unsupported {value : List UInt8} (h : Unsupported value)
    (arith : Arithmetic) (s : State) :
    ∃ text s', commandSubstitution (parseDurationSeconds arith value) s = .ok (text, s') ∧
      s'.checksFailed = s.checksFailed ∧ legalNumber text = none := by
  let complaint := utf8Bytes "[FAIL] unsupported duration '" ++ value
    ++ utf8Bytes "'; use Ns, Nm, Nh, or Nd"
  have hparse : parseDurationSeconds arith value s
      = .ok (complaint ++ [newline] ++ (utf8Bytes "0" ++ [newline]),
          { checksFailed := true, log := s.log ++ [complaint] }) := by
    rw [parseDurationSeconds, numberOf_of_unsupported h, List.drop_length]
    rfl
  refine ⟨substitute (complaint ++ [newline] ++ (utf8Bytes "0" ++ [newline])),
    { s with log := s.log ++ [complaint] }, ?_, rfl, ?_⟩
  · rw [commandSubstitution, hparse]
  · -- the bracket of the complaint comes first
    have hzero : (0x5B : UInt8) ≠ 0 := by decide
    have hnewline : (0x5B : UInt8) ≠ newline := by decide
    obtain ⟨rest, hrest⟩ := substitute_cons hzero hnewline
      ((complaint ++ [newline] ++ (utf8Bytes "0" ++ [newline])).tail)
    rw [show complaint ++ [newline] ++ (utf8Bytes "0" ++ [newline])
      = 0x5B :: (complaint ++ [newline] ++ (utf8Bytes "0" ++ [newline])).tail from rfl, hrest]
    exact legalNumber_cons_eq_none (by decide) rfl (by decide)

/-- What the comparison finds as the number of seconds, if the run comes to it: none where the text
is no number. -/
def bound (arith : Arithmetic) (value : List UInt8) : Option (Option Int) :=
  match value.getLast?.bind unitSeconds with
  | none => some none
  | some seconds =>
    if value.getLast? = some 0x73 then
      some (legalNumber (substitute (value.dropLast ++ [newline])))
    else (arith.eval value.dropLast).map fun n => some (wrap (n * seconds))

/-- The age limit, by its unit. -/
theorem bound_concat {byte : UInt8} {seconds : Nat} (h : unitSeconds byte = some seconds)
    (arith : Arithmetic) (number : List UInt8) :
    bound arith (number ++ [byte])
      = if byte = 0x73 then some (legalNumber (substitute (number ++ [newline])))
        else (arith.eval number).map fun n => some (wrap (n * seconds)) := by
  rw [bound, List.getLast?_concat, Option.bind_some, h, List.dropLast_concat]
  simp only [Option.some_inj]

/-- An option ends in a unit of time, or it has none. -/
theorem unit_cases (value : List UInt8) :
    (∃ number byte seconds, value = number ++ [byte] ∧ unitSeconds byte = some seconds) ∨
      (Unsupported value ∧ value.getLast?.bind unitSeconds = none) := by
  rcases List.eq_nil_or_concat value with rfl | ⟨number, byte, rfl⟩
  · refine .inr ⟨fun number byte h => ?_, rfl⟩
    exact absurd h.symm (List.append_ne_nil_of_right_ne_nil _ (List.cons_ne_nil _ _))
  · rw [List.concat_eq_append]
    cases hunit : unitSeconds byte with
    | some seconds => exact .inl ⟨number, byte, seconds, rfl, hunit⟩
    | none =>
      refine .inr ⟨fun number' byte' h => ?_, ?_⟩
      · rw [← (List.singleton_inj.mp (List.append_inj' h rfl).2), hunit]
      · rw [List.getLast?_concat, Option.bind_some, hunit]

/-- **The option becomes the number of the comparison**, or the run ends. -/
theorem commandSubstitution_bound (arith : Arithmetic) (value : List UInt8) (s : State) :
    (bound arith value = none ∧
      commandSubstitution (parseDurationSeconds arith value) s = .error (.ended s)) ∨
    ∃ text s', bound arith value = some (legalNumber text) ∧
      commandSubstitution (parseDurationSeconds arith value) s = .ok (text, s') ∧
      s'.checksFailed = s.checksFailed := by
  rcases unit_cases value with ⟨number, byte, seconds, rfl, hunit⟩ | ⟨hunsupported, hnone⟩
  · rw [bound_concat hunit, commandSubstitution_unit hunit]
    by_cases hs : byte = 0x73
    · rw [if_pos hs, if_pos hs]
      exact .inr ⟨_, s, rfl, rfl, rfl⟩
    · rw [if_neg hs, if_neg hs]
      cases arith.eval number with
      | none => exact .inl ⟨rfl, rfl⟩
      | some n =>
        refine .inr ⟨_, s, ?_, rfl, rfl⟩
        rw [Option.map_some, legalNumber_decimalInt (neg_two_pow_le_wrap _) (wrap_lt_two_pow _)]
  · obtain ⟨text, s', hparse, hflag, hlegal⟩ :=
      commandSubstitution_unsupported hunsupported arith s
    refine .inr ⟨text, s', ?_, hparse, hflag⟩
    rw [bound, hnone, hlegal]

/-! ## What a check does -/

/-- The comparison does not find the age greater, so the check passes. -/
def Check.Passes (c : Check) : Prop :=
  ∃ m lastWhen limit, c.marker = some m ∧ c.date (substitute m.content) = some lastWhen ∧
    bound c.arith c.maxAge = some limit ∧ ∀ n, limit = some n → c.now - m.last ≤ n

theorem Check.eval_last (c : Check) (m : Marker) :
    c.arith.eval (substitute m.content) = some m.last := by
  rw [m.holds, c.arith.eval_decimalInt m.low m.high]

/-- A check passes if the age is within the limit, wherever there is one. -/
theorem Check.passes_iff {c : Check} {m : Marker} {lastWhen : List UInt8} {limit : Option Int}
    (hmarker : c.marker = some m) (hdate : c.date (substitute m.content) = some lastWhen)
    (hbound : bound c.arith c.maxAge = some limit) :
    c.Passes ↔ ∀ n, limit = some n → c.now - m.last ≤ n := by
  constructor
  · rintro ⟨m', _, limit', hmarker', _, hbound', hle⟩
    rw [hmarker, Option.some_inj] at hmarker'
    rw [hbound, Option.some_inj] at hbound'
    rw [hmarker', hbound']
    exact hle
  · intro hle
    exact ⟨m, lastWhen, limit, hmarker, hdate, hbound, hle⟩

/-- The comparison at the end of a check. -/
theorem checkUnitRecent_compare {c : Check} {s s₁ : State} {text : List UInt8} {m : Marker}
    {lastWhen : List UInt8}
    (hparse : commandSubstitution (parseDurationSeconds c.arith c.maxAge) s = .ok (text, s₁))
    (hmarker : c.marker = some m) (hdate : c.date (substitute m.content) = some lastWhen) :
    checkUnitRecent c s
      = if greater (decimalInt (c.now - m.last)) text = some true then
          .ok (fail (c.failText lastWhen) s₁)
        else .ok (ok (c.okText lastWhen) s₁) := by
  rw [checkUnitRecent, hparse, hmarker]
  simp only [c.arith.eval_decimalInt c.now_low c.now_high, c.eval_last, hdate,
    wrap_of_lt (c.age_low m hmarker) (c.age_high m hmarker)]

/-- **A check passes, or sets the flag, or ends the run.** -/
theorem checkUnitRecent_cases (c : Check) (s : State) :
    (c.Passes ∧ ∃ s' before lastWhen, checkUnitRecent c s = .ok s' ∧
      s'.checksFailed = s.checksFailed ∧
      s'.log = before ++ [utf8Bytes "[OK] " ++ c.okText lastWhen]) ∨
    (¬ c.Passes ∧ ∃ s' before text, checkUnitRecent c s = .ok s' ∧ s'.checksFailed = true ∧
      s'.log = before ++ [utf8Bytes "[FAIL] " ++ text]) ∨
    (¬ c.Passes ∧ ∃ s', checkUnitRecent c s = .error (.ended s')) := by
  rcases commandSubstitution_bound c.arith c.maxAge s with
    ⟨hbound, hparse⟩ | ⟨text, s₁, hbound, hparse, hflag⟩
  · refine .inr (.inr ⟨?_, s, by rw [checkUnitRecent, hparse]⟩)
    rintro ⟨_, _, limit, _, _, hlimit, _⟩
    rw [hbound] at hlimit
    cases hlimit
  · cases hmarker : c.marker with
    | none =>
      refine .inr (.inl ⟨?_, fail (c.subject ++ utf8Bytes " has no successful run recorded") s₁,
        s₁.log, _, by rw [checkUnitRecent, hparse, hmarker], rfl, rfl⟩)
      rintro ⟨m, _, _, hm, _⟩
      rw [hmarker] at hm
      cases hm
    | some m =>
      cases hdate : c.date (substitute m.content) with
      | none =>
        refine .inr (.inr ⟨?_, s₁, ?_⟩)
        · rintro ⟨m', lastWhen, _, hm, hwhen, _⟩
          rw [hmarker, Option.some_inj] at hm
          rw [← hm, hdate] at hwhen
          cases hwhen
        · rw [checkUnitRecent, hparse, hmarker]
          simp only [c.arith.eval_decimalInt c.now_low c.now_high, c.eval_last, hdate]
      | some lastWhen =>
        have hcheck := checkUnitRecent_compare hparse hmarker hdate
        have hgreater : greater (decimalInt (c.now - m.last)) text = some true ↔
            ∃ n, legalNumber text = some n ∧ n < c.now - m.last :=
          greater_decimalInt (c.age_low m hmarker) (c.age_high m hmarker)
        rw [Check.passes_iff hmarker hdate hbound]
        by_cases hlater : greater (decimalInt (c.now - m.last)) text = some true
        · rw [if_pos hlater] at hcheck
          obtain ⟨n, hn, hlt⟩ := hgreater.mp hlater
          exact .inr (.inl ⟨fun hle => absurd (hle n hn) (Int.not_le.mpr hlt), _, s₁.log, _, hcheck,
            rfl, rfl⟩)
        · rw [if_neg hlater] at hcheck
          refine .inl ⟨fun n hn => Int.not_lt.mp fun hlt => ?_, _, s₁.log, lastWhen, hcheck, hflag,
            rfl⟩
          exact hlater (hgreater.mpr ⟨n, hn, hlt⟩)

/-- A line of a check that passes is none of one that fails. -/
theorem okLine_ne_failLine (text text' : List UInt8) :
    utf8Bytes "[OK] " ++ text ≠ utf8Bytes "[FAIL] " ++ text' := by
  intro h
  have hsecond := congrArg (fun line => (line.drop 1).head?) h
  cases hsecond

/-- What is logged is what the check comes to. -/
theorem logsOk_iff_passes {c : Check} {s : State} : LogsOk c s ↔ c.Passes := by
  rcases checkUnitRecent_cases c s with ⟨hpasses, s', before, lastWhen, hcheck, _, hlog⟩ |
    ⟨hnot, s', before, text, hcheck, _, hlog⟩ | ⟨hnot, s', hcheck⟩
  · exact iff_of_true ⟨s', before, lastWhen, hcheck, hlog⟩ hpasses
  · refine iff_of_false ?_ hnot
    rintro ⟨s'', before', lastWhen, hcheck', hlog'⟩
    rw [hcheck, Except.ok.injEq] at hcheck'
    rw [← hcheck', hlog] at hlog'
    exact okLine_ne_failLine _ _ (List.singleton_inj.mp (List.append_inj' hlog' rfl).2).symm
  · refine iff_of_false ?_ hnot
    rintro ⟨s'', _, _, hcheck', _⟩
    rw [hcheck] at hcheck'
    cases hcheck'

/-! ## When a check passes by accident -/

/-- What an age limit means, by its unit. -/
theorem duration_concat {byte : UInt8} {seconds : Nat} (h : unitSeconds byte = some seconds)
    (number : List UInt8) :
    duration (number ++ [byte])
      = if isNumeric number then some (value 10 number * seconds) else none := by
  rw [duration, List.getLast?_concat, Option.bind_some, h, Option.bind_some, List.dropLast_concat]

/-- An option that stands for some seconds never becomes more of them. -/
theorem le_duration {maxAge : List UInt8} {total : Nat} (h : duration maxAge = some total)
    {arith : Arithmetic} {limit : Option Int} (hlimit : bound arith maxAge = some limit) {age : Int}
    (hage : age < 2 ^ 63) (hle : ∀ n, limit = some n → age ≤ n) : age ≤ total := by
  rcases unit_cases maxAge with ⟨number, byte, seconds, rfl, hunit⟩ | ⟨_, hnone⟩
  · rw [duration_concat hunit] at h
    split_ifs at h with hnumeric
    rw [Option.some_inj] at h
    rw [bound_concat hunit] at hlimit
    split_ifs at hlimit with hs
    · -- the number as it stands; one that is too large is an error
      subst hs
      have hseconds : seconds = 1 := (Option.some_inj.mp hunit).symm
      rw [substitute_line (plain_of_isNumeric hnumeric), legalNumber_digits hnumeric,
        Option.some_inj] at hlimit
      rw [← h, hseconds, Nat.mul_one]
      by_cases hfits : (value 10 number : Int) < 2 ^ 63
      · rw [if_pos hfits] at hlimit
        exact hle _ hlimit.symm
      · omega
    · rw [arith.digits _ hnumeric] at hlimit
      obtain ⟨n, hn, hproduct⟩ := Option.map_eq_some_iff.mp hlimit
      obtain ⟨v, rfl, hv⟩ := constant_le hn
      rw [wrap_wrap_mul] at hproduct
      have hlewrap := hle _ hproduct.symm
      have hwrap := wrap_le (n := (v : Int) * seconds) (by positivity)
      have hmul : v * seconds ≤ value 10 number * seconds := Nat.mul_le_mul_right _ hv
      rw [← h]
      push_cast
      zify at hmul
      omega
  · rw [duration, hnone] at h
    cases h

/-- The option ends in a unit of time, and what the shell makes of the text before it is a number
of seconds below the age; for another unit than `s` the text may also be no expression. -/
def Overrun (arith : Arithmetic) (maxAge : List UInt8) (age : Int) : Prop :=
  ∃ number byte seconds, maxAge = number ++ [byte] ∧ unitSeconds byte = some seconds ∧
    if byte = 0x73 then ∃ n, legalNumber (substitute (number ++ [newline])) = some n ∧ n < age
    else ∀ n, arith.eval number = some n → wrap (n * seconds) < age

/-- An age is an overrun just if it is over the limit, wherever the script gets one. -/
theorem overrun_iff {arith : Arithmetic} {maxAge : List UInt8} {age : Int} :
    Overrun arith maxAge age ↔
      ∀ limit, bound arith maxAge = some limit → ∃ n, limit = some n ∧ n < age := by
  constructor
  · rintro ⟨number, byte, seconds, rfl, hunit, hover⟩ limit hlimit
    rw [bound_concat hunit] at hlimit
    by_cases hs : byte = 0x73
    · rw [if_pos hs] at hover hlimit
      obtain ⟨n, hn, hlt⟩ := hover
      exact ⟨n, by rw [← Option.some_inj.mp hlimit, hn], hlt⟩
    · rw [if_neg hs] at hover hlimit
      obtain ⟨n, hn, rfl⟩ := Option.map_eq_some_iff.mp hlimit
      exact ⟨_, rfl, hover n hn⟩
  · intro h
    rcases unit_cases maxAge with ⟨number, byte, seconds, rfl, hunit⟩ | ⟨_, hnone⟩
    · refine ⟨number, byte, seconds, rfl, hunit, ?_⟩
      rw [bound_concat hunit] at h
      by_cases hs : byte = 0x73
      · rw [if_pos hs] at h ⊢
        exact h _ rfl
      · rw [if_neg hs] at h ⊢
        intro n hn
        obtain ⟨n', hn', hlt⟩ := h _ (by rw [hn, Option.map_some])
        rw [Option.some_inj.mp hn']
        exact hlt
    · obtain ⟨n, hn, _⟩ := h none (by rw [bound, hnone])
      cases hn

/-- The option is digits and a unit of time, or the check does not pass because of what the shell
makes of it; or there is no marker, or no date for it. -/
def Check.Guarded (c : Check) : Prop :=
  ∀ m lastWhen, c.marker = some m → c.date (substitute m.content) = some lastWhen →
    (duration c.maxAge).isSome = true ∨ Overrun c.arith c.maxAge (c.now - m.last)

/-- **The checks that do not pass by accident.** -/
theorem passes_recent_iff {c : Check} : (c.Passes → c.Recent) ↔ c.Guarded := by
  constructor
  · intro h m lastWhen hmarker hdate
    by_cases hduration : (duration c.maxAge).isSome = true
    · exact .inl hduration
    · refine .inr (overrun_iff.mpr fun limit hlimit => ?_)
      by_contra hnone
      have hpasses : c.Passes := by
        refine ⟨m, lastWhen, limit, hmarker, hdate, hlimit, fun n hn => ?_⟩
        by_contra hlt
        exact hnone ⟨n, hn, by omega⟩
      obtain ⟨_, seconds, _, hsome, _⟩ := h hpasses
      exact hduration (by rw [hsome]; rfl)
  · rintro hguarded ⟨m, lastWhen, limit, hmarker, hdate, hlimit, hle⟩
    rcases hguarded m lastWhen hmarker hdate with hduration | hover
    · obtain ⟨seconds, hseconds⟩ := Option.isSome_iff_exists.mp hduration
      exact ⟨m, seconds, hmarker, hseconds,
        le_duration hseconds hlimit (c.age_high m hmarker) hle⟩
    · obtain ⟨n, hn, hlt⟩ := overrun_iff.mp hover limit hlimit
      have hnot := hle n hn
      omega

/-! ## What a run keeps -/

theorem runChecks_cons (c : Check) (checks : List Check) (s : State) :
    runChecks (c :: checks) s = checkUnitRecent c s >>= runChecks checks := rfl

theorem runSteps_cons (step : Step) (steps : List Step) (s : State) :
    runSteps (step :: steps) s = step.run s >>= runSteps steps := rfl

theorem Message.checksFailed_write {s : State} (h : s.checksFailed = true) (message : Message) :
    (message.write s).checksFailed = true := by
  cases message with
  | fail text => rfl
  | ok text => exact h
  | skip text => exact h
  | info text => exact h

theorem checksFailed_write_foldl {s : State} (h : s.checksFailed = true)
    (messages : List Message) : (messages.foldl Message.write s).checksFailed = true := by
  induction messages generalizing s with
  | nil => exact h
  | cons message messages ih => exact ih (message.checksFailed_write h)

/-- No check takes a failure back. -/
theorem checksFailed_checkUnitRecent {c : Check} {s s' : State} (h : checkUnitRecent c s = .ok s')
    (hflag : s.checksFailed = true) : s'.checksFailed = true := by
  rcases checkUnitRecent_cases c s with ⟨_, s'', _, _, hcheck, hkept, _⟩ |
    ⟨_, s'', _, _, hcheck, hset, _⟩ | ⟨_, s'', hcheck⟩
  · rw [hcheck, Except.ok.injEq] at h
    rw [← h, hkept, hflag]
  · rw [hcheck, Except.ok.injEq] at h
    rw [← h, hset]
  · rw [hcheck] at h
    cases h

theorem checksFailed_runChecks {checks : List Check} {s s' : State}
    (h : runChecks checks s = .ok s') (hflag : s.checksFailed = true) : s'.checksFailed = true := by
  induction checks generalizing s with
  | nil =>
    cases h
    exact hflag
  | cons c checks ih =>
    rw [runChecks_cons, bind_eq_ok] at h
    obtain ⟨s₁, hcheck, hrest⟩ := h
    exact ih hrest (checksFailed_checkUnitRecent hcheck hflag)

/-- No check of a unit is left in the middle with the run going on. -/
theorem runChecks_ne_discarded (checks : List Check) (s s' : State) :
    runChecks checks s ≠ .error (.discarded s') := by
  induction checks generalizing s with
  | nil =>
    intro h
    cases h
  | cons c checks ih =>
    rw [runChecks_cons]
    rcases checkUnitRecent_cases c s with ⟨_, s₁, _, _, hcheck, _⟩ |
      ⟨_, s₁, _, _, hcheck, _⟩ | ⟨_, s₁, hcheck⟩
    · rw [hcheck]
      exact ih s₁
    · rw [hcheck]
      exact ih s₁
    · rw [hcheck]
      intro h
      cases h

theorem run_units_eq_ok {checks : List Check} {s s' : State} :
    Step.run s (.units checks) = .ok s' ↔ runChecks checks s = .ok s' := by
  rw [Step.run]
  cases hrun : runChecks checks s with
  | ok s₁ => simp
  | error stop =>
    cases stop with
    | discarded s₁ => exact absurd hrun (runChecks_ne_discarded checks s s₁)
    | ended s₁ => simp

/-- No part of the script takes the flag of a failed check back. -/
theorem checksFailed_run {step : Step} {s s' : State} (h : step.run s = .ok s')
    (hflag : s.checksFailed = true) : s'.checksFailed = true := by
  cases step with
  | units checks => exact checksFailed_runChecks (run_units_eq_ok.mp h) hflag
  | other messages ends =>
    cases ends with
    | true => cases h
    | false =>
      cases h
      exact checksFailed_write_foldl hflag messages

/-- **The flag is never cleared.** -/
theorem checksFailed_runSteps {steps : List Step} {s s' : State} (h : runSteps steps s = .ok s')
    (hflag : s.checksFailed = true) : s'.checksFailed = true := by
  induction steps generalizing s with
  | nil =>
    cases h
    exact hflag
  | cons step steps ih =>
    rw [runSteps_cons, bind_eq_ok] at h
    obtain ⟨s₁, hstep, hrest⟩ := h
    exact ih hrest (checksFailed_run hstep hflag)

/-- A run that comes to its end has come to every check, and goes on behind it. -/
theorem Contains.executed {steps : List Step} {c : Check} (h : Contains steps c) {s : State}
    (hrun : runSteps steps {} = .ok s) :
    ∃ s₁ s₂, Executed steps c s₁ ∧ checkUnitRecent c s₁ = .ok s₂ ∧
      (s₂.checksFailed = true → s.checksFailed = true) := by
  obtain ⟨checks, hstep, hcheck⟩ := h
  obtain ⟨before, after, rfl⟩ := List.append_of_mem hstep
  obtain ⟨cs, cs', rfl⟩ := List.append_of_mem hcheck
  rw [runSteps, List.foldlM_append, bind_eq_ok] at hrun
  obtain ⟨s₀, hbefore, hrun⟩ := hrun
  rw [List.foldlM_cons, bind_eq_ok] at hrun
  obtain ⟨s₃, hunits, hafter⟩ := hrun
  rw [run_units_eq_ok, runChecks, List.foldlM_append, bind_eq_ok] at hunits
  obtain ⟨s₁, hcs, hunits⟩ := hunits
  rw [List.foldlM_cons, bind_eq_ok] at hunits
  obtain ⟨s₂, hcheck, hcs'⟩ := hunits
  refine ⟨s₁, s₂, ⟨before, cs, cs', after, s₀, rfl, hbefore, hcs⟩, hcheck, fun hflag => ?_⟩
  exact checksFailed_runSteps hafter (checksFailed_runChecks hcs' hflag)

/-- **No check passes by accident just in the runs that come only to guarded checks.** -/
theorem watched_iff (steps : List Step) :
    Watched steps ↔ ∀ c s, Executed steps c s → c.Guarded := by
  constructor
  · intro h c s hexecuted
    exact passes_recent_iff.mp fun hpasses =>
      h.ok_recent c s hexecuted (logsOk_iff_passes.mpr hpasses)
  · intro h
    refine ⟨fun c s hexecuted hok =>
      passes_recent_iff.mpr (h c s hexecuted) (logsOk_iff_passes.mp hok), ?_⟩
    intro c s hcontains hrun hbad
    obtain ⟨s₁, s₂, hexecuted, hcheck, hkept⟩ := hcontains.executed hrun
    have hflag : s.checksFailed = true := by
      rcases checkUnitRecent_cases c s₁ with ⟨hpasses, _⟩ | ⟨_, s₃, _, _, hfail, hset, _⟩ |
        ⟨_, s₃, hended⟩
      · -- a check that passes is recent, which is neither
        obtain ⟨m, seconds, hmarker, hduration, hle⟩ :=
          passes_recent_iff.mpr (h c s₁ hexecuted) hpasses
        rcases hbad with hnone | ⟨m', seconds', hmarker', hduration', hlt⟩
        · rw [hduration] at hnone
          cases hnone
        · rw [hmarker, Option.some_inj] at hmarker'
          rw [hduration, Option.some_inj] at hduration'
          rw [hmarker', hduration'] at hle
          omega
      · rw [hcheck, Except.ok.injEq] at hfail
        exact hkept (hfail ▸ hset)
      · rw [hcheck] at hended
        cases hended
    refine ⟨hflag, ?_, fun reportFailed => ?_⟩
    · rw [status, hflag, if_pos rfl]
    · rw [exitCode, hflag, Bool.true_or, if_pos rfl]

/-! ## Weeks -/

/-- A shell in which no text but that of a number is an expression. -/
def numerals : Arithmetic where
  eval
    | [] => some 0
    | byte :: text =>
      if isNumeric (byte :: text) then constant (byte :: text)
      else if byte = minus && isNumeric text then (constant text).map fun n => wrap (-n)
      else none
  empty := rfl
  digits := by
    intro text h
    cases text with
    | nil => cases h
    | cons byte text => exact if_pos h
  negated := by
    intro text h
    show (if isNumeric (minus :: text) then _ else _) = _
    rw [if_neg (by rw [isNumeric]; exact Bool.false_ne_true), if_pos (by rw [h]; rfl)]

/-- A backup in September 2020, and a run in November 2023. -/
def weeks : Check where
  label := utf8Bytes "restic home"
  unit := utf8Bytes "restic-backups-home.service"
  maxAge := utf8Bytes "2w"
  marker := some
    { content := decimalInt 1600000000 ++ [newline]
      last := 1600000000
      holds := substitute_decimalInt 1600000000
      low := by decide
      high := by decide }
  now := 1700000000
  date := fun _ => some (utf8Bytes "2020-09-13T12:26:40Z")
  arith := numerals
  now_low := by decide
  now_high := by decide
  age_low := by
    rintro m ⟨⟩
    decide
  age_high := by
    rintro m ⟨⟩
    decide

theorem passes_weeks : weeks.Passes :=
  ⟨_, _, none, rfl, rfl, rfl, fun _ hn => nomatch hn⟩

/-- A unit that is not supported: the check passes three years after the last success, and the run
exits with 0. -/
theorem not_watched_weeks :
    ¬ Watched [.units [weeks]] ∧
      ∃ s, runSteps [.units [weeks]] {} = .ok s ∧ status s = utf8Bytes "status=ok" ∧
        exitCode false s = 0 := by
  constructor
  · intro h
    obtain ⟨m, seconds, _, hduration, _⟩ :=
      h.ok_recent weeks {} ⟨[], [], [], [], {}, rfl, rfl, rfl⟩ (logsOk_iff_passes.mpr passes_weeks)
    cases hduration
  · rcases checkUnitRecent_cases weeks {} with ⟨_, s, _, _, hcheck, hkept, _⟩ |
      ⟨hnot, _⟩ | ⟨hnot, _⟩
    · have hrun : runSteps [.units [weeks]] {} = .ok s := by
        rw [runSteps, List.foldlM_cons, bind_eq_ok]
        refine ⟨s, run_units_eq_ok.mpr ?_, rfl⟩
        rw [runChecks, List.foldlM_cons, bind_eq_ok]
        exact ⟨s, hcheck, rfl⟩
      have hflag : s.checksFailed = false := hkept
      refine ⟨s, hrun, ?_, ?_⟩
      · rw [status, hflag, if_neg Bool.false_ne_true]
      · rw [exitCode, hflag, Bool.false_or, if_neg Bool.false_ne_true]
    · exact absurd passes_weeks hnot
    · exact absurd passes_weeks hnot

end HostServices.Scripts.Staleness
