import HostServices.Lib.Runs
import Mathlib.Data.Finset.Basic
import Mathlib.Tactic.Common

/-!
# Units that backups stop (`modules/restic.nix`)

A backup reads the data of a unit while the unit is down. Three units of systemd see to that
beside the backup's own, and three scripts. `restic-hold-<name>` is one backup's hold. All holds
on a unit require its `restic-quiesce-<unit>`, whose start stops the unit and whose stop starts
it again, through `restic-restart-<unit>`, which is retried while it fails. Whether the unit is
to be started again is a mark in the quiesce unit's runtime directory.

- `State.quiesceStopScript`, `State.quiesceStartScript`, `State.restartScript`: the scripts, by
  the commands that they run;
- `step`: what else happens, with what systemd promises of its dependencies as the guards, and
  `Move` what it can come to;
- `Exclusion`: the scripts and the holds keep out of each other's way;
- `Annotated`: what the mark says, where the quiesce unit stands;
- `downtime_shared`: no script starts the unit under a hold; and the unit is started again
  exactly if it was wanted, in every run in which it holds still while it is looked at.

The model is of one stopped unit, and `B` are the backups that list it. The unit itself may do
anything at any time: be started, stopped and restarted by others, and crash.
-/

namespace HostServices.Scripts.Restic

open HostServices.Lib

/-! ## The stopped unit -/

/-- `ActiveState` of a unit. -/
inductive ActiveState
  | active
  | reloading
  | refreshing
  | inactive
  | failed
  | activating
  | deactivating
  | maintenance
  deriving DecidableEq, Repr

/-- Up, or on its way up. -/
def ActiveState.isUp : ActiveState → Bool
  | .active | .reloading | .refreshing | .activating => true
  | .inactive | .failed | .deactivating | .maintenance => false

/-- The job of a unit that is waiting or under way. -/
inductive Job
  | start
  | restart
  | stop
  | other
  deriving DecidableEq, Repr

/-- What `systemctl` says of the unit. -/
structure UnitStatus where
  state : ActiveState
  /-- `SubState` is one of `auto-restart*` -/
  autoRestart : Bool := false
  job : Option Job := none
  deriving DecidableEq, Repr

/-- A start or restart job is pending. -/
def UnitStatus.starting (u : UnitStatus) : Bool := u.job = some .start || u.job = some .restart

/-- The unit is to be started again if it is stopped now. -/
def UnitStatus.wanted (u : UnitStatus) : Bool := u.state.isUp || u.starting

/-! ## The other units -/

/-- `restic-restart-<unit>`. All but the first are `activating`. -/
inductive Restart
  | inactive
  /-- before `systemctl start` -/
  | script
  /-- until that returns -/
  | await
  /-- failed, and to be retried -/
  | autoRestart
  deriving DecidableEq, Repr

/-- Where `quiesceStopScript` stands, with what it has read. -/
inductive StopScript
  | checkRestart
  | stopRestart
  | readState
  | readSubState (state : ActiveState)
  | listJobs (state : ActiveState) (autoRestart : Bool)
  | startUnit
  | awaitStart
  /-- `joined`: a start under way was let finish first -/
  | stopUnit (joined : Bool)
  deriving DecidableEq, Repr

/-- Where `quiesceStartScript` stands. -/
inductive StartScript
  | testMark
  | awaitRestart
  deriving DecidableEq, Repr

/-- `restic-quiesce-<unit>`. -/
inductive Quiesce
  | inactive
  | activating (script : StopScript)
  | active
  | deactivating (script : StartScript)
  deriving DecidableEq, Repr

/-- What became of the unit over one downtime. -/
structure Downtime where
  /-- when it was stopped, it was up or on its way up, or a start of it was being retried -/
  wanted : Bool
  /-- the restart unit was started when the last hold was gone -/
  restarted : Bool
  deriving DecidableEq, Repr

/-- The unit, the two scripts, the mark and the holds. -/
structure State (B : Type) where
  unit : UnitStatus
  restart : Restart := .inactive
  quiesce : Quiesce := .inactive
  /-- `restart` is in the runtime directory -/
  mark : Bool := false
  /-- the holds that have a start job -/
  starting : Finset B := ∅
  /-- the holds that are active -/
  holds : Finset B := ∅
  /-- a retry was pending when the script looked -/
  retry : Bool := false
  /-- what `Downtime.wanted` will be -/
  wanted : Bool := false
  downtimes : List Downtime := []

variable {B : Type}

/-! ## The scripts -/

/-- The next command of `quiesceStopScript`, which is the start of the quiesce unit. `failed` is
whether the unit is left failed by its stop. -/
def State.quiesceStopScript (s : State B) (failed : Bool) : StopScript → State B
  | .checkRestart =>
    let retry := s.restart ≠ .inactive
    { s with mark := s.mark || retry, retry := retry, quiesce := .activating .stopRestart }
  | .stopRestart => { s with restart := .inactive, quiesce := .activating .readState }
  | .readState => { s with quiesce := .activating (.readSubState s.unit.state) }
  | .readSubState state =>
    { s with quiesce := .activating (.listJobs state s.unit.autoRestart) }
  | .listJobs state autoRestart =>
    let starting := s.unit.starting
    { s with
      mark := s.mark || state.isUp || starting
      quiesce := .activating
        (if starting || (state = .activating && !autoRestart) then .startUnit
        else .stopUnit false) }
  -- the first command on the unit, here or below, is when it is stopped
  | .startUnit =>
    { s with
      wanted := s.retry || s.unit.wanted
      unit := { s.unit with job := some (if s.unit.job = some .restart then .restart else .start) }
      quiesce := .activating .awaitStart }
  | .awaitStart => { s with quiesce := .activating (.stopUnit true) }
  | .stopUnit joined =>
    { s with
      wanted := if joined then s.wanted else s.retry || s.unit.wanted
      unit := { state := if failed then .failed else .inactive }
      quiesce := .active }

/-- The next command of `quiesceStartScript`, which is the stop of the quiesce unit. The runtime
directory goes with the unit. -/
def State.quiesceStartScript (s : State B) : StartScript → State B
  | .testMark =>
    let downtimes := s.downtimes ++ [{ wanted := s.wanted, restarted := s.mark }]
    if s.mark then
      { s with
        restart := .script
        quiesce := .deactivating .awaitRestart
        downtimes := downtimes }
    else { s with quiesce := .inactive, mark := false, downtimes := downtimes }
  | .awaitRestart =>
    -- `systemctl start` waits for the start, and not for its retries
    if s.restart = .script ∨ s.restart = .await then s
    else { s with quiesce := .inactive, mark := false }

/-- `restartScript`: `systemctl start` of the unit. -/
def State.restartScript (s : State B) : State B :=
  if s.restart = .script then
    { s with restart := .await, unit := { s.unit with job := some .start } }
  else s

/-! ## A step -/

/-- What happens, to the unit, to a hold or in one of the scripts. -/
inductive Event (B : Type)
  /-- the unit changes on its own, or by somebody else's jobs -/
  | unit (status : UnitStatus)
  /-- a backup comes to read: the start of its hold starts the quiesce unit -/
  | holdStart (b : B)
  | holdActive (b : B)
  /-- the backup has read, or has ended, failed or was killed -/
  | holdStop (b : B)
  | quiesceStart
  /-- a command of the script fails, or it is killed -/
  | quiesceFail
  /-- the quiesce unit is not needed any more -/
  | quiesceStop
  | quiesceStopScript (failed : Bool)
  | quiesceStartScript
  | restartScript
  | restartDone (ok : Bool)
  /-- `RestartSec` is over -/
  | retry
  /-- somebody stops the restart unit -/
  | giveUp

/-- One step. The guards are the dependencies between the units. -/
def step [DecidableEq B] (s : State B) : Event B → State B
  | .unit status => { s with unit := status }
  | .holdStart b => if b ∈ s.holds then s else { s with starting := insert b s.starting }
  | .holdActive b =>
    -- `Requires=` and `After=`
    if b ∈ s.starting ∧ s.quiesce = .active then
      { s with starting := s.starting.erase b, holds := insert b s.holds }
    else s
  | .holdStop b => { s with starting := s.starting.erase b, holds := s.holds.erase b }
  | .quiesceStart =>
    -- a stop under way is over first; the hold that asked for the start may be gone by then
    if s.quiesce = .inactive then
      { s with quiesce := .activating .checkRestart, mark := false }
    else s
  | .quiesceFail =>
    match s.quiesce with
    | .activating _ => { s with quiesce := .inactive, mark := false, starting := ∅ }
    | _ => s
  | .quiesceStop =>
    -- `StopWhenUnneeded=`
    if s.quiesce = .active ∧ s.starting = ∅ ∧ s.holds = ∅ then
      { s with quiesce := .deactivating .testMark }
    else s
  | .quiesceStopScript failed =>
    match s.quiesce with
    | .activating script => s.quiesceStopScript failed script
    | _ => s
  | .quiesceStartScript =>
    match s.quiesce with
    | .deactivating script => s.quiesceStartScript script
    | _ => s
  | .restartScript => s.restartScript
  | .restartDone ok =>
    if s.restart = .await then
      { s with restart := if ok then .inactive else .autoRestart }
    else s
  | .retry => if s.restart = .autoRestart then { s with restart := .script } else s
  | .giveUp => { s with restart := .inactive }

/-! ## What is to hold -/

/-- The event is a script of the module starting the unit, itself or through the restart unit. -/
def StartsUnit (s : State B) : Event B → Prop
  | .quiesceStopScript _ => s.quiesce = .activating .startUnit
  | .quiesceStartScript => s.quiesce = .deactivating .testMark ∧ s.mark = true
  | .restartScript => s.restart = .script
  | _ => False

/-- The unit may change to a status, where the quiesce unit stands. Until the jobs are listed, it
is to be up, or to have a job to be, just if its state was read as up or it has such a job now.
From then until the first command on it, just if the script has found so. A retry that is taken
over makes all this immaterial. -/
def HoldsStill (mark retry : Bool) (status : UnitStatus) : Quiesce → Prop
  | .activating (.readSubState state) | .activating (.listJobs state _) =>
    (retry || state.isUp || status.starting) = (retry || status.wanted)
  | .activating .startUnit | .activating (.stopUnit false) => mark = (retry || status.wanted)
  | .activating .checkRestart | .activating .stopRestart | .activating .readState
  | .activating .awaitStart | .activating (.stopUnit true)
  | .inactive | .active | .deactivating _ => True

instance decidableHoldsStill (mark retry : Bool) (status : UnitStatus) :
    (q : Quiesce) → Decidable (HoldsStill mark retry status q)
  | .activating (.readSubState state) | .activating (.listJobs state _) =>
    inferInstanceAs
      (Decidable ((retry || state.isUp || status.starting) = (retry || status.wanted)))
  | .activating .startUnit | .activating (.stopUnit false) =>
    inferInstanceAs (Decidable (mark = (retry || status.wanted)))
  | .activating .checkRestart | .activating .stopRestart | .activating .readState
  | .activating .awaitStart | .activating (.stopUnit true)
  | .inactive | .active | .deactivating _ => .isTrue trivial

/-- The unit holds still while it is looked at. -/
def Steady (s : State B) : Event B → Prop
  | .unit status => HoldsStill s.mark s.retry status s.quiesce
  | _ => True

instance decidableSteady (s : State B) : (e : Event B) → Decidable (Steady s e)
  | .unit status => inferInstanceAs (Decidable (HoldsStill s.mark s.retry status s.quiesce))
  | .holdStart _ | .holdActive _ | .holdStop _ | .quiesceStart | .quiesceFail | .quiesceStop
  | .quiesceStopScript _ | .quiesceStartScript | .restartScript | .restartDone _ | .retry
  | .giveUp => .isTrue trivial

/-! ## What a step can do -/

/-- What a step can come to. -/
inductive Move [DecidableEq B] (s : State B) : Event B → State B → Prop
  /-- a guard does not hold -/
  | stays (e : Event B) : Move s e s
  | unit (status : UnitStatus) : Move s (.unit status) { s with unit := status }
  | holdStart (b : B) : Move s (.holdStart b) { s with starting := insert b s.starting }
  | holdActive {b : B} (hq : s.quiesce = .active) :
      Move s (.holdActive b) { s with starting := s.starting.erase b, holds := insert b s.holds }
  | holdStop (b : B) :
      Move s (.holdStop b) { s with starting := s.starting.erase b, holds := s.holds.erase b }
  | quiesceStart (hq : s.quiesce = .inactive) :
      Move s .quiesceStart { s with quiesce := .activating .checkRestart, mark := false }
  | quiesceFail {script : StopScript} (hq : s.quiesce = .activating script) :
      Move s .quiesceFail { s with quiesce := .inactive, mark := false, starting := ∅ }
  | quiesceStop (hq : s.quiesce = .active) (hholds : s.holds = ∅) :
      Move s .quiesceStop { s with quiesce := .deactivating .testMark }
  | quiesceStopScript {failed : Bool} {script : StopScript} (hq : s.quiesce = .activating script) :
      Move s (.quiesceStopScript failed) (s.quiesceStopScript failed script)
  | quiesceStartScript {script : StartScript} (hq : s.quiesce = .deactivating script) :
      Move s .quiesceStartScript (s.quiesceStartScript script)
  | restartScript (hr : s.restart = .script) :
      Move s .restartScript
        { s with restart := .await, unit := { s.unit with job := some .start } }
  /-- the restart unit goes on, which it does only if it was started -/
  | restart {e : Event B} {r : Restart} (hr : s.restart = .inactive → r = .inactive) :
      Move s e { s with restart := r }

/-- What a step of each kind does. -/
theorem step_move [DecidableEq B] (s : State B) (e : Event B) : Move s e (step s e) := by
  cases e with
  | unit status => exact .unit status
  | holdStop b => exact .holdStop b
  | giveUp => exact .restart fun _ => rfl
  | holdStart b =>
    rw [step]
    split_ifs
    · exact .stays _
    · exact .holdStart b
  | holdActive b =>
    rw [step]
    split_ifs with hb
    · exact .holdActive hb.2
    · exact .stays _
  | quiesceStart =>
    rw [step]
    split_ifs with hq
    · exact .quiesceStart hq
    · exact .stays _
  | quiesceFail =>
    rw [step]
    cases hq : s.quiesce with
    | activating script => exact .quiesceFail hq
    | inactive | active | deactivating => exact .stays _
  | quiesceStop =>
    rw [step]
    split_ifs with hq
    · exact .quiesceStop hq.1 hq.2.2
    · exact .stays _
  | quiesceStopScript failed =>
    rw [step]
    cases hq : s.quiesce with
    | activating script => exact .quiesceStopScript hq
    | inactive | active | deactivating => exact .stays _
  | quiesceStartScript =>
    rw [step]
    cases hq : s.quiesce with
    | deactivating script => exact .quiesceStartScript hq
    | inactive | active | activating => exact .stays _
  | restartScript =>
    rw [step, State.restartScript]
    split_ifs with hr
    · exact .restartScript hr
    · exact .stays _
  | restartDone ok =>
    rw [step]
    by_cases hr : s.restart = .await
    · rw [if_pos hr]
      exact .restart (by simp [hr])
    · rw [if_neg hr]
      exact .stays _
  | retry =>
    rw [step]
    split_ifs with hr
    · exact .restart (by simp [hr])
    · exact .stays _

/-! ## Scripts and holds -/

/-- The restart unit is stopped, and not yet started again. -/
def Quiesce.excludesRestart : Quiesce → Bool
  | .inactive | .activating .checkRestart | .activating .stopRestart => false
  | .activating _ | .active | .deactivating .testMark => true
  | .deactivating .awaitRestart => false

/-- A hold is active only while the quiesce unit is, and the restart unit is down by then. -/
structure Exclusion (s : State B) : Prop where
  quiesce : s.holds ≠ ∅ → s.quiesce = .active
  restart : s.quiesce.excludesRestart = true → s.restart = .inactive

/-- Nothing was held as long as the quiesce unit is not active. -/
theorem Exclusion.holds_eq {s : State B} (h : Exclusion s) (hq : s.quiesce ≠ .active) :
    s.holds = ∅ := by
  by_contra hne
  exact hq (h.quiesce hne)

theorem Exclusion.not_starts {s : State B} {e : Event B} (h : Exclusion s)
    (he : StartsUnit s e) : s.holds = ∅ := by
  cases e with
  | quiesceStopScript failed => exact h.holds_eq (by simp [show s.quiesce = _ from he])
  | quiesceStartScript => exact h.holds_eq (by simp [he.1])
  | restartScript =>
    by_contra hne
    have hinactive := h.restart (by rw [h.quiesce hne]; rfl)
    rw [show s.restart = _ from he] at hinactive
    cases hinactive
  | _ => exact he.elim

/-- While nothing is held, only the restart unit has to be looked at. -/
theorem Exclusion.of_empty {s : State B} (hholds : s.holds = ∅)
    (h : s.quiesce.excludesRestart = true → s.restart = .inactive) : Exclusion s :=
  ⟨fun hne => absurd hholds hne, h⟩

/-- The stop script keeps the unit and the holds apart. -/
theorem Exclusion.quiesceStopScript {s : State B} {script : StopScript} (h : Exclusion s)
    (hq : s.quiesce = .activating script) (failed : Bool) :
    Exclusion (s.quiesceStopScript failed script) := by
  have hholds : s.holds = ∅ := h.holds_eq (by simp [hq])
  have hrestart := h.restart
  rw [hq] at hrestart
  cases script with
  | checkRestart =>
    refine .of_empty hholds ?_
    simp [State.quiesceStopScript, Quiesce.excludesRestart]
  | stopRestart => exact .of_empty hholds fun _ => rfl
  | readState | readSubState | listJobs | startUnit | awaitStart | stopUnit =>
    exact .of_empty hholds fun _ => hrestart rfl

/-- The steps of the start script keep the exclusion. -/
theorem Exclusion.quiesceStartScript {s : State B} {script : StartScript} (h : Exclusion s)
    (hq : s.quiesce = .deactivating script) : Exclusion (s.quiesceStartScript script) := by
  have hholds : s.holds = ∅ := h.holds_eq (by simp [hq])
  cases script with
  | testMark =>
    rw [State.quiesceStartScript]
    split_ifs
    · exact .of_empty hholds (by simp [Quiesce.excludesRestart])
    · exact .of_empty hholds (by simp [Quiesce.excludesRestart])
  | awaitRestart =>
    rw [State.quiesceStartScript]
    split_ifs
    · exact h
    · exact .of_empty hholds (by simp [Quiesce.excludesRestart])

/-- **The unit does not run while it is held, whoever moves.** -/
theorem Exclusion.move [DecidableEq B] {s s' : State B} {e : Event B} (h : Exclusion s)
    (hmove : Move s e s') : Exclusion s' := by
  cases hmove with
  | stays => exact h
  | unit | holdStart => exact ⟨h.quiesce, h.restart⟩
  | holdActive hq => exact ⟨fun _ => hq, h.restart⟩
  | holdStop b =>
    refine ⟨?_, h.restart⟩
    intro hne
    apply h.quiesce
    intro hholds
    simp [hholds] at hne
  | quiesceStart hq =>
    exact .of_empty (h.holds_eq (by simp [hq])) (by simp [Quiesce.excludesRestart])
  | quiesceFail hq =>
    exact .of_empty (h.holds_eq (by simp [hq])) (by simp [Quiesce.excludesRestart])
  | quiesceStop hq hholds => exact .of_empty hholds fun _ => h.restart (by rw [hq]; rfl)
  | quiesceStopScript hq => exact h.quiesceStopScript hq _
  | quiesceStartScript hq => exact h.quiesceStartScript hq
  | restartScript hr => exact ⟨h.quiesce, fun hq => absurd (h.restart hq) (by simp [hr])⟩
  | restart hr => exact ⟨h.quiesce, fun hq => hr (h.restart hq)⟩

/-! ## The mark -/

/-- What the mark says where the quiesce unit stands. -/
def Known (mark retry wanted : Bool) (unit : UnitStatus) : Quiesce → Prop
  | .inactive | .deactivating .awaitRestart => True
  | .activating .checkRestart => mark = false
  | .activating .stopRestart | .activating .readState => mark = retry
  | .activating (.readSubState state) | .activating (.listJobs state _) =>
    mark = retry ∧ (retry || state.isUp || unit.starting) = (retry || unit.wanted)
  | .activating .startUnit | .activating (.stopUnit false) => mark = (retry || unit.wanted)
  | .activating .awaitStart | .activating (.stopUnit true) | .active
  | .deactivating .testMark => mark = wanted

/-- The mark says whether the unit was wanted, and so it was followed in the past. -/
structure Annotated (s : State B) : Prop where
  known : Known s.mark s.retry s.wanted s.unit s.quiesce
  downtimes : ∀ d ∈ s.downtimes, d.restarted = d.wanted

theorem Annotated.unit {s : State B} {status : UnitStatus} (h : Annotated s)
    (he : Steady s (.unit status)) : Annotated { s with unit := status } := by
  refine ⟨?_, h.downtimes⟩
  have hknown := h.known
  rw [Steady] at he
  show Known s.mark s.retry s.wanted status s.quiesce
  cases hq : s.quiesce with
  | inactive => trivial
  | active =>
    rw [hq] at hknown
    exact hknown
  | activating script =>
    rw [hq] at hknown he
    cases script with
    | checkRestart | stopRestart | readState | awaitStart => exact hknown
    | readSubState state | listJobs state autoRestart => exact ⟨hknown.1, he⟩
    | startUnit => exact he
    | stopUnit joined =>
      cases joined with
      | false => exact he
      | true => exact hknown
  | deactivating script =>
    rw [hq] at hknown
    cases script with
    | testMark => exact hknown
    | awaitRestart => trivial

/-- Each step of the stop script knows what the next one needs. -/
theorem Annotated.quiesceStopScript {s : State B} {script : StopScript} (h : Annotated s)
    (hq : s.quiesce = .activating script) (failed : Bool) :
    Annotated (s.quiesceStopScript failed script) := by
  have hknown := h.known
  rw [hq] at hknown
  cases script with
  | checkRestart =>
    refine ⟨?_, h.downtimes⟩
    show (s.mark || _) = _
    rw [show s.mark = false from hknown, Bool.false_or]
    rfl
  | stopRestart => exact ⟨hknown, h.downtimes⟩
  | readState =>
    refine ⟨⟨hknown, ?_⟩, h.downtimes⟩
    show (s.retry || s.unit.state.isUp || s.unit.starting) = (s.retry || s.unit.wanted)
    rw [UnitStatus.wanted, Bool.or_assoc]
  | readSubState state => exact ⟨hknown, h.downtimes⟩
  | listJobs state autoRestart =>
    refine ⟨?_, h.downtimes⟩
    have hmark : (s.mark || state.isUp || s.unit.starting) = (s.retry || s.unit.wanted) := by
      rw [hknown.1]
      exact hknown.2
    rw [State.quiesceStopScript]
    dsimp only
    split_ifs
    · exact hmark
    · exact hmark
  | startUnit => exact ⟨hknown, h.downtimes⟩
  | awaitStart => exact ⟨hknown, h.downtimes⟩
  | stopUnit joined =>
    refine ⟨?_, h.downtimes⟩
    cases joined with
    | false => exact hknown
    | true => exact hknown

/-- Each step of the start script keeps the annotations. -/
theorem Annotated.quiesceStartScript {s : State B} {script : StartScript} (h : Annotated s)
    (hq : s.quiesce = .deactivating script) : Annotated (s.quiesceStartScript script) := by
  have hknown := h.known
  rw [hq] at hknown
  cases script with
  | testMark =>
    have hdowntimes : ∀ d ∈ s.downtimes ++ [{ wanted := s.wanted, restarted := s.mark }],
        d.restarted = d.wanted := by
      intro d hd
      rcases List.mem_append.mp hd with hd | hd
      · exact h.downtimes d hd
      · rw [List.mem_singleton.mp hd]
        exact hknown
    rw [State.quiesceStartScript]
    split_ifs
    · exact ⟨trivial, hdowntimes⟩
    · exact ⟨trivial, hdowntimes⟩
  | awaitRestart =>
    rw [State.quiesceStartScript]
    split_ifs
    · exact h
    · exact ⟨trivial, h.downtimes⟩

/-- The restart unit's script runs only where the unit is not looked at. -/
theorem Annotated.restartScript {s : State B} (h : Annotated s) (hexclusion : Exclusion s)
    (hr : s.restart = .script) :
    Annotated { s with restart := .await, unit := { s.unit with job := some .start } } := by
  refine ⟨?_, h.downtimes⟩
  have hrestart : s.quiesce.excludesRestart = false := by
    by_contra hne
    have hinactive := hexclusion.restart (by simpa using hne)
    rw [hr] at hinactive
    cases hinactive
  have hknown := h.known
  show Known s.mark s.retry s.wanted { s.unit with job := some .start } s.quiesce
  cases hq : s.quiesce with
  | inactive => trivial
  | active => simp [hq, Quiesce.excludesRestart] at hrestart
  | activating script =>
    rw [hq] at hknown hrestart
    cases script with
    | checkRestart | stopRestart => exact hknown
    | readState | readSubState | listJobs | startUnit | awaitStart | stopUnit => cases hrestart
  | deactivating script =>
    rw [hq] at hrestart
    cases script with
    | testMark => cases hrestart
    | awaitRestart => trivial

/-- What the scripts know stays true, as long as nobody crosses them. -/
theorem Annotated.move [DecidableEq B] {s s' : State B} {e : Event B} (h : Annotated s)
    (hexclusion : Exclusion s) (he : Steady s e) (hmove : Move s e s') : Annotated s' := by
  cases hmove with
  | stays => exact h
  | unit status => exact h.unit he
  -- the holds and the restart unit have no part in the mark
  | holdStart | holdActive | holdStop | restart => exact ⟨h.known, h.downtimes⟩
  | quiesceStart => exact ⟨rfl, h.downtimes⟩
  | quiesceFail => exact ⟨trivial, h.downtimes⟩
  | quiesceStop hq hholds =>
    refine ⟨?_, h.downtimes⟩
    have hknown := h.known
    rw [hq] at hknown
    exact hknown
  | quiesceStopScript hq => exact h.quiesceStopScript hq _
  | quiesceStartScript hq => exact h.quiesceStartScript hq
  | restartScript hr => exact h.restartScript hexclusion hr

/-! ## Every run -/

theorem exclusion_init (unit : UnitStatus) : Exclusion ({ unit } : State B) :=
  ⟨fun hne => absurd rfl hne, fun _ => rfl⟩

section Run

variable [DecidableEq B] {s : State B} {unit : UnitStatus}

/-- The exclusion holds in every state reached. -/
theorem exclusion_of_reached {allowed : State B → Event B → Prop}
    (h : Reached step allowed { unit } s) : Exclusion s := by
  refine h.invariant (exclusion_init unit) ?_
  intro s e hs _
  exact hs.move (step_move s e)

/-- In steady runs, the annotations hold in every state reached. -/
theorem annotated_of_steady (h : Reached step Steady { unit } s) : Annotated s := by
  -- the two go together: the scripts leave the unit alone where it is looked at
  have hboth : Exclusion s ∧ Annotated s := by
    refine h.invariant (P := fun s => Exclusion s ∧ Annotated s) ?_ ?_
    · refine ⟨exclusion_init unit, trivial, ?_⟩
      intro d hd
      cases hd
    · rintro s e ⟨hexclusion, hannotated⟩ he
      have hmove := step_move s e
      exact ⟨hexclusion.move hmove, hannotated.move hexclusion he hmove⟩
  exact hboth.2

/-- What comes of a quiesce unit that nothing requires any more. -/
theorem restart_after_release (hexclusion : Exclusion s) (hannotated : Annotated s)
    (hq : s.quiesce = .active) (hstarting : s.starting = ∅) (hholds : s.holds = ∅) :
    (step (step s .quiesceStop) .quiesceStartScript).restart = .script ↔ s.wanted = true := by
  have hrestart : s.restart = .inactive := hexclusion.restart (by rw [hq]; rfl)
  have hmark : s.mark = s.wanted := by
    have hknown := hannotated.known
    rw [hq] at hknown
    exact hknown
  simp only [step, hq, hstarting, hholds, and_self, if_true, State.quiesceStartScript, hmark]
  cases s.wanted with
  | false => simp [hrestart]
  | true => simp

end Run

/-- In every run no script starts the unit under a hold. In every run in which the unit holds
still while it is looked at, it is started again after the last hold exactly if it was wanted. -/
theorem downtime_shared (B : Type) [DecidableEq B] (unit : UnitStatus) :
    (∀ s : State B, Reached step (fun _ _ => True) { unit } s →
        ∀ e, StartsUnit s e → s.holds = ∅) ∧
      ∀ s : State B, Reached step Steady { unit } s →
        (∀ d ∈ s.downtimes, d.restarted = d.wanted) ∧
        (s.quiesce = .active → s.starting = ∅ → s.holds = ∅ →
          ((step (step s .quiesceStop) .quiesceStartScript).restart = .script ↔
            s.wanted = true)) := by
  constructor
  · intro s h e he
    exact (exclusion_of_reached h).not_starts he
  · intro s h
    have hannotated := annotated_of_steady h
    exact ⟨hannotated.downtimes, restart_after_release (exclusion_of_reached h) hannotated⟩

/-! ## Two runs -/

/-- A hold of a first backup, up to the reading of the unit's state. -/
def sampleLook : List (Event Bool) :=
  [.holdStart false, .quiesceStart, .quiesceStopScript false, .quiesceStopScript false,
    .quiesceStopScript false]

/-- The rest of the script, for a unit that is not starting. -/
def sampleStop : List (Event Bool) :=
  [.quiesceStopScript false, .quiesceStopScript false, .quiesceStopScript false]

/-- A second backup comes to read while the first one does. -/
def sampleRead : List (Event Bool) :=
  [.holdActive false, .holdStart true, .holdActive true, .holdStop false, .holdStop true,
    .quiesceStop, .quiesceStartScript]

theorem downtime_shared_running :
    let s := (sampleLook ++ sampleStop ++ sampleRead).foldl step { unit := { state := .active } }
    s.downtimes = [{ wanted := true, restarted := true }] ∧
      ∀ d ∈ s.downtimes, d.restarted = d.wanted := by
  intro s
  have h : Permitted step Steady { unit := { state := .active } }
      (sampleLook ++ sampleStop ++ sampleRead) := by
    decide +kernel
  have hreached : Reached step Steady { unit := { state := .active } } s := h.reached .start
  exact ⟨by decide +kernel, ((downtime_shared Bool { state := .active }).2 s hreached).1⟩

/-- A restart of the unit is under way when its state is read, and over when the jobs are listed:
the unit is up throughout or has a job to be, and is left down. -/
theorem restart_lost :
    let s := (sampleLook ++ [Event.unit { state := .active }] ++ sampleStop ++
      sampleRead).foldl step { unit := { state := .deactivating, job := some .restart } }
    s.downtimes = [{ wanted := true, restarted := false }] ∧ s.unit.state = .inactive ∧
      s.restart = .inactive ∧ s.quiesce = .inactive ∧
      ¬ ∀ d ∈ s.downtimes, d.restarted = d.wanted := by
  intro s
  have hdowntimes : s.downtimes = [{ wanted := true, restarted := false }] := by decide +kernel
  refine ⟨hdowntimes, by decide +kernel, by decide +kernel, by decide +kernel, ?_⟩
  rw [hdowntimes]
  decide

end HostServices.Scripts.Restic
