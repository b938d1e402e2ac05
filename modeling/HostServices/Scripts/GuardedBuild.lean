import HostServices.Lib.Runs
import HostServices.Lib.Shell

/-!
# The disk guard of the upgrade (`modules/auto-upgrade.nix`)

`guarded_build` builds one derivation. It starts the build and `disk_watchdog` beside it, waits
for the build, kills the watchdog and waits for that too. The watchdog samples the free space
and, below the floor, first says so in the guard file and then terminates the build. A guard
file with something in it makes `guarded_build` delete the outputs and fail.

- `State.parentStep`, `State.watchdogStep`, `State.buildStep`: the three processes, command by
  command;
- `Annotated`: what is known where the parent stands, whatever the other two do;
- `Sound`: what `guarded_build` is to do about a build that was finished, and one that was not;
- `guardedBuild_sound`: it does, in every run in which the watchdog and a build that succeeds do
  not cross.

A run is any list of steps of the three. A process that has to wait takes steps that change
nothing.
-/

namespace HostServices.Scripts.GuardedBuild

open HostServices.Lib

/-! ## The disk -/

/-- `free_bytes`, from what the pipeline around `df` puts out, or that it fails. -/
def freeBytes (df : Option (List UInt8)) : Option Nat :=
  df.bind fun out => if Shell.isNumeric out then some (Shell.value 10 out) else none

/-- After so many failed reads in a row the watchdog gives up. -/
def maxReadFailures : Nat := 3

/-- A store path. -/
abbrev Path := String

/-- What a guarded build is started with. -/
structure Config where
  minFree : Nat
  /-- the derivation's name, without its `.drv` -/
  name : String
  /-- what `nix-store --query --outputs` says of the derivation -/
  outputs : List Path

/-- Why the watchdog terminates the build. -/
inductive Trip
  | unreadable (failures : Nat)
  | below (avail : Nat)
  deriving DecidableEq, Repr

/-- What it prints into the guard file. -/
def Trip.message (c : Config) : Trip → String
  | .unreadable failures =>
    "auto-upgrade: disk guard: available space unreadable " ++ toString failures ++
      " times in a row while building " ++ c.name ++
      "; terminating the upgrade rather than building on unguarded\n"
  | .below avail =>
    "auto-upgrade: disk guard: " ++ toString avail ++ " bytes available while building " ++
      c.name ++ ", below " ++ toString c.minFree ++ "; terminating the upgrade\n"

/-- A trip always writes something. -/
theorem Trip.message_ne (c : Config) (trip : Trip) : trip.message c ≠ "" := by
  intro h
  cases trip with
  | unreadable failures => exact absurd (String.append_eq_empty_iff.mp h).2 (by decide)
  | below avail => exact absurd (String.append_eq_empty_iff.mp h).2 (by decide)

/-! ## The processes -/

/-- Where the build process stands. -/
inductive Build
  | notStarted
  | running
  | exited (status : Nat)
  deriving DecidableEq, Repr

/-- Where the watchdog stands, with its count of failed readings. -/
inductive Watchdog
  | notStarted
  /-- before `kill -0` -/
  | test (failures : Nat)
  | sleep (failures : Nat)
  | sample (failures : Nat)
  /-- before it prints into the guard file -/
  | report (trip : Trip)
  /-- before `kill -TERM` -/
  | terminate
  | ended
  deriving DecidableEq, Repr

/-- Where `guarded_build` stands, with the build's exit status once it has it. -/
inductive Parent
  | precheck
  | truncate
  | startBuild
  | startWatchdog
  | waitBuild
  | killWatchdog (rc : Nat)
  | waitWatchdog (rc : Nat)
  | inspect (rc : Nat)
  | query
  /-- before the rest of the outputs -/
  | reclaim (outs : List Path)
  | returned (rc : Nat)
  deriving DecidableEq, Repr

/-- The script, its watchdog, the build and the store. -/
structure State where
  parent : Parent := .precheck
  build : Build := .notStarted
  watchdog : Watchdog := .notStarted
  /-- the content of the guard file, at first what an earlier build left there -/
  guard : String
  /-- the outputs that are there -/
  store : List Path := []
  /-- the watchdog has reported -/
  tripped : Bool := false
  /-- what `nix-store --delete` was applied to -/
  deleted : List Path := []
  deriving DecidableEq, Repr

/-- `guarded_build`, up to its next step, with a reading of the disk and whether the store
answers the query for the outputs. -/
def State.parentStep (c : Config) (s : State) (df : Option (List UInt8)) (answers : Bool) :
    State :=
  match s.parent with
  | .precheck =>
    match freeBytes df with
    | none => { s with parent := .returned 1 }
    | some avail => { s with parent := if avail < c.minFree then .returned 1 else .truncate }
  | .truncate => { s with guard := "", parent := .startBuild }
  | .startBuild => { s with build := .running, parent := .startWatchdog }
  | .startWatchdog => { s with watchdog := .test 0, parent := .waitBuild }
  | .waitBuild =>
    match s.build with
    | .exited rc => { s with parent := .killWatchdog rc }
    | _ => s
  -- the signal may be late: the watchdog dies in a step of its own
  | .killWatchdog rc => { s with parent := .waitWatchdog rc }
  | .waitWatchdog rc => if s.watchdog = .ended then { s with parent := .inspect rc } else s
  | .inspect rc => { s with parent := if s.guard = "" then .returned rc else .query }
  | .query => { s with parent := .reclaim (if answers then c.outputs else []) }
  | .reclaim [] => { s with parent := .returned 1 }
  | .reclaim (o :: outs) =>
    if o ∈ s.store then
      -- no root keeps the output, so that it is deleted
      { s with
        parent := .reclaim outs
        deleted := s.deleted ++ [o]
        store := s.store.filter (· ≠ o) }
    else { s with parent := .reclaim outs }
  | .returned _ => s

/-- What the watchdog finds. -/
structure Look where
  /-- `kill -0` finds a build that has exited: it was not waited for yet -/
  lingers : Bool := false
  df : Option (List UInt8) := none
  /-- the guard file can be written; otherwise the watchdog ends there -/
  writable : Bool := true

/-- `disk_watchdog`, up to its next step. -/
def State.watchdogStep (c : Config) (s : State) (look : Look) : State :=
  match s.watchdog with
  | .notStarted => s
  | .test failures =>
    if s.build = .running ∨ look.lingers then { s with watchdog := .sleep failures }
    else { s with watchdog := .ended }
  | .sleep failures => { s with watchdog := .sample failures }
  | .sample failures =>
    match freeBytes look.df with
    | none =>
      if failures + 1 < maxReadFailures then { s with watchdog := .test (failures + 1) }
      else { s with watchdog := .report (.unreadable (failures + 1)) }
    | some avail =>
      if avail < c.minFree then { s with watchdog := .report (.below avail) }
      else { s with watchdog := .test 0 }
  | .report trip =>
    if look.writable then
      { s with guard := trip.message c, tripped := true, watchdog := .terminate }
    else { s with watchdog := .ended }
  -- the build may end at any time and with any status, so that the signal adds nothing
  | .terminate => { s with watchdog := .ended }
  | .ended => s

/-- The watchdog dies: by the parent's signal, or by anything else. -/
def State.watchdogDies (s : State) : State :=
  if s.watchdog = .notStarted then s else { s with watchdog := .ended }

/-- The build exits. All outputs are there if it succeeds, and some of them may be if not. -/
def State.buildStep (c : Config) (s : State) (status : Nat) (left : List Path) : State :=
  if s.build = .running then
    { s with build := .exited status, store := if status = 0 then c.outputs else left }
  else s

/-- What takes the next step, and what it sees of the disk. -/
inductive Event
  | parent (df : Option (List UInt8)) (answers : Bool)
  | watchdog (look : Look)
  | watchdogDies
  | build (status : Nat) (left : List Path)

/-- One step of whoever takes it. -/
def step (c : Config) (s : State) : Event → State
  | .parent df answers => s.parentStep c df answers
  | .watchdog look => s.watchdogStep c look
  | .watchdogDies => s.watchdogDies
  | .build status left => s.buildStep c status left

/-! ## What is to hold -/

/-- No success is returned that is none. -/
structure Honest (s : State) : Prop where
  zero : s.parent = .returned 0 → s.build = .exited 0 ∧ s.tripped = false
  fails : ∀ rc, s.parent = .returned rc → s.tripped = true → rc ≠ 0

/-- The report is honest, and no finished work is destroyed. -/
structure Sound (s : State) : Prop extends Honest s where
  deletes : s.deleted ≠ [] → s.build ≠ .exited 0

/-- The watchdog does not report once the build has succeeded, and the build does not succeed
once the watchdog has reported. -/
def InTime (s : State) : Event → Prop
  | .parent _ _ | .watchdogDies => True
  | .watchdog look =>
    match s.watchdog with
    | .report _ => look.writable = true → s.build ≠ .exited 0
    | _ => True
  | .build status _ => s.build = .running → status = 0 → s.tripped = false

instance decidableInTime (s : State) : (e : Event) → Decidable (InTime s e)
  | .parent _ _ | .watchdogDies => .isTrue trivial
  | .watchdog look =>
    match h : s.watchdog with
    | .report _ =>
      decidable_of_iff (look.writable = true → s.build ≠ .exited 0) (by simp [InTime, h])
    | .notStarted | .test _ | .sleep _ | .sample _ | .terminate | .ended =>
      .isTrue (by simp [InTime, h])
  | .build status _ =>
    inferInstanceAs (Decidable (s.build = .running → status = 0 → s.tripped = false))

/-! ## What the parent knows -/

/-- The parent has not started the watchdog, so nothing was reported. -/
structure Quiet (s : State) : Prop where
  watchdog : s.watchdog = .notStarted
  tripped : s.tripped = false
  deleted : s.deleted = []

/-- The guard file tells whether the watchdog has reported. -/
structure Told (s : State) : Prop where
  watchdog : s.watchdog ≠ .notStarted
  guard : s.guard ≠ "" ↔ s.tripped = true

/-- The watchdog is gone, and what it reported is final. -/
structure Settled (s : State) : Prop where
  watchdog : s.watchdog = .ended
  guard : s.guard ≠ "" ↔ s.tripped = true

/-- What is known where the parent stands. -/
def Known (s : State) : Parent → Prop
  | .precheck | .truncate => Quiet s ∧ s.build = .notStarted
  | .startBuild => Quiet s ∧ s.build = .notStarted ∧ s.guard = ""
  | .startWatchdog => Quiet s ∧ s.guard = ""
  | .waitBuild => Told s ∧ s.deleted = []
  | .killWatchdog rc | .waitWatchdog rc => Told s ∧ s.deleted = [] ∧ s.build = .exited rc
  | .inspect rc => Settled s ∧ s.deleted = [] ∧ s.build = .exited rc
  | .query | .reclaim _ => Settled s ∧ s.tripped = true
  | .returned rc =>
    Quiet s ∧ rc = 1 ∨ Settled s ∧ s.tripped = true ∧ rc = 1 ∨
      Settled s ∧ s.tripped = false ∧ s.deleted = [] ∧ s.build = .exited rc

/-- What is known wherever the script stands. -/
def Annotated (s : State) : Prop := Known s s.parent

/-- What a step of the watchdog can be. -/
inductive WatchdogMove (c : Config) (s : State) : State → Prop
  | stays : WatchdogMove c s s
  | moves {w : Watchdog} (hstarted : s.watchdog ≠ .notStarted) (hw : w ≠ .notStarted)
      (hended : s.watchdog = .ended → w = .ended) : WatchdogMove c s { s with watchdog := w }
  | reports {trip : Trip} (h : s.watchdog = .report trip) :
      WatchdogMove c s
        { s with guard := trip.message c, tripped := true, watchdog := .terminate }

/-- What a look of the watchdog can do. -/
theorem watchdogStep_move (c : Config) (s : State) (look : Look) :
    WatchdogMove c s (s.watchdogStep c look) := by
  -- a watchdog at work goes on to some other position
  have moves {w w' : Watchdog} (hs : s.watchdog = w) (hw : w ≠ .notStarted ∧ w ≠ .ended)
      (hw' : w' ≠ .notStarted) : WatchdogMove c s { s with watchdog := w' } := by
    refine .moves (hs ▸ hw.1) hw' ?_
    intro hended
    exact absurd (hs.symm.trans hended) hw.2
  rw [State.watchdogStep]
  cases hs : s.watchdog with
  | notStarted | ended => exact .stays
  | sleep failures => exact moves hs (by simp) (by simp)
  | terminate => exact moves hs (by simp) (by simp)
  | test failures =>
    dsimp only
    split_ifs
    · exact moves hs (by simp) (by simp)
    · exact moves hs (by simp) (by simp)
  | sample failures =>
    dsimp only
    cases freeBytes look.df with
    | none =>
      dsimp only
      split_ifs
      · exact moves hs (by simp) (by simp)
      · exact moves hs (by simp) (by simp)
    | some avail =>
      dsimp only
      split_ifs
      · exact moves hs (by simp) (by simp)
      · exact moves hs (by simp) (by simp)
  | report trip =>
    dsimp only
    split_ifs
    · exact .reports hs
    · exact moves hs (by simp) (by simp)

/-- What its end can do. -/
theorem watchdogDies_move (c : Config) (s : State) : WatchdogMove c s s.watchdogDies := by
  rw [State.watchdogDies]
  split_ifs with h
  · exact .stays
  · exact .moves h (by simp) fun _ => rfl

section Move

variable {c : Config} {s s' : State} {p : Parent}

/-- A watchdog that is not started, or has ended, does nothing. -/
theorem WatchdogMove.eq_of_idle (hmove : WatchdogMove c s s')
    (h : s.watchdog = .notStarted ∨ s.watchdog = .ended) : s' = s := by
  cases hmove with
  | stays => rfl
  | moves hstarted hw hended =>
    have hs := h.resolve_left hstarted
    rw [hended hs, ← hs]
  | reports htrip => simp [htrip] at h

theorem WatchdogMove.parent_eq (hmove : WatchdogMove c s s') : s'.parent = s.parent := by
  cases hmove <;> rfl

theorem WatchdogMove.build_eq (hmove : WatchdogMove c s s') : s'.build = s.build := by
  cases hmove <;> rfl

theorem WatchdogMove.deleted_eq (hmove : WatchdogMove c s s') : s'.deleted = s.deleted := by
  cases hmove <;> rfl

/-- No move of the watchdog makes the guard file lie. -/
theorem Told.move (h : Told s) (hmove : WatchdogMove c s s') : Told s' := by
  cases hmove with
  | stays => exact h
  | moves _ hw _ => exact ⟨hw, h.guard⟩
  | reports htrip =>
    refine ⟨by simp, ?_⟩
    constructor
    · intro _
      rfl
    · intro _
      exact Trip.message_ne c _

/-- What the script knows stays true while the watchdog moves. -/
theorem Known.move (h : Known s p) (hmove : WatchdogMove c s s') : Known s' p := by
  by_cases hidle : s.watchdog = .notStarted ∨ s.watchdog = .ended
  · rw [hmove.eq_of_idle hidle]
    exact h
  · rw [not_or] at hidle
    cases p with
    | waitBuild => exact ⟨h.1.move hmove, hmove.deleted_eq.trans h.2⟩
    | killWatchdog rc | waitWatchdog rc =>
      exact ⟨h.1.move hmove, hmove.deleted_eq.trans h.2.1, hmove.build_eq.trans h.2.2⟩
    -- everywhere else the watchdog is not started, or has ended
    | precheck | truncate | startBuild | startWatchdog => exact absurd h.1.watchdog hidle.1
    | inspect | query | reclaim => exact absurd h.1.watchdog hidle.2
    | returned rc =>
      rcases h with h | h | h
      · exact absurd h.1.watchdog hidle.1
      · exact absurd h.1.watchdog hidle.2
      · exact absurd h.1.watchdog hidle.2

/-- What is known holds on when the build ends. -/
theorem Known.buildStep (h : Known s p) (status : Nat) (left : List Path) :
    Known (s.buildStep c status left) p := by
  by_cases hrunning : s.build = .running
  · -- where the build's state is known, it is not running
    rw [State.buildStep, if_pos hrunning]
    have hstarted : s.build ≠ .notStarted := by simp [hrunning]
    have hexited (rc : Nat) : s.build ≠ .exited rc := by simp [hrunning]
    cases p with
    | precheck | truncate => exact absurd h.2 hstarted
    | startBuild => exact absurd h.2.1 hstarted
    | startWatchdog => exact ⟨⟨h.1.watchdog, h.1.tripped, h.1.deleted⟩, h.2⟩
    | waitBuild => exact ⟨⟨h.1.watchdog, h.1.guard⟩, h.2⟩
    | killWatchdog rc | waitWatchdog rc | inspect rc => exact absurd h.2.2 (hexited rc)
    | query | reclaim => exact ⟨⟨h.1.watchdog, h.1.guard⟩, h.2⟩
    | returned rc =>
      rcases h with ⟨hquiet, hrc⟩ | ⟨hsettled, htripped, hrc⟩ | h
      · exact .inl ⟨⟨hquiet.watchdog, hquiet.tripped, hquiet.deleted⟩, hrc⟩
      · exact .inr (.inl ⟨⟨hsettled.watchdog, hsettled.guard⟩, htripped, hrc⟩)
      · exact absurd h.2.2.2 (hexited rc)
  · rw [State.buildStep, if_neg hrunning]
    exact h

end Move

/-! ## Every run -/

section Run

variable {c : Config} {s : State}

/-- A step of the script knows what the next one needs. -/
theorem Annotated.parentStep (h : Annotated s) (df : Option (List UInt8)) (answers : Bool) :
    Annotated (s.parentStep c df answers) := by
  rw [Annotated] at h
  rw [State.parentStep]
  cases hp : s.parent with
  | precheck =>
    rw [hp] at h
    obtain ⟨hquiet, hbuild⟩ := h
    have hreturned : Annotated { s with parent := .returned 1 } :=
      .inl ⟨⟨hquiet.watchdog, hquiet.tripped, hquiet.deleted⟩, rfl⟩
    cases freeBytes df with
    | none => exact hreturned
    | some avail =>
      dsimp only
      split_ifs
      · exact hreturned
      · exact ⟨⟨hquiet.watchdog, hquiet.tripped, hquiet.deleted⟩, hbuild⟩
  | truncate =>
    rw [hp] at h
    exact ⟨⟨h.1.watchdog, h.1.tripped, h.1.deleted⟩, h.2, rfl⟩
  | startBuild =>
    rw [hp] at h
    exact ⟨⟨h.1.watchdog, h.1.tripped, h.1.deleted⟩, h.2.2⟩
  | startWatchdog =>
    rw [hp] at h
    refine ⟨⟨by simp, ?_⟩, h.1.deleted⟩
    simp [h.2, h.1.tripped]
  | waitBuild =>
    rw [hp] at h
    dsimp only
    cases hbuild : s.build with
    | exited rc => exact ⟨⟨h.1.watchdog, h.1.guard⟩, h.2, rfl⟩
    | notStarted | running =>
      dsimp only
      rw [Annotated, hp]
      exact h
  | killWatchdog rc =>
    rw [hp] at h
    exact ⟨⟨h.1.watchdog, h.1.guard⟩, h.2⟩
  | waitWatchdog rc =>
    rw [hp] at h
    dsimp only
    split_ifs with hended
    · exact ⟨⟨hended, h.1.guard⟩, h.2⟩
    · rw [Annotated, hp]
      exact h
  | inspect rc =>
    rw [hp] at h
    obtain ⟨hsettled, hdeleted, hbuild⟩ := h
    have hsettled' (p : Parent) : Settled { s with parent := p } :=
      ⟨hsettled.watchdog, hsettled.guard⟩
    dsimp only
    split_ifs with hguard
    · have htripped : s.tripped = false := by
        simpa [hguard] using hsettled.guard
      exact .inr (.inr ⟨hsettled' _, htripped, hdeleted, hbuild⟩)
    · exact ⟨hsettled' _, hsettled.guard.mp hguard⟩
  | query =>
    rw [hp] at h
    exact ⟨⟨h.1.watchdog, h.1.guard⟩, h.2⟩
  | reclaim outs =>
    rw [hp] at h
    cases outs with
    | nil => exact .inr (.inl ⟨⟨h.1.watchdog, h.1.guard⟩, h.2, rfl⟩)
    | cons o outs =>
      dsimp only
      split_ifs
      · exact ⟨⟨h.1.watchdog, h.1.guard⟩, h.2⟩
      · exact ⟨⟨h.1.watchdog, h.1.guard⟩, h.2⟩
  | returned rc =>
    dsimp only
    rw [Annotated, hp]
    rw [hp] at h
    exact h

/-- **What is known wherever the script stands, whoever moves.** -/
theorem Annotated.step (h : Annotated s) (e : Event) : Annotated (step c s e) := by
  have watchdog {s' : State} (hmove : WatchdogMove c s s') : Annotated s' := by
    rw [Annotated, hmove.parent_eq]
    exact Known.move h hmove
  cases e with
  | parent df answers => exact h.parentStep df answers
  | watchdog look => exact watchdog (watchdogStep_move c s look)
  | watchdogDies => exact watchdog (watchdogDies_move c s)
  | build status left =>
    have hparent : (s.buildStep c status left).parent = s.parent := by
      rw [State.buildStep]
      split_ifs <;> rfl
    show Known (s.buildStep c status left) (s.buildStep c status left).parent
    rw [hparent]
    exact Known.buildStep h status left

/-- Outputs are deleted only after the watchdog has reported. -/
theorem Annotated.tripped (h : Annotated s) (hdeleted : s.deleted ≠ []) : s.tripped = true := by
  rw [Annotated] at h
  cases hp : s.parent with
  | precheck | truncate | startBuild | startWatchdog =>
    rw [hp] at h
    exact absurd h.1.deleted hdeleted
  | waitBuild =>
    rw [hp] at h
    exact absurd h.2 hdeleted
  | killWatchdog rc | waitWatchdog rc | inspect rc =>
    rw [hp] at h
    exact absurd h.2.1 hdeleted
  | query | reclaim outs =>
    rw [hp] at h
    exact h.2
  | returned rc =>
    rw [hp] at h
    rcases h with h | h | h
    · exact absurd h.1.deleted hdeleted
    · exact h.2.1
    · exact absurd h.2.2.1 hdeleted

/-- What the parent makes of the build and the watchdog, when it returns. -/
theorem Annotated.returned {rc : Nat} (h : Annotated s) (hp : s.parent = .returned rc) :
    s.tripped = true ∧ rc = 1 ∨ s.tripped = false ∧ (rc = 1 ∨ s.build = .exited rc) := by
  rw [Annotated, hp] at h
  rcases h with ⟨hquiet, hrc⟩ | ⟨_, htripped, hrc⟩ | ⟨_, htripped, _, hbuild⟩
  · exact .inr ⟨hquiet.tripped, .inl hrc⟩
  · exact .inl ⟨htripped, hrc⟩
  · exact .inr ⟨htripped, .inr hbuild⟩

/-- The watchdog and a build that succeeds have not crossed. -/
def Uncrossed (s : State) : Prop := s.build = .exited 0 → s.tripped = false

/-- The parent starts the build and otherwise leaves it, and the watchdog's report, alone. -/
theorem parentStep_frame (c : Config) (s : State) (df : Option (List UInt8)) (answers : Bool) :
    (s.parentStep c df answers).tripped = s.tripped ∧
      ((s.parentStep c df answers).build = s.build ∨
        (s.parentStep c df answers).build = .running) := by
  rw [State.parentStep]
  cases s.parent with
  | startBuild => exact ⟨rfl, .inr rfl⟩
  | precheck => cases freeBytes df <;> exact ⟨rfl, .inl rfl⟩
  | waitBuild =>
    dsimp only
    split <;> exact ⟨rfl, .inl rfl⟩
  | waitWatchdog rc =>
    dsimp only
    split_ifs <;> exact ⟨rfl, .inl rfl⟩
  | reclaim outs =>
    cases outs with
    | nil => exact ⟨rfl, .inl rfl⟩
    | cons o outs =>
      dsimp only
      split_ifs <;> exact ⟨rfl, .inl rfl⟩
  | truncate | startWatchdog | killWatchdog | inspect | query | returned =>
    exact ⟨rfl, .inl rfl⟩

/-- A report that is not in time is the only way to trip after the build has succeeded. -/
theorem watchdogStep_tripped {look : Look} (he : InTime s (.watchdog look))
    (hbuild : s.build = .exited 0) : (s.watchdogStep c look).tripped = s.tripped := by
  rw [State.watchdogStep]
  cases hs : s.watchdog with
  | report trip =>
    rw [InTime, hs] at he
    have hwritable : look.writable = false := by
      by_contra h
      exact he (by simpa using h) hbuild
    simp [hwritable]
  | sample failures =>
    dsimp only
    cases freeBytes look.df with
    | none =>
      dsimp only
      split_ifs <;> rfl
    | some avail =>
      dsimp only
      split_ifs <;> rfl
  | test failures =>
    dsimp only
    split_ifs <;> rfl
  | notStarted | sleep | terminate | ended => rfl

/-- A build that ends in time crosses no trip. -/
theorem Uncrossed.step (h : Uncrossed s) {e : Event} (he : InTime s e) :
    Uncrossed (step c s e) := by
  intro hsucceeded
  cases e with
  | parent df answers =>
    obtain ⟨htripped, hbuild | hbuild⟩ := parentStep_frame c s df answers
    · exact htripped.trans (h (hbuild.symm.trans hsucceeded))
    · exact absurd (hbuild.symm.trans hsucceeded) (by simp)
  | watchdog look =>
    have hbuild : s.build = .exited 0 := (watchdogStep_move c s look).build_eq.symm.trans hsucceeded
    exact (watchdogStep_tripped he hbuild).trans (h hbuild)
  | watchdogDies =>
    have hbuild : s.build = .exited 0 := (watchdogDies_move c s).build_eq.symm.trans hsucceeded
    have htripped : s.watchdogDies.tripped = s.tripped := by
      rw [State.watchdogDies]
      split_ifs <;> rfl
    exact htripped.trans (h hbuild)
  | build status left =>
    rw [GuardedBuild.step, State.buildStep] at hsucceeded ⊢
    by_cases hrunning : s.build = .running
    · rw [if_pos hrunning] at hsucceeded ⊢
      exact he hrunning (Build.exited.inj hsucceeded)
    · rw [if_neg hrunning] at hsucceeded ⊢
      exact h hsucceeded

/-- What the script returns is so. -/
theorem Annotated.honest (h : Annotated s) : Honest s := by
  constructor
  · intro hp
    rcases h.returned hp with ⟨_, hrc⟩ | ⟨htripped, hrc | hbuild⟩
    · cases hrc
    · cases hrc
    · exact ⟨hbuild, htripped⟩
  · intro rc hp htripped
    rcases h.returned hp with ⟨_, hrc⟩ | ⟨hquiet, _⟩
    · rw [hrc]
      exact Nat.one_ne_zero
    · rw [htripped] at hquiet
      cases hquiet

/-- Every state reached is annotated. -/
theorem annotated_of_reached {allowed : State → Event → Prop} {guard : String}
    (h : Reached (GuardedBuild.step c) allowed { guard } s) : Annotated s := by
  refine h.invariant ⟨⟨rfl, rfl, rfl⟩, rfl⟩ ?_
  intro s e hs _
  exact hs.step e

/-- Where builds end in time, a success and the watchdog's report do not cross. -/
theorem uncrossed_of_reached {guard : String}
    (h : Reached (GuardedBuild.step c) InTime { guard } s) : Uncrossed s := by
  refine h.invariant (fun _ => rfl) ?_
  intro s e hs he
  exact hs.step he

/-- In every run `guarded_build` tells success from failure. In every run in which the watchdog
and a build that succeeds do not cross, it also deletes nothing that was built. -/
theorem guardedBuild_sound (c : Config) (guard : String) :
    (∀ s, Reached (GuardedBuild.step c) (fun _ _ => True) { guard } s → Honest s) ∧
      ∀ s, Reached (GuardedBuild.step c) InTime { guard } s → Sound s := by
  constructor
  · intro s h
    exact (annotated_of_reached h).honest
  · intro s h
    have hannotated := annotated_of_reached h
    refine ⟨hannotated.honest, ?_⟩
    intro hdeleted hbuild
    have htripped := hannotated.tripped hdeleted
    rw [uncrossed_of_reached h hbuild] at htripped
    cases htripped

end Run

/-! ## Two runs -/

/-- A derivation with one output, to be built with a megabyte to spare. -/
def sampleConfig : Config where
  minFree := 1000000
  name := "linux-6.18.42"
  outputs := ["/nix/store/linux-6.18.42"]

/-- A build is started with enough space. -/
def sampleStart : List Event :=
  [.parent (some (Shell.decimal 2000000)) true, .parent none true, .parent none true,
    .parent none true]

/-- The watchdog finds the build running and sleeps, and finds too little space. -/
def sampleSleep : List Event := [.watchdog {}, .watchdog {}]

/-- The disk is full at the watchdog's first look. -/
def sampleTrip : List Event :=
  [.watchdog { df := some (Shell.decimal 999999) }, .watchdog {}, .watchdog {}]

/-- The parent goes on for as long as there is something to do for it. -/
def sampleReturn : List Event := List.replicate 7 (.parent none true)

/-- The build exits while the watchdog sleeps: its output is built, and deleted. -/
theorem finished_build_deleted :
    let s := (sampleStart ++ sampleSleep ++ [Event.build 0 []] ++ sampleTrip ++ sampleReturn).foldl
      (step sampleConfig) { guard := "" }
    s.parent = .returned 1 ∧ s.build = .exited 0 ∧ s.deleted = sampleConfig.outputs ∧
      s.store = [] ∧ ¬ Sound s := by
  intro s
  have hs : s.build = .exited 0 ∧ s.deleted = sampleConfig.outputs := by decide +kernel
  refine ⟨by decide +kernel, hs.1, hs.2, by decide +kernel, ?_⟩
  intro hsound
  exact hsound.deletes (by rw [hs.2]; decide) hs.1

/-- A build that is terminated in time: what it left is deleted. -/
theorem interrupted_build_deleted :
    let s := (sampleStart ++ sampleSleep ++ sampleTrip ++ [Event.build 1 sampleConfig.outputs] ++
      sampleReturn).foldl (step sampleConfig) { guard := "" }
    s.parent = .returned 1 ∧ s.deleted = sampleConfig.outputs ∧ Sound s := by
  intro s
  have h : Permitted (step sampleConfig) InTime { guard := "" } (sampleStart ++ sampleSleep ++
      sampleTrip ++ [Event.build 1 sampleConfig.outputs] ++ sampleReturn) := by
    decide +kernel
  refine ⟨by decide +kernel, by decide +kernel, ?_⟩
  exact (guardedBuild_sound sampleConfig "").2 s (h.reached .start)

end HostServices.Scripts.GuardedBuild
