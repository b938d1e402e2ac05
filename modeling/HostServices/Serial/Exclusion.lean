import HostServices.Lib.Runs
import HostServices.Lib.Sessions
import Mathlib.Data.Finset.Erase
import Mathlib.Data.Finset.Insert
import Mathlib.Logic.Function.Basic

/-!
# Several producers and one serial device (`port.rs` of `inverter-monitoring` and `bms-monitoring`)

Both programs look through the same devices, and both start at boot. `SerialPort::open` is the
same function in both: it asks the kernel for an exclusive lock before it does anything that
the reader of the device would notice. Here any number of processes make these calls one at a
time, in any order, next to programs that do not lock, which do to the line what they like once
they have it open; each may be killed at any time, and any call may fail.

- `Stage.next`: the source's function, one call at a time;
- `Device`, `step`: the kernel's side of it, and a system of processes;
- `Inv`, `Called`: the invariant, and what a call can do;
- `one_user_at_a_time`, `race_has_one_winner`: no producer disturbs another's session, and of
  those who race for a device one gets it.
-/

namespace HostServices.Serial

open HostServices.Lib

/-! ## `SerialPort::open` -/

/-- Why a system call failed, as far as the program tells. -/
inductive Errno
  | busy
  | wouldBlock
  | other (text : String)
  deriving DecidableEq, Repr

/-- `Opened`: what an attempt without an error comes to. -/
inductive Opened
  | port
  | busy
  deriving DecidableEq, Repr

/-- What an attempt to open a port asks for next. -/
inductive Stage
  | openat | flock | tiocexcl | tcgetattr | setSpeed | tcsetattr | setfl
  deriving DecidableEq, Repr

/-- `SerialPort::open`: what it makes of the answer, to return or to go on. -/
def Stage.next : Stage → Except Errno Unit → Except Errno Opened ⊕ Stage
  | .openat, .ok () => .inr .flock
  -- another producer has set `TIOCEXCL` already
  | .openat, .error .busy => .inl (.ok .busy)
  -- `try_lock_exclusive`
  | .flock, .ok () => .inr .tiocexcl
  | .flock, .error .wouldBlock => .inl (.ok .busy)
  | .tiocexcl, .ok () => .inr .tcgetattr
  | .tcgetattr, .ok () => .inr .setSpeed
  | .setSpeed, .ok () => .inr .tcsetattr
  | .tcsetattr, .ok () => .inr .setfl
  | .setfl, .ok () => .inl (.ok .port)
  | _, .error e => .inl (.error e)

/-- What the line shows: its settings, its one input queue, and what is sent on it. -/
inductive LineOp
  | configure | flush | read | write
  deriving DecidableEq, Repr

/-- What a process runs. -/
inductive Program
  | inverter | bms
  /-- anything that opens the device without a lock -/
  | other
  deriving DecidableEq, Repr

/-- A producer of measurements, which asks for the lock. -/
def Program.locks : Program → Bool
  | .inverter | .bms => true
  | .other => false

/-- What a program does with the line it has open: `write_request` flushes the input and
writes, `read_some` reads. The BMS is only read. Of a program that does not lock nothing is
known. -/
def Program.uses : Program → LineOp → Bool
  | .inverter, .configure => false
  | .inverter, _ => true
  | .bms, .read => true
  | .bms, _ => false
  | .other, _ => true

/-! ## The device -/

/-- What the kernel keeps for a device: who has it open, who has the `flock`, and whether
`TIOCEXCL` is set. -/
structure Device (P : Type) where
  openers : Finset P := ∅
  lock : Option P := none
  exclusive : Bool := false

section Device

variable {P : Type} [DecidableEq P]

/-- The kernel's answer. With `TIOCEXCL` set only the privileged may open; the lock is not
waited for; a call may also fail for a reason of its own. -/
def Device.call (privileged : P → Bool) (d : Device P) (p : P) :
    Stage → Option String → Except Errno Unit × Device P
  | _, some text => (.error (.other text), d)
  | .openat, none =>
    if d.exclusive ∧ ¬ privileged p then (.error .busy, d)
    else (.ok (), { d with openers := insert p d.openers })
  | .flock, none =>
    if d.lock = none ∨ d.lock = some p then (.ok (), { d with lock := some p })
    else (.error .wouldBlock, d)
  | .tiocexcl, none => (.ok (), { d with exclusive := true })
  | .tcgetattr, none | .setSpeed, none | .tcsetattr, none | .setfl, none => (.ok (), d)

/-- What is left when a process is done with its file, however that comes: its lock goes with
it, and `TIOCEXCL` with the last file. -/
def Device.close (d : Device P) (p : P) : Device P :=
  let openers := d.openers.erase p
  { openers
    lock := if d.lock = some p then none else d.lock
    exclusive := d.exclusive && openers ≠ ∅ }

end Device

/-! ## The system -/

/-- Where a process stands with the device. -/
inductive Phase
  | idle
  | attempt (stage : Stage)
  /-- a `SerialPort` is in hand -/
  | holding
  /-- the device is open without a lock -/
  | beside
  deriving DecidableEq, Repr

/-- What is noted of a step. -/
inductive Entry (P : Type)
  | began (p : P)
  | use (u : Use P LineOp)
  | returned (p : P) (result : Except Errno Opened)
  deriving DecidableEq

/-- The use of the line that was noted. -/
def Entry.use? {P : Type} : Entry P → Option (Use P LineOp)
  | .use u => some u
  | .began _ | .returned _ _ => none

/-- What was done to the device: locked, touched and closed. -/
def uses {P : Type} (log : List (Entry P)) : List (Use P LineOp) := log.filterMap Entry.use?

theorem uses_append {P : Type} (log log' : List (Entry P)) :
    uses (log ++ log') = uses log ++ uses log' :=
  List.filterMap_append

/-- The processes, the device and what has happened. -/
structure System (P : Type) where
  phase : P → Phase := fun _ => .idle
  device : Device P := {}
  log : List (Entry P) := []

/-- What a process does next. -/
inductive Event (P : Type)
  /-- `SerialPort::open` is called -/
  | begin (p : P)
  /-- the next call of it, which may fail for a reason of its own -/
  | call (p : P) (failure : Option String)
  /-- the port is used -/
  | touch (p : P) (op : LineOp)
  /-- a program opens the device without a lock -/
  | join (p : P)
  /-- the port is dropped, or the process is killed -/
  | close (p : P)

section System

variable {P : Type} [DecidableEq P]

/-- Something more has happened. -/
def System.note (s : System P) (entries : List (Entry P)) : System P :=
  { s with log := s.log ++ entries }

/-- A process goes on to another phase. -/
def System.enter (s : System P) (p : P) (phase : Phase) : System P :=
  { s with phase := Function.update s.phase p phase }

/-- A process closes what it has open, by itself or by being killed. -/
def System.leave (s : System P) (p : P) : System P :=
  { phase := Function.update s.phase p .idle
    device := s.device.close p
    log := s.log ++ [.use (.leave p)] }

/-- What a call does to the device, as far as another reader is concerned. -/
def Stage.entries (p : P) : Stage → Except Errno Unit → List (Entry P)
  | .flock, .ok () => [.use (.take p)]
  | .tcsetattr, _ => [.use (.touch p .configure)]
  | _, _ => []

/-- A system call of an attempt is answered, and the attempt goes on or is over. -/
def System.call (privileged : P → Bool) (s : System P) (p : P) (stage : Stage)
    (failure : Option String) : System P :=
  let (answer, device) := s.device.call privileged p stage failure
  let s := { s with device }
  let seen := stage.entries p answer
  match stage.next answer with
  | .inr stage => (s.note seen).enter p (.attempt stage)
  | .inl (.ok .port) => (s.note (seen ++ [.returned p (.ok .port)])).enter p .holding
  -- the file goes out of scope
  | .inl result => (s.note (seen ++ [.returned p result])).leave p

/-- One step of a process. -/
def step (privileged : P → Bool) (s : System P) : Event P → System P
  | .begin p => (s.note [.began p]).enter p (.attempt .openat)
  | .call p failure =>
    match s.phase p with
    | .attempt stage => s.call privileged p stage failure
    | .idle | .holding | .beside => s
  | .touch p op => s.note [.use (.touch p op)]
  | .join p =>
    { s with device := { s.device with openers := insert p s.device.openers } }.enter p .beside
  | .close p => s.leave p

/-- What can happen: a producer tries to open the device when it does not have it, and uses it
as its program does when it has a port; others open it as the kernel lets them, and use it. -/
def allowed (program : P → Program) (privileged : P → Bool) (s : System P) : Event P → Prop
  | .begin p => (program p).locks ∧ s.phase p = .idle
  | .call p _ => s.phase p ≠ .idle ∧ s.phase p ≠ .holding ∧ s.phase p ≠ .beside
  | .touch p op => s.phase p = (if (program p).locks then .holding else .beside) ∧
      (program p).uses op
  | .join p => ¬ (program p).locks ∧ s.phase p = .idle ∧ (s.device.exclusive → privileged p)
  | .close p => s.phase p ≠ .idle

instance (program : P → Program) (privileged : P → Bool) (s : System P) :
    (e : Event P) → Decidable (allowed program privileged s e)
  | .begin p => inferInstanceAs (Decidable ((program p).locks ∧ s.phase p = .idle))
  | .call p _ => inferInstanceAs
      (Decidable (s.phase p ≠ .idle ∧ s.phase p ≠ .holding ∧ s.phase p ≠ .beside))
  | .touch p op => inferInstanceAs (Decidable
      (s.phase p = (if (program p).locks then .holding else .beside) ∧ (program p).uses op))
  | .join p => inferInstanceAs (Decidable
      (¬ (program p).locks ∧ s.phase p = .idle ∧ (s.device.exclusive → privileged p)))
  | .close p => inferInstanceAs (Decidable (s.phase p ≠ .idle))

/-! ## What a call can do -/

/-- A stage of an attempt that has the lock. -/
def Stage.Locked (stage : Stage) : Prop := stage ≠ .openat ∧ stage ≠ .flock

/-- What a call of an attempt makes of the system: it refuses because the device is in use, it
fails, or it goes on to the next call, or to a port. -/
inductive Called (privileged : P → Bool) (s : System P) (p : P) (stage : Stage) :
    Option String → System P → Prop
  | refused (inUse : (stage = .openat ∧ s.device.exclusive ∧ ¬ privileged p) ∨
        stage = .flock ∧ ∃ q, q ≠ p ∧ s.device.lock = some q) :
      Called privileged s p stage none ((s.note [.returned p (.ok .busy)]).leave p)
  | failed (text : String) :
      Called privileged s p stage (some text) ((s.note (stage.entries p (.error (.other text)) ++
        [.returned p (.error (.other text))])).leave p)
  | opened (at_openat : stage = .openat) (free : s.device.exclusive → privileged p) :
      Called privileged s p stage none (({ s with
        device := { s.device with openers := insert p s.device.openers } }.note []).enter p
          (.attempt .flock))
  | locked (at_flock : stage = .flock) (free : ∀ q, s.device.lock = some q → q = p) :
      Called privileged s p stage none (({ s with
        device := { s.device with lock := some p } }.note [.use (.take p)]).enter p
          (.attempt .tiocexcl))
  | excluded (at_tiocexcl : stage = .tiocexcl) :
      Called privileged s p stage none (({ s with
        device := { s.device with exclusive := true } }.note []).enter p (.attempt .tcgetattr))
  | went_on (stage' : Stage) (before : stage.Locked) (excluded : stage ≠ .tiocexcl)
        (after : stage'.Locked) :
      Called privileged s p stage none ((s.note (stage.entries p (.ok ()))).enter p
        (.attempt stage'))
  | got (at_setfl : stage = .setfl) :
      Called privileged s p stage none ((s.note [.returned p (.ok .port)]).enter p .holding)

/-- What a system call does is among what it can do. -/
theorem called_call (privileged : P → Bool) (s : System P) (p : P) (stage : Stage)
    (failure : Option String) :
    Called privileged s p stage failure (s.call privileged p stage failure) := by
  cases failure with
  | some text => cases stage <;> exact .failed text
  | none =>
    cases stage with
    | openat =>
      unfold System.call Device.call
      by_cases hex : s.device.exclusive ∧ ¬ privileged p
      · rw [if_pos hex]
        exact .refused (.inl ⟨rfl, hex⟩)
      · rw [if_neg hex]
        exact .opened rfl fun h => not_not.mp fun hp => hex ⟨h, hp⟩
    | flock =>
      unfold System.call Device.call
      by_cases hfree : s.device.lock = none ∨ s.device.lock = some p
      · rw [if_pos hfree]
        refine .locked rfl fun q hq => ?_
        rcases hfree with hnone | hsome
        · rw [hnone] at hq
          cases hq
        · exact Option.some_inj.mp (hq.symm.trans hsome)
      · rw [if_neg hfree]
        rw [not_or] at hfree
        obtain ⟨q, hq⟩ := Option.ne_none_iff_exists'.mp hfree.1
        refine .refused (.inr ⟨rfl, q, ?_, hq⟩)
        rintro rfl
        exact hfree.2 hq
    | tiocexcl => exact .excluded rfl
    | tcgetattr => exact .went_on .setSpeed ⟨nofun, nofun⟩ nofun ⟨nofun, nofun⟩
    | setSpeed => exact .went_on .tcsetattr ⟨nofun, nofun⟩ nofun ⟨nofun, nofun⟩
    | tcsetattr => exact .went_on .setfl ⟨nofun, nofun⟩ nofun ⟨nofun, nofun⟩
    | setfl => exact .got rfl

/-! ## The invariant -/

/-- The process has a descriptor of the device. -/
def Phase.Opened : Phase → Prop
  | .idle => False
  | .attempt stage => stage ≠ .openat
  | .holding | .beside => True

/-- The process has the lock. -/
def Phase.Locked : Phase → Prop
  | .attempt stage => stage.Locked
  | .holding => True
  | .idle | .beside => False

/-- Whoever is this far has set `TIOCEXCL`. -/
def Phase.Excluding : Phase → Prop
  | .attempt stage => stage.Locked ∧ stage ≠ .tiocexcl
  | .holding => True
  | .idle | .beside => False

theorem Phase.Excluding.opened {phase : Phase} (h : phase.Excluding) : phase.Opened := by
  cases phase with
  | idle => exact h
  | attempt stage => exact h.1.1
  | holding => trivial
  | beside => trivial

/-- Who keeps to the rule that the line is touched with the lock only. -/
def keeps (program : P → Program) (p : P) : Bool := (program p).locks

/-- What the kernel keeps is what the processes are at, and what producers did to the device was
done by the owner of the lock, who still has it. -/
structure Inv (program : P → Program) (s : System P) : Prop where
  openers : ∀ p, p ∈ s.device.openers ↔ (s.phase p).Opened
  lock : ∀ p, s.device.lock = some p ↔ (s.phase p).Locked
  exclusive : s.device.exclusive → s.device.openers ≠ ∅
  excluding : ∀ p, (s.phase p).Excluding → s.device.exclusive
  owner : follows (Use.next (keeps program)) none (uses s.log) = some s.device.lock

/-- A step of one process, with what it does to the device. -/
theorem Inv.move {program : P → Program} {s : System P} (h : Inv program s) {p : P}
    {phase : Phase} {device : Device P} {entries : List (Entry P)}
    (hopeners : ∀ q, q ∈ device.openers ↔ if q = p then phase.Opened else q ∈ s.device.openers)
    (hlock : ∀ q, device.lock = some q ↔ if q = p then phase.Locked else s.device.lock = some q)
    (hexclusive : device.exclusive → device.openers ≠ ∅)
    (hexcluding : phase.Excluding ∨ (∃ q, q ≠ p ∧ q ∈ s.device.openers ∧ s.device.exclusive) →
      device.exclusive)
    (howner : follows (Use.next (keeps program)) s.device.lock (uses entries)
      = some device.lock) :
    Inv program ⟨Function.update s.phase p phase, device, s.log ++ entries⟩ := by
  refine ⟨fun q => ?_, fun q => ?_, hexclusive, fun q hq => ?_, ?_⟩
  · show _ ↔ (Function.update s.phase p phase q).Opened
    rw [hopeners, Function.update_apply]
    split_ifs
    · rfl
    · exact h.openers q
  · show _ ↔ (Function.update s.phase p phase q).Locked
    rw [hlock, Function.update_apply]
    split_ifs
    · rfl
    · exact h.lock q
  · dsimp only at hq
    rw [Function.update_apply] at hq
    split_ifs at hq with hp
    · exact hexcluding (.inl hq)
    · exact hexcluding (.inr ⟨q, hp, (h.openers q).mpr hq.opened, h.excluding q hq⟩)
  · rw [uses_append]
    exact follows_append.mpr ⟨_, h.owner, howner⟩

/-- A step that leaves the device as it is, of a process that keeps what it has. -/
theorem Inv.enter {program : P → Program} {s : System P} (h : Inv program s) {p : P}
    {phase : Phase} {entries : List (Entry P)} (hopened : (s.phase p).Opened ↔ phase.Opened)
    (hlocked : (s.phase p).Locked ↔ phase.Locked)
    (hexcluding : phase.Excluding → (s.phase p).Excluding)
    (howner : follows (Use.next (keeps program)) s.device.lock (uses entries)
      = some s.device.lock) :
    Inv program ((s.note entries).enter p phase) := by
  refine h.move (fun q => ?_) (fun q => ?_) h.exclusive ?_ howner
  · split_ifs with hq
    · exact hq ▸ (h.openers p).trans hopened
    · rfl
  · split_ifs with hq
    · exact hq ▸ (h.lock p).trans hlocked
    · rfl
  · rintro (hphase | ⟨_, _, _, hexclusive⟩)
    · exact h.excluding p (hexcluding hphase)
    · exact hexclusive

theorem Inv.leave {program : P → Program} {s : System P} (h : Inv program s) {p : P}
    {entries : List (Entry P)}
    (howner : follows (Use.next (keeps program)) s.device.lock (uses entries)
      = some s.device.lock) :
    Inv program ((s.note entries).leave p) := by
  have hmove : Inv program ⟨Function.update s.phase p .idle, s.device.close p,
      s.log ++ (entries ++ [.use (.leave p)])⟩ := by
    refine h.move (fun q => ?_) (fun q => ?_) (fun hex => ?_) ?_ ?_
    · rw [Device.close, Finset.mem_erase]
      split_ifs with hq
      · simp only [hq, ne_eq, not_true_eq_false, false_and, Phase.Opened]
      · simp only [ne_eq, hq, not_false_eq_true, true_and]
    · rw [Device.close]
      dsimp only
      split_ifs with hp hq hq
      · exact iff_of_false nofun not_false
      · rw [hp, Option.some_inj]
        exact iff_of_false nofun fun heq => hq heq.symm
      · rw [hq]
        exact iff_of_false hp not_false
      · rfl
    · simp only [Device.close, Bool.and_eq_true, decide_eq_true_eq] at hex
      exact hex.2
    · rintro (hphase | ⟨q, hq, hopen, hexclusive⟩)
      · cases hphase
      · simp only [Device.close, Bool.and_eq_true, decide_eq_true_eq]
        exact ⟨hexclusive, Finset.ne_empty_of_mem (Finset.mem_erase.mpr ⟨hq, hopen⟩)⟩
    · rw [uses_append]
      exact follows_append.mpr ⟨_, howner, rfl⟩
  rw [← List.append_assoc] at hmove
  exact hmove

/-- What a call is noted with: touching the line is for the owner of the lock only. -/
theorem Inv.follows_entries {program : P → Program} {s : System P} (h : Inv program s) {p : P}
    {stage : Stage} (hphase : s.phase p = .attempt stage) {answer : Except Errno Unit}
    (hflock : stage = .flock → answer ≠ .ok ()) :
    follows (Use.next (keeps program)) s.device.lock (uses (stage.entries p answer))
      = some s.device.lock := by
  have hlocked := h.lock p
  rw [hphase] at hlocked
  cases stage with
  | flock =>
    cases answer with
    | ok u => exact absurd rfl (hflock rfl)
    | error e => rfl
  | tcsetattr =>
    have hlock := hlocked.mpr ⟨nofun, nofun⟩
    exact follows_cons.mpr ⟨_, Use.next_touch.mpr ⟨fun _ => hlock, rfl⟩, rfl⟩
  | openat => rfl
  | tiocexcl => rfl
  | tcgetattr => rfl
  | setSpeed => rfl
  | setfl => rfl

/-- `openat` adds a descriptor, which does not count for anything yet. -/
theorem Inv.openat {program : P → Program} {s : System P} (h : Inv program s) {p : P}
    (hphase : s.phase p = .attempt .openat) :
    Inv program (({ s with
      device := { s.device with openers := insert p s.device.openers } }.note []).enter p
        (.attempt .flock)) := by
  have hlocked := h.lock p
  rw [hphase] at hlocked
  refine h.move (fun q => ?_) (fun q => ?_) (fun _ => Finset.insert_ne_empty _ _) ?_ rfl
  · show q ∈ insert p s.device.openers ↔ _
    rw [Finset.mem_insert]
    split_ifs with hq
    · exact iff_of_true (.inl hq) nofun
    · exact or_iff_right hq
  · split_ifs with hq
    · refine hq ▸ hlocked.trans ?_
      exact iff_of_false (fun h => h.1 rfl) (fun h => h.2 rfl)
    · rfl
  · rintro (hexcluding | ⟨_, _, _, hexclusive⟩)
    · exact absurd rfl hexcluding.1.2
    · exact hexclusive

/-- The lock that is granted was free, and has an owner now. -/
theorem Inv.flock {program : P → Program} {s : System P} (h : Inv program s) {p : P}
    (hphase : s.phase p = .attempt .flock) (free : ∀ q, s.device.lock = some q → q = p) :
    Inv program (({ s with
      device := { s.device with lock := some p } }.note [.use (.take p)]).enter p
        (.attempt .tiocexcl)) := by
  have hopened := h.openers p
  have hlocked := h.lock p
  rw [hphase] at hopened hlocked
  have hnone : s.device.lock = none := by
    cases hlock : s.device.lock with
    | none => rfl
    | some q =>
      obtain rfl := free q hlock
      exact absurd rfl (hlocked.mp hlock).2
  refine h.move (fun q => ?_) (fun q => ?_) h.exclusive ?_ ?_
  · split_ifs with hq
    · exact hq ▸ hopened.trans (iff_of_true nofun nofun)
    · rfl
  · split_ifs with hq
    · rw [hq]
      exact iff_of_true rfl ⟨nofun, nofun⟩
    · show some p = some q ↔ s.device.lock = some q
      rw [hnone, Option.some_inj]
      exact iff_of_false (fun h => hq h.symm) nofun
  · rintro (hexcluding | ⟨_, _, _, hexclusive⟩)
    · exact absurd rfl hexcluding.2
    · exact hexclusive
  · rw [hnone]
    rfl

/-- `TIOCEXCL` makes the device exclusive, which it stays while its owner is at work. -/
theorem Inv.tiocexcl {program : P → Program} {s : System P} (h : Inv program s) {p : P}
    (hphase : s.phase p = .attempt .tiocexcl) :
    Inv program (({ s with
      device := { s.device with exclusive := true } }.note []).enter p (.attempt .tcgetattr)) := by
  have hopened := h.openers p
  have hlocked := h.lock p
  rw [hphase] at hopened hlocked
  refine h.move (fun q => ?_) (fun q => ?_) (fun _ hempty => ?_) (fun _ => rfl) rfl
  · split_ifs with hq
    · exact hq ▸ hopened.trans (iff_of_true nofun nofun)
    · rfl
  · split_ifs with hq
    · exact hq ▸ hlocked.trans (iff_of_true ⟨nofun, nofun⟩ ⟨nofun, nofun⟩)
    · rfl
  · have hmem : p ∈ (∅ : Finset P) := hempty ▸ hopened.mpr nofun
    exact absurd hmem (Finset.notMem_empty p)

/-- A system call keeps the invariant. -/
theorem Inv.called {program : P → Program} {privileged : P → Bool} {s s' : System P}
    (h : Inv program s) {p : P} {stage : Stage} {failure : Option String}
    (hphase : s.phase p = .attempt stage) (hcall : Called privileged s p stage failure s') :
    Inv program s' := by
  cases hcall with
  | refused inUse => exact h.leave rfl
  | failed text =>
    refine h.leave ?_
    rw [uses_append]
    exact follows_append.mpr ⟨_, h.follows_entries hphase fun _ => nofun, rfl⟩
  | opened at_openat free => exact h.openat (hphase.trans (congrArg _ at_openat))
  | locked at_flock free => exact h.flock (hphase.trans (congrArg _ at_flock)) free
  | excluded at_tiocexcl => exact h.tiocexcl (hphase.trans (congrArg _ at_tiocexcl))
  | went_on stage' before excluded after =>
    refine h.enter ?_ ?_ ?_ (h.follows_entries hphase fun hflock => absurd hflock before.2)
    · rw [hphase]
      exact iff_of_true before.1 after.1
    · rw [hphase]
      exact iff_of_true before after
    · rw [hphase]
      exact fun _ => ⟨before, excluded⟩
  | got at_setfl =>
    subst at_setfl
    refine h.enter ?_ ?_ ?_ rfl
    · rw [hphase]
      exact iff_of_true nofun trivial
    · rw [hphase]
      exact iff_of_true ⟨nofun, nofun⟩ trivial
    · rw [hphase]
      exact fun _ => ⟨⟨nofun, nofun⟩, nofun⟩

/-- A call is one of an attempt. -/
theorem step_call {program : P → Program} {privileged : P → Bool} {s : System P} {p : P}
    {failure : Option String} (h : allowed program privileged s (.call p failure)) :
    ∃ stage, s.phase p = .attempt stage ∧
      step privileged s (.call p failure) = s.call privileged p stage failure := by
  obtain ⟨hidle, hholding, hbeside⟩ := h
  rw [step]
  cases hphase : s.phase p with
  | idle => exact absurd hphase hidle
  | holding => exact absurd hphase hholding
  | beside => exact absurd hphase hbeside
  | attempt stage => exact ⟨stage, rfl, rfl⟩

/-- **Every step of every process keeps the invariant.** -/
theorem Inv.step {program : P → Program} {privileged : P → Bool} {s : System P}
    (h : Inv program s) {e : Event P} (he : allowed program privileged s e) :
    Inv program (step privileged s e) := by
  cases e with
  | begin p =>
    obtain ⟨-, hidle⟩ := he
    refine h.enter ?_ ?_ ?_ rfl
    · rw [hidle]
      exact iff_of_false nofun fun h => h rfl
    · rw [hidle]
      exact iff_of_false nofun fun h => h.1 rfl
    · exact fun hexcluding => absurd rfl hexcluding.1.1
  | call p failure =>
    obtain ⟨stage, hphase, hstep⟩ := step_call he
    rw [hstep]
    exact h.called hphase (called_call privileged s p stage failure)
  | touch p op =>
    obtain ⟨hphase, -⟩ := he
    have hlock : (program p).locks → s.device.lock = some p := by
      intro hlocks
      rw [if_pos hlocks] at hphase
      exact (h.lock p).mpr (hphase ▸ trivial)
    refine ⟨h.openers, h.lock, h.exclusive, h.excluding, ?_⟩
    rw [Serial.step, System.note, uses_append]
    have htouch : Use.next (keeps program) s.device.lock (.touch p op) = some s.device.lock :=
      Use.next_touch.mpr ⟨hlock, rfl⟩
    exact follows_append.mpr ⟨_, h.owner, follows_cons.mpr ⟨_, htouch, rfl⟩⟩
  | join p =>
    obtain ⟨-, hidle, -⟩ := he
    have hmove : Inv program ⟨Function.update s.phase p .beside,
        { s.device with openers := insert p s.device.openers }, s.log ++ []⟩ := by
      refine h.move (fun q => ?_) (fun q => ?_) (fun _ => Finset.insert_ne_empty _ _) ?_ rfl
      · rw [Finset.mem_insert]
        split_ifs with hq
        · exact iff_of_true (.inl hq) trivial
        · exact or_iff_right hq
      · split_ifs with hq
        · rw [hq, h.lock, hidle]
          exact Iff.rfl
        · rfl
      · rintro (hphase | ⟨_, _, _, hexclusive⟩)
        · cases hphase
        · exact hexclusive
    rw [List.append_nil] at hmove
    exact hmove
  | close p =>
    have hleave : Inv program ((s.note []).leave p) := h.leave rfl
    rw [System.note, List.append_nil] at hleave
    exact hleave

/-! ## What an attempt leaves behind -/

/-- The attempt that a process is at, or that it ends with the next entry, has not touched the
device. -/
def Untouched (p : P) (log : List (Entry P)) : Prop :=
  ∃ before attempt, log = before ++ .began p :: attempt ∧ ∀ op, .use (.touch p op) ∉ attempt

omit [DecidableEq P] in
theorem Untouched.append {p : P} {log entries : List (Entry P)} (h : Untouched p log)
    (hentries : ∀ op, .use (.touch p op) ∉ entries) : Untouched p (log ++ entries) := by
  obtain ⟨before, attempt, rfl, hattempt⟩ := h
  refine ⟨before, attempt ++ entries, by simp only [List.append_assoc, List.cons_append], ?_⟩
  intro op hmem
  rcases List.mem_append.mp hmem with hmem | hmem
  · exact hattempt op hmem
  · exact hentries op hmem

/-- What the log says of attempts and of uses. -/
structure History (program : P → Program) (s : System P) : Prop where
  waiting : ∀ p, s.phase p = .attempt .openat ∨ s.phase p = .attempt .flock →
    Untouched p s.log
  refused : ∀ p before after, s.log = before ++ .returned p (.ok .busy) :: after →
    Untouched p before
  touched : ∀ p op, .use (.touch p op) ∈ s.log → op = .configure ∨ (program p).uses op

/-- A step of one process, which adds these entries. -/
theorem History.move {program : P → Program} {s : System P} (h : History program s) {p : P}
    {phase : Phase} {device : Device P} {entries : List (Entry P)}
    (hwaiting : phase = .attempt .openat ∨ phase = .attempt .flock →
      Untouched p (s.log ++ entries))
    (htouched : ∀ q op, .use (.touch q op) ∈ entries →
      q = p ∧ (op = .configure ∨ (program q).uses op))
    (hrefused : ∀ q, .returned q (.ok .busy) ∈ entries →
      Untouched q s.log ∧ ∀ op, .use (.touch q op) ∉ entries) :
    History program ⟨Function.update s.phase p phase, device, s.log ++ entries⟩ := by
  refine ⟨fun q hq => ?_, fun q before after hlog => ?_, fun q op hmem => ?_⟩
  · dsimp only at hq ⊢
    rw [Function.update_apply] at hq
    split_ifs at hq with hp
    · exact hp ▸ hwaiting hq
    · exact (h.waiting q hq).append fun op hmem => hp (htouched q op hmem).1
  · rcases List.append_eq_append_iff.mp hlog with ⟨part, rfl, hpart⟩ | ⟨part, hlog', hpart⟩
    · have hmem : .returned q (.ok .busy) ∈ entries := by
        rw [hpart]
        exact List.mem_append_right _ List.mem_cons_self
      obtain ⟨huntouched, hnone⟩ := hrefused q hmem
      refine huntouched.append fun op hop => hnone op ?_
      rw [hpart]
      exact List.mem_append_left _ hop
    · cases part with
      | nil =>
        rw [List.append_nil] at hlog'
        have hmem : .returned q (.ok .busy) ∈ entries := by
          rw [List.nil_append] at hpart
          exact hpart ▸ List.mem_cons_self
        exact hlog' ▸ (hrefused q hmem).1
      | cons entry part =>
        cases hpart
        exact h.refused q before part hlog'
  · rcases List.mem_append.mp hmem with hmem | hmem
    · exact h.touched q op hmem
    · exact (htouched q op hmem).2

omit [DecidableEq P] in
theorem Stage.mem_entries {p : P} {stage : Stage} {answer : Except Errno Unit} {e : Entry P}
    (h : e ∈ stage.entries p answer) : e = .use (.take p) ∨ e = .use (.touch p .configure) := by
  cases stage with
  | flock =>
    cases answer with
    | ok u => exact .inl (List.mem_singleton.mp h)
    | error e => cases h
  | tcsetattr => exact .inr (List.mem_singleton.mp h)
  | openat => cases h
  | tiocexcl => cases h
  | tcgetattr => cases h
  | setSpeed => cases h
  | setfl => cases h

omit [DecidableEq P] in
/-- A call touches the line only to set it up, for its own process. -/
theorem Stage.touch_of_mem_entries {program : P → Program} {p q : P} {stage : Stage}
    {answer : Except Errno Unit} {op : LineOp}
    (h : .use (.touch q op) ∈ stage.entries p answer) :
    q = p ∧ (op = .configure ∨ (program q).uses op) := by
  rcases Stage.mem_entries h with heq | heq
  · cases heq
  · cases heq
    exact ⟨rfl, .inl rfl⟩

omit [DecidableEq P] in
/-- What an attempt comes to is noted behind the call. -/
theorem Stage.returned_notMem_entries {p q : P} {stage : Stage} {answer : Except Errno Unit}
    {result : Except Errno Opened} : .returned q result ∉ stage.entries p answer := by
  intro h
  rcases Stage.mem_entries h with heq | heq <;> cases heq

/-- A system call keeps what the log says. -/
theorem History.called {program : P → Program} {privileged : P → Bool} {s s' : System P}
    (h : History program s) {p : P} {stage : Stage} {failure : Option String}
    (hphase : s.phase p = .attempt stage) (hcall : Called privileged s p stage failure s') :
    History program s' := by
  cases hcall with
  | refused inUse =>
    have huntouched : Untouched p s.log := by
      refine h.waiting p ?_
      rcases inUse with ⟨rfl, -⟩ | ⟨rfl, -⟩
      · exact .inl hphase
      · exact .inr hphase
    show History program ⟨_, _, s.log ++ _ ++ _⟩
    rw [List.append_assoc]
    refine h.move nofun (fun q op hmem => ?_) (fun q hmem => ?_)
    · simp at hmem
    · obtain rfl : q = p := by simpa using hmem
      exact ⟨huntouched, fun op hop => by simp at hop⟩
  | failed text =>
    show History program ⟨_, _, s.log ++ _ ++ _⟩
    rw [List.append_assoc]
    refine h.move nofun (fun q op hmem => ?_) (fun q hmem => ?_)
    · rw [List.append_assoc, List.mem_append] at hmem
      rcases hmem with hmem | hmem
      · exact Stage.touch_of_mem_entries hmem
      · simp at hmem
    · rw [List.append_assoc, List.mem_append] at hmem
      rcases hmem with hmem | hmem
      · exact absurd hmem Stage.returned_notMem_entries
      · simp at hmem
  | opened at_openat free =>
    refine h.move (fun _ => ?_) (fun _ _ hmem => nomatch hmem) (fun _ hmem => nomatch hmem)
    rw [List.append_nil]
    exact h.waiting p (.inl (at_openat ▸ hphase))
  | locked at_flock free =>
    refine h.move nofun (fun q op hmem => ?_) (fun q hmem => ?_)
    · simp at hmem
    · simp at hmem
  | excluded at_tiocexcl =>
    exact h.move nofun (fun _ _ hmem => nomatch hmem) (fun _ hmem => nomatch hmem)
  | went_on stage' before excluded after =>
    refine h.move (fun hstage => ?_) (fun q op hmem => ?_) (fun q hmem => ?_)
    · rcases hstage with hstage | hstage
      · cases hstage
        cases after.1 rfl
      · cases hstage
        cases after.2 rfl
    · exact Stage.touch_of_mem_entries hmem
    · exact absurd hmem Stage.returned_notMem_entries
  | got at_setfl =>
    refine h.move nofun (fun q op hmem => ?_) (fun q hmem => ?_)
    · simp at hmem
    · simp at hmem

/-- Every step keeps the history of the calls. -/
theorem History.step {program : P → Program} {privileged : P → Bool} {s : System P}
    (h : History program s) {e : Event P} (he : allowed program privileged s e) :
    History program (step privileged s e) := by
  cases e with
  | begin p =>
    refine h.move (fun _ => ⟨s.log, [], rfl, fun _ hmem => nomatch hmem⟩) (fun q op hmem => ?_)
      (fun q hmem => ?_)
    · simp at hmem
    · simp at hmem
  | call p failure =>
    obtain ⟨stage, hphase, hstep⟩ := step_call he
    rw [hstep]
    exact h.called hphase (called_call privileged s p stage failure)
  | touch p op =>
    obtain ⟨hphase, huses⟩ := he
    have hmove : History program ⟨Function.update s.phase p (s.phase p), s.device,
        s.log ++ [.use (.touch p op)]⟩ := by
      refine h.move (fun hwaiting => ?_) (fun q op' hmem => ?_) (fun q hmem => ?_)
      · rw [hphase] at hwaiting
        split_ifs at hwaiting <;> rcases hwaiting with heq | heq <;> cases heq
      · cases List.mem_singleton.mp hmem
        exact ⟨rfl, .inr huses⟩
      · simp at hmem
    rw [Function.update_eq_self] at hmove
    exact hmove
  | join p =>
    have hmove : History program ⟨Function.update s.phase p .beside,
        { s.device with openers := insert p s.device.openers }, s.log ++ []⟩ :=
      h.move nofun (fun _ _ hmem => nomatch hmem) (fun _ hmem => nomatch hmem)
    rw [List.append_nil] at hmove
    exact hmove
  | close p =>
    refine h.move nofun (fun q op hmem => ?_) (fun q hmem => ?_)
    · simp at hmem
    · simp at hmem

/-! ## Every order of steps -/

/-- The invariant and the history hold in every state reached. -/
theorem inv_reached {program : P → Program} {privileged : P → Bool} {s : System P}
    (h : Reached (step privileged) (allowed program privileged) {} s) :
    Inv program s ∧ History program s := by
  refine h.invariant (P := fun s => Inv program s ∧ History program s)
    ⟨⟨?_, ?_, nofun, fun _ hphase => hphase.elim, rfl⟩, ⟨?_, ?_, nofun⟩⟩
    fun s e hs he => ⟨hs.1.step he, hs.2.step he⟩
  · exact fun p => iff_of_false (Finset.notMem_empty p) not_false
  · exact fun p => iff_of_false nofun not_false
  · rintro p (hphase | hphase) <;> cases hphase
  · intro p before after hlog
    exact absurd hlog.symm (List.append_ne_nil_of_right_ne_nil _ (List.cons_ne_nil _ _))

omit [DecidableEq P] in
theorem mem_uses {u : Use P LineOp} {log : List (Entry P)} : u ∈ uses log ↔ .use u ∈ log := by
  rw [uses, List.mem_filterMap]
  constructor
  · rintro ⟨e, he, hu⟩
    cases e with
    | use u' =>
      cases hu
      exact he
    | began p => cases hu
    | returned p result => cases hu
  · exact fun h => ⟨.use u, h, rfl⟩

/-- **No producer disturbs another's session**: however the calls of any number of producers
and of programs that do not lock are interleaved, whichever of them fail and whoever is killed,
two producers never have the device in hand together; between a producer's lock and its close
no other producer configures, flushes, reads or writes the line, and a BMS reader itself has no
flush and no write in its session; no producer touches the line without the lock; and while one
has a port, only the privileged can still open the device. A program that does not lock and had
it open before, or is privileged, is not kept from the line. -/
theorem one_user_at_a_time {program : P → Program} {privileged : P → Bool} {s : System P}
    (h : Reached (step privileged) (allowed program privileged) {} s) :
    (∀ p q, s.phase p = .holding → s.phase q = .holding → p = q) ∧
    (∀ p before session after, uses s.log = before ++ .take p :: (session ++ after) →
      .leave p ∉ session → ∀ q op, .touch q op ∈ session → (program q).locks →
        q = p ∧ (program p = .bms → op = .configure ∨ op = .read)) ∧
    (∀ p op before after, uses s.log = before ++ .touch p op :: after → (program p).locks →
      ∃ earlier session, before = earlier ++ .take p :: session ∧ .leave p ∉ session) ∧
    ∀ p q, s.phase p = .holding → allowed program privileged s (.join q) → privileged q := by
  obtain ⟨hinv, hhistory⟩ := inv_reached h
  refine ⟨?_, ?_, ?_, ?_⟩
  · intro p q hp hq
    have hlockp := (hinv.lock p).mpr (hp ▸ trivial)
    have hlockq := (hinv.lock q).mpr (hq ▸ trivial)
    exact Option.some_inj.mp (hlockp.symm.trans hlockq)
  · intro p before session after huses hleave q op hmem hlocks
    have howner := hinv.owner
    rw [huses, ← List.cons_append, ← List.append_assoc] at howner
    obtain ⟨owner, howner, -⟩ := follows_append.mp howner
    obtain rfl := (session_of_follows howner hleave).2 q op hmem hlocks
    refine ⟨rfl, fun hbms => ?_⟩
    have hlogged : .use (.touch q op) ∈ s.log := by
      rw [← mem_uses, huses]
      exact List.mem_append_right _
        (List.mem_cons_of_mem _ (List.mem_append_left _ hmem))
    rcases hhistory.touched q op hlogged with hop | hop
    · exact .inl hop
    · rw [hbms] at hop
      cases op with
      | configure => exact .inl rfl
      | read => exact .inr rfl
      | flush => cases hop
      | write => cases hop
  · intro p op before after huses hlocks
    have howner := hinv.owner
    rw [huses] at howner
    exact touch_of_follows howner hlocks
  · rintro p q hp ⟨-, -, hprivileged⟩
    exact hprivileged (hinv.excluding p (hp ▸ trivial))

/-- The inverter program has the device and asks; a `cat` from before reads along; the BMS
program is refused, and gets the device when the other is gone. -/
def sampleProgram : Fin 3 → Program
  | 0 => .inverter
  | 1 => .bms
  | 2 => .other

/-- `cat` is reading along while the first producer works and the second one comes after. -/
def sampleEvents : List (Event (Fin 3)) :=
  [.join 2, .begin 0, .begin 1] ++ List.replicate 7 (.call 0 none) ++
    [.touch 0 .flush, .touch 0 .write, .call 1 none, .touch 2 .read, .touch 0 .read, .close 0,
      .close 2, .begin 1] ++ List.replicate 7 (.call 1 none) ++ [.touch 1 .read]

theorem one_user_at_a_time_sampled :
    let s := sampleEvents.foldl (step fun _ => false) {}
    .use (.touch 2 .read) ∈ s.log ∧ s.phase 1 = .holding ∧
      (∀ p, s.phase p = .holding → p = 1) ∧
      ¬ allowed sampleProgram (fun _ => false) s (.join 2) := by
  intro s
  have hpermitted : Permitted (step fun _ => false) (allowed sampleProgram fun _ => false) {}
      sampleEvents := by
    decide +kernel
  have hholding : s.phase 1 = .holding := by decide +kernel
  have hread : .use (.touch 2 .read) ∈ s.log := by decide +kernel
  obtain ⟨hsame, -, -, hjoin⟩ := one_user_at_a_time (hpermitted.reached .start)
  exact ⟨hread, hholding, fun p hp => hsame p 1 hp hholding,
    fun hallowed => nomatch hjoin 1 2 hholding hallowed⟩

/-! ## Refusals -/

/-- Only a call that is refused returns `Busy`. -/
theorem refused_of_log {privileged : P → Bool} {s s' : System P} {p : P} {stage : Stage}
    {failure : Option String} {rest : List (Entry P)}
    (hcall : Called privileged s p stage failure s')
    (hlog : s'.log = s.log ++ .returned p (.ok .busy) :: rest) :
    s' = (s.note [.returned p (.ok .busy)]).leave p ∧
      ((stage = .openat ∧ s.device.exclusive ∧ ¬ privileged p) ∨
        stage = .flock ∧ ∃ q, q ≠ p ∧ s.device.lock = some q) := by
  cases hcall with
  | refused inUse => exact ⟨rfl, inUse⟩
  | failed text =>
    have hentries : stage.entries p (.error (.other text)) ++
        [.returned p (.error (.other text))] ++ [.use (.leave p)]
          = .returned p (.ok .busy) :: rest := by
      apply @List.append_cancel_left _ s.log
      rw [← List.append_assoc]
      exact hlog
    cases stage <;> cases hentries
  | opened at_openat free => cases List.append_cancel_left hlog
  | locked at_flock free => cases List.append_cancel_left hlog
  | excluded at_tiocexcl => cases List.append_cancel_left hlog
  | went_on stage' before excluded after =>
    have hentries := List.append_cancel_left hlog
    cases stage <;> cases hentries
  | got at_setfl => cases List.append_cancel_left hlog

/-- What a process that does not have the lock leaves behind for one that has the device open. -/
theorem Device.close_of_ne {d : Device P} {p q : P} (hlock : d.lock ≠ some p) (hq : q ≠ p)
    (hopen : q ∈ d.openers) :
    q ∈ (d.close p).openers ∧ (d.close p).lock = d.lock ∧
      (d.close p).exclusive = d.exclusive := by
  have hmem : q ∈ d.openers.erase p := Finset.mem_erase.mpr ⟨hq, hopen⟩
  refine ⟨hmem, if_neg hlock, ?_⟩
  have hne : d.openers.erase p ≠ ∅ := Finset.ne_empty_of_mem hmem
  show (d.exclusive && decide (d.openers.erase p ≠ ∅)) = d.exclusive
  rw [decide_eq_true hne, Bool.and_true]

/-- **Busy means busy**: an attempt returns `Busy` only when another process has the device
open, and this process keeps all it has; nothing was done to the line by the attempt. -/
theorem busy_is_harmless {program : P → Program} {privileged : P → Bool} {s : System P}
    (h : Reached (step privileged) (allowed program privileged) {} s) :
    (∀ p failure rest, allowed program privileged s (.call p failure) →
      (step privileged s (.call p failure)).log
          = s.log ++ .returned p (.ok .busy) :: rest →
        ∃ q, q ≠ p ∧ q ∈ s.device.openers ∧
          q ∈ (step privileged s (.call p failure)).device.openers ∧
          (step privileged s (.call p failure)).device.lock = s.device.lock ∧
          (step privileged s (.call p failure)).device.exclusive = s.device.exclusive) ∧
    ∀ p before after, s.log = before ++ .returned p (.ok .busy) :: after →
      Untouched p before := by
  obtain ⟨hinv, hhistory⟩ := inv_reached h
  refine ⟨fun p failure rest hallowed hlog => ?_, hhistory.refused⟩
  obtain ⟨stage, hphase, hstep⟩ := step_call hallowed
  rw [hstep] at hlog ⊢
  obtain ⟨hleft, inUse⟩ := refused_of_log (called_call privileged s p stage failure) hlog
  have hlock : s.device.lock ≠ some p := by
    intro hlock
    have hlocked := (hinv.lock p).mp hlock
    rw [hphase] at hlocked
    rcases inUse with ⟨rfl, -⟩ | ⟨rfl, -⟩
    · exact hlocked.1 rfl
    · exact hlocked.2 rfl
  obtain ⟨q, hq, hopen⟩ : ∃ q, q ≠ p ∧ q ∈ s.device.openers := by
    rcases inUse with ⟨rfl, hexclusive, -⟩ | ⟨-, q, hq, hqlock⟩
    · obtain ⟨q, hq⟩ := Finset.nonempty_iff_ne_empty.mpr (hinv.exclusive hexclusive)
      refine ⟨q, ?_, hq⟩
      rintro rfl
      have hopened := (hinv.openers q).mp hq
      rw [hphase] at hopened
      exact hopened rfl
    · refine ⟨q, hq, (hinv.openers q).mpr ?_⟩
      have hlocked := (hinv.lock q).mp hqlock
      cases hphase : s.phase q with
      | idle => rw [hphase] at hlocked; exact hlocked
      | attempt stage => rw [hphase] at hlocked; exact hlocked.1
      | holding => trivial
      | beside => trivial
  rw [hleft]
  exact ⟨q, hq, hopen, Device.close_of_ne hlock hq hopen⟩

theorem busy_is_harmless_sampled :
    let before := (sampleEvents.take 12).foldl (step fun _ => false) {}
    let after := step (fun _ => false) before (.call 1 none)
    after.device.lock = some 0 ∧ ∃ q, q ≠ 1 ∧ q ∈ before.device.openers ∧
      q ∈ after.device.openers := by
  intro before after
  have hpermitted : Permitted (step fun _ => false) (allowed sampleProgram fun _ => false) {}
      (sampleEvents.take 12) := by
    decide +kernel
  have hallowed : allowed sampleProgram (fun _ => false) before (.call 1 none) := by
    decide +kernel
  have hlog : after.log = before.log ++ .returned 1 (.ok .busy) :: [.use (.leave 1)] := by
    decide +kernel
  have hlock : after.device.lock = some 0 := by decide +kernel
  obtain ⟨q, hq, hopen, hkept, -⟩ :=
    (busy_is_harmless (hpermitted.reached .start)).1 1 none _ hallowed hlog
  exact ⟨hlock, q, hq, hopen, hkept⟩

/-! ## A race -/

/-- A race for a free device: each producer tries once, every call is answered, and nobody
gives up what it has. -/
def raced (s : System P) : Event P → Prop
  | .begin p => s.phase p = .idle ∧ .began p ∉ s.log
  | .call p failure => failure = none ∧ s.phase p ≠ .idle ∧ s.phase p ≠ .holding ∧
      s.phase p ≠ .beside
  | .touch _ _ | .join _ | .close _ => False

instance (s : System P) : (e : Event P) → Decidable (raced s e)
  | .begin p => inferInstanceAs (Decidable (s.phase p = .idle ∧ .began p ∉ s.log))
  | .call p failure => inferInstanceAs (Decidable (failure = none ∧ s.phase p ≠ .idle ∧
      s.phase p ≠ .holding ∧ s.phase p ≠ .beside))
  | .touch _ _ | .join _ | .close _ => .isFalse not_false

/-- Somebody has the lock once anybody has come as far as asking for it. -/
structure Race (s : System P) : Prop where
  inv : Inv (fun _ => .bms) s
  contended : ∀ p, .began p ∈ s.log → s.device.lock ≠ none ∨
    ∃ q, s.phase q = .attempt .openat ∨ s.phase q = .attempt .flock
  exclusive : s.device.exclusive → s.device.lock ≠ none
  began : ∀ p, s.phase p ≠ .idle → .began p ∈ s.log
  refused : ∀ p, .began p ∈ s.log → s.phase p = .idle → .returned p (.ok .busy) ∈ s.log
  beside : ∀ p, s.phase p ≠ .beside

/-- A step of one process of a race. -/
theorem Race.move {s : System P} (h : Race s) {p : P} {phase : Phase} {device : Device P}
    {entries : List (Entry P)}
    (hinv : Inv (fun _ => .bms) ⟨Function.update s.phase p phase, device, s.log ++ entries⟩)
    (hcontended : device.lock ≠ none ∨ phase = .attempt .openat ∨ phase = .attempt .flock)
    (hexclusive : device.exclusive → device.lock ≠ none)
    (hbegan : .began p ∈ s.log ++ entries) (hothers : ∀ q, .began q ∈ entries → q = p)
    (hrefused : phase = .idle → .returned p (.ok .busy) ∈ entries) (hbeside : phase ≠ .beside) :
    Race ⟨Function.update s.phase p phase, device, s.log ++ entries⟩ := by
  refine ⟨hinv, fun q _ => ?_, hexclusive, fun q hq => ?_, fun q hq hidle => ?_, fun q => ?_⟩
  · rcases hcontended with hlock | hphase
    · exact .inl hlock
    · refine .inr ⟨p, ?_⟩
      dsimp only
      rw [Function.update_self]
      exact hphase
  · dsimp only at hq ⊢
    rw [Function.update_apply] at hq
    split_ifs at hq with hp
    · exact hp ▸ hbegan
    · exact List.mem_append_left _ (h.began q hq)
  · dsimp only at hq hidle ⊢
    rw [Function.update_apply] at hidle
    split_ifs at hidle with hp
    · exact hp ▸ List.mem_append_right _ (hrefused hidle)
    · refine List.mem_append_left _ (h.refused q ?_ hidle)
      exact (List.mem_append.mp hq).resolve_right fun hmem => hp (hothers q hmem)
  · dsimp only
    rw [Function.update_apply]
    split_ifs with hp
    · exact hbeside
    · exact h.beside q

/-- A system call of a racing process keeps the race open. -/
theorem Race.called {privileged : P → Bool} {s s' : System P} (h : Race s) {p : P}
    {stage : Stage} (hphase : s.phase p = .attempt stage)
    (hcall : Called privileged s p stage none s') : Race s' := by
  have hinv := h.inv.called hphase hcall
  have hbegan : .began p ∈ s.log := h.began p (by rw [hphase]; exact nofun)
  have hlocked := h.inv.lock p
  rw [hphase] at hlocked
  have hsome : stage.Locked → s.device.lock ≠ none := by
    intro hstage
    rw [hlocked.mpr hstage]
    exact nofun
  cases hcall with
  | refused inUse =>
    have hne : s.device.lock ≠ some p := by
      rintro hlock
      rcases inUse with ⟨rfl, -⟩ | ⟨rfl, -⟩
      · exact (hlocked.mp hlock).1 rfl
      · exact (hlocked.mp hlock).2 rfl
    have hlock : (s.device.close p).lock ≠ none := by
      rw [Device.close]
      dsimp only
      rw [if_neg hne]
      rcases inUse with ⟨-, hexclusive, -⟩ | ⟨-, q, -, hq⟩
      · exact h.exclusive hexclusive
      · rw [hq]
        exact nofun
    have heq : (s.note [.returned p (.ok .busy)]).leave p
        = ⟨Function.update s.phase p .idle, s.device.close p,
            s.log ++ [.returned p (.ok .busy), .use (.leave p)]⟩ := by
      rw [System.leave, System.note, List.append_assoc]
      rfl
    rw [heq] at hinv ⊢
    refine h.move hinv (.inl hlock) (fun _ => hlock) (List.mem_append_left _ hbegan)
      (fun q hq => ?_) (fun _ => List.mem_cons_self) nofun
    simp at hq
  | opened at_openat free =>
    exact h.move hinv (.inr (.inr rfl)) h.exclusive (List.mem_append_left _ hbegan)
      (fun _ hq => nomatch hq) nofun nofun
  | locked at_flock free =>
    refine h.move hinv (.inl nofun) (fun _ => nofun) (List.mem_append_left _ hbegan)
      (fun q hq => ?_) nofun nofun
    simp at hq
  | excluded at_tiocexcl =>
    have hlock := hsome (at_tiocexcl ▸ ⟨nofun, nofun⟩)
    exact h.move hinv (.inl hlock) (fun _ => hlock) (List.mem_append_left _ hbegan)
      (fun _ hq => nomatch hq) nofun nofun
  | went_on stage' before excluded after =>
    refine h.move hinv (.inl (hsome before)) h.exclusive (List.mem_append_left _ hbegan)
      (fun q hq => ?_) nofun nofun
    rcases Stage.mem_entries hq with heq | heq <;> cases heq
  | got at_setfl =>
    refine h.move hinv (.inl (hsome (at_setfl ▸ ⟨nofun, nofun⟩))) h.exclusive
      (List.mem_append_left _ hbegan) (fun q hq => ?_) nofun nofun
    simp at hq

/-- Every step of a race keeps what is known of it. -/
theorem Race.step {privileged : P → Bool} {s : System P} (h : Race s) {e : Event P}
    (he : raced s e) : Race (step privileged s e) := by
  cases e with
  | begin p =>
    obtain ⟨hidle, -⟩ := he
    have hallowed : allowed (fun _ => .bms) privileged s (.begin p) := ⟨rfl, hidle⟩
    refine h.move (h.inv.step hallowed) (.inr (.inl rfl)) h.exclusive
      (List.mem_append_right _ List.mem_cons_self) (fun q hq => ?_) nofun nofun
    simpa using hq
  | call p failure =>
    obtain ⟨rfl, hphase⟩ := he
    have hallowed : allowed (fun _ => .bms) privileged s (.call p none) := hphase
    obtain ⟨stage, hattempt, hstep⟩ := step_call hallowed
    rw [hstep]
    exact h.called hattempt (called_call privileged s p stage none)
  | touch p op => exact he.elim
  | join p => exact he.elim
  | close p => exact he.elim

/-- **A race has one winner**: when any number of producers, privileged or not, have raced for a
free device, in whatever order their calls were made, and all attempts are over, one of them has
a port and each of the others was told that the device is busy. -/
theorem race_has_one_winner {privileged : P → Bool} {s : System P}
    (h : Reached (step privileged) raced {} s) (hover : ∀ p stage, s.phase p ≠ .attempt stage)
    (hbegan : ∃ p, .began p ∈ s.log) :
    ∃ winner, s.phase winner = .holding ∧ ∀ p, .began p ∈ s.log → p ≠ winner →
      s.phase p = .idle ∧ .returned p (.ok .busy) ∈ s.log := by
  have hinit : Race ({} : System P) := by
    refine ⟨⟨?_, ?_, nofun, fun _ hphase => hphase.elim, rfl⟩, nofun, nofun,
      fun _ h => absurd rfl h, nofun, fun _ => nofun⟩
    · exact fun p => iff_of_false (Finset.notMem_empty p) not_false
    · exact fun p => iff_of_false nofun not_false
  have hrace := h.invariant hinit fun s e hs he => hs.step he
  obtain ⟨first, hfirst⟩ := hbegan
  rcases hrace.contended first hfirst with hlock | ⟨p, hwaiting⟩
  · obtain ⟨winner, hwinner⟩ := Option.ne_none_iff_exists'.mp hlock
    have hholding : ∀ p, s.phase p ≠ .idle → s.phase p = .holding := by
      intro p hp
      cases hphase : s.phase p with
      | idle => exact absurd hphase hp
      | attempt stage => exact absurd hphase (hover p stage)
      | holding => rfl
      | beside => exact absurd hphase (hrace.beside p)
    have hlocked := (hrace.inv.lock winner).mp hwinner
    refine ⟨winner, hholding winner fun hidle => by rw [hidle] at hlocked; exact hlocked,
      fun p hp hne => ?_⟩
    have hidle : s.phase p = .idle := by
      by_contra hphase
      have hlockp := (hrace.inv.lock p).mpr (hholding p hphase ▸ trivial)
      exact hne (Option.some_inj.mp (hlockp.symm.trans hwinner))
    exact ⟨hidle, hrace.refused p hp hidle⟩
  · rcases hwaiting with hphase | hphase
    · exact absurd hphase (hover p _)
    · exact absurd hphase (hover p _)

/-- Three producers open the device before any of them has locked it. -/
def racing : List (Event (Fin 3)) :=
  [.begin 0, .begin 1, .begin 2, .call 0 none, .call 1 none, .call 2 none, .call 1 none,
    .call 0 none] ++ List.replicate 5 (.call 1 none) ++ [.call 2 none]

theorem race_has_one_winner_sampled :
    let s := racing.foldl (step fun _ => false) {}
    ∃ winner, s.phase winner = .holding ∧ ∀ p, p ≠ winner →
      s.phase p = .idle ∧ .returned p (.ok .busy) ∈ s.log := by
  intro s
  have hraced : Permitted (step fun _ => false) raced {} racing := by decide +kernel
  have hover : ∀ p, s.phase p = .idle ∨ s.phase p = .holding := by decide +kernel
  have hbegan : ∀ p, .began p ∈ s.log := by decide +kernel
  obtain ⟨winner, hholding, hothers⟩ := race_has_one_winner (hraced.reached .start)
    (fun p stage hphase => by rcases hover p with h | h <;> rw [hphase] at h <;> cases h)
    ⟨0, hbegan 0⟩
  exact ⟨winner, hholding, fun p => hothers p (hbegan p)⟩

end System

end HostServices.Serial
