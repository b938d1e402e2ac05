import HostServices.Lib.Shell

/-!
# The connectivity watchdog (`modules/connectivity-watchdog.nix`)

The script asks the resolver for one name. A success is recorded in a file under `/run`, as
the uptime at which the script ran; a failure reboots the host once the record is old
enough. Without a record that can be read, the uptime itself is the age.

- `since`, `Execution.run`: the script;
- `markerAfter`, `recorded`: the file over a boot, and what it stands for;
- `run_eq_reboot_iff`: when the script reboots, in terms of the record;
- `watchdog_never_loops`: what a reboot takes, and how far apart reboots are.
-/

namespace HostServices.Scripts.Watchdog

open HostServices.Lib

/-! ## The script -/

/-- The status in the header of the resolver's answer, if there is an answer. -/
inductive Status
  | noerror
  | nxdomain
  | other
  | noResponse
  deriving DecidableEq, Repr

/-- The answer shows that DNS works, be it by saying that there is no such name. -/
def Status.resolved : Status → Bool
  | .noerror | .nxdomain => true
  | .other | .noResponse => false

/-- What one execution of the script finds. -/
structure Execution where
  /-- the whole seconds in `/proc/uptime` -/
  now : Nat
  fits : now < 2 ^ 63
  hasDig : Bool := true
  status : Status

/-- What a run of the script decides. -/
inductive Verdict
  /-- `dig` is unavailable -/
  | undecided
  | resolved
  /-- not long enough without DNS -/
  | early (since : Int)
  | reboot
  /-- an arithmetic error ends the script -/
  | died
  deriving DecidableEq, Repr

/-- The age of the last success, from the marker file. -/
def since (now : Nat) (marker : Option (List UInt8)) : Option Int :=
  let last := match marker with
    | none => []
    | some content => Shell.substitute content
  -- `$(( now - last ))`: a constant with a leading zero may not be one, and kills the script
  if Shell.isNumeric last then (Shell.constant last).map fun last => Shell.wrap (now - last)
  else some now

/-- One execution: its verdict, and the marker it leaves. `afterSeconds` is an integer of the
configuration and fits the test's 64 bits. -/
def Execution.run (afterSeconds : Nat) (e : Execution) (marker : Option (List UInt8)) :
    Verdict × Option (List UInt8) :=
  if !e.hasDig then (.undecided, marker)
  else if e.status.resolved then (.resolved, some (Shell.decimal e.now ++ [Shell.newline]))
  -- a failure is measured against the marker, and never touches it
  else
    match since e.now marker with
    | none => (.died, marker)
    | some since => if since < afterSeconds then (.early since, marker) else (.reboot, marker)

/-! ## A boot -/

/-- What happens in a boot: the script runs, or something else replaces the marker. -/
inductive Event
  | execution (e : Execution)
  | replaced (content : List UInt8)

/-- The probe was made and resolved. -/
def Execution.succeeded (e : Execution) : Bool := e.hasDig && e.status.resolved

/-- The probe was made and did not resolve. -/
def Execution.failed (e : Execution) : Bool := e.hasDig && !e.status.resolved

/-- Content without a number in it, as the script reads it. -/
def Unusable (content : List UInt8) : Prop :=
  Shell.isNumeric (Shell.substitute content) = false

/-- The uptime at which the script ran. -/
def Event.uptime? : Event → Option Nat
  | .execution e => some e.now
  | .replaced _ => none

/-- The events of a boot, in order. Whatever replaces the marker leaves no number in it. -/
structure Boot where
  events : List Event
  ordered : (events.filterMap Event.uptime?).Pairwise (· ≤ ·)
  unusable : ∀ content, .replaced content ∈ events → Unusable content

/-- What the event leaves in the marker file. -/
def Event.apply (afterSeconds : Nat) (marker : Option (List UInt8)) :
    Event → Option (List UInt8)
  | .execution e => (e.run afterSeconds marker).2
  | .replaced content => some content

/-- The marker after some events. The directory is empty when a boot begins. -/
def markerAfter (afterSeconds : Nat) (events : List Event) : Option (List UInt8) :=
  events.foldl (Event.apply afterSeconds) none

/-! ## The record -/

/-- The uptime of the last success, with this event. -/
def Event.record (last : Option Nat) : Event → Option Nat
  | .execution e => if e.succeeded then some e.now else last
  | .replaced _ => none

/-- The uptime of the last success, unless the marker was made unusable since. -/
def recorded (events : List Event) : Option Nat := events.foldl Event.record none

/-- The marker says what is recorded. -/
def Agrees (marker : Option (List UInt8)) : Option Nat → Prop
  | some n => n < 2 ^ 63 ∧ marker = some (Shell.decimal n ++ [Shell.newline])
  | none => ∀ content, marker = some content → Unusable content

/-- An event keeps the marker in agreement with the record. -/
theorem Agrees.apply {afterSeconds : Nat} {marker : Option (List UInt8)} {record : Option Nat}
    (h : Agrees marker record) {event : Event}
    (hevent : ∀ content, event = .replaced content → Unusable content) :
    Agrees (event.apply afterSeconds marker) (event.record record) := by
  cases event with
  | replaced content =>
    intro content' heq
    cases heq
    exact hevent content rfl
  | execution e =>
    rw [Event.apply, Event.record, Execution.run, Execution.succeeded]
    cases e.hasDig with
    | false => exact h
    | true =>
      cases e.status.resolved with
      | true => exact ⟨e.fits, rfl⟩
      | false =>
        -- a failed probe leaves the marker alone, whatever it decides
        simp only [Bool.not_true, Bool.and_false, Bool.false_eq_true, if_false]
        cases since e.now marker with
        | none => exact h
        | some age =>
          dsimp only
          split_ifs <;> exact h

/-- After any number of events, the marker agrees with what was recorded. -/
theorem agrees_after {afterSeconds : Nat} {events : List Event}
    (h : ∀ content, .replaced content ∈ events → Unusable content) :
    Agrees (markerAfter afterSeconds events) (recorded events) := by
  induction events using List.reverseRecOn with
  | nil => exact fun content heq => (nomatch heq)
  | append_singleton events event ih =>
    rw [markerAfter, recorded, List.foldl_concat, List.foldl_concat]
    refine (ih fun content hmem => h content (List.mem_append_left _ hmem)).apply ?_
    rintro content rfl
    exact h content (List.mem_append_right _ List.mem_cons_self)

/-- The age that the script computes. -/
theorem since_eq {now : Nat} (hnow : now < 2 ^ 63) {marker : Option (List UInt8)}
    {record : Option Nat} (h : Agrees marker record) (hpast : ∀ n, record = some n → n ≤ now) :
    since now marker = some ((now - record.getD 0 : Nat) : Int) := by
  cases record with
  | none =>
    cases marker with
    | none => rfl
    -- no number in the marker: the uptime is the age
    | some content => rw [since, if_neg (by rw [h content rfl]; exact Bool.false_ne_true)]; rfl
  | some n =>
    obtain ⟨hn, rfl⟩ := h
    have hle := hpast n rfl
    rw [since, Shell.substitute_decimal, if_pos (Shell.isNumeric_decimal n),
      Shell.constant_decimal hn, Option.map_some, Shell.wrap_of_lt (by omega) (by omega),
      Option.getD_some, Int.natCast_sub hle]

/-- When the script reboots. -/
theorem run_eq_reboot_iff {afterSeconds : Nat} {e : Execution} {marker : Option (List UInt8)}
    {record : Option Nat} (h : Agrees marker record) (hpast : ∀ n, record = some n → n ≤ e.now) :
    (e.run afterSeconds marker).1 = .reboot ↔
      e.failed = true ∧ afterSeconds ≤ e.now - record.getD 0 := by
  rw [Execution.run, Execution.failed, since_eq e.fits h hpast]
  cases e.hasDig with
  | false => simp
  | true =>
    cases e.status.resolved with
    | true => simp
    | false =>
      simp only [Bool.not_true, Bool.not_false, Bool.true_and, Bool.false_eq_true, if_false]
      by_cases hage : ((e.now - record.getD 0 : Nat) : Int) < afterSeconds
      · rw [if_pos hage]
        simp
        omega
      · rw [if_neg hage]
        simp
        omega

/-! ## What a reboot takes -/

/-- Something made the marker unusable, and no probe has succeeded since. -/
def SpoiledSinceSuccess (events : List Event) : Prop :=
  ∃ before content after, events = before ++ .replaced content :: after ∧
    ∀ e, .execution e ∈ after → e.succeeded = false

/-- Without a record, there was no success or the marker was spoiled since the last one. -/
theorem recorded_eq_none {events : List Event} (h : recorded events = none) :
    SpoiledSinceSuccess events ∨ ∀ e, .execution e ∈ events → e.succeeded = false := by
  induction events using List.reverseRecOn with
  | nil => exact .inr fun e he => (nomatch he)
  | append_singleton events event ih =>
    rw [recorded, List.foldl_concat] at h
    cases event with
    | replaced content => exact .inl ⟨events, content, [], rfl, fun e he => (nomatch he)⟩
    | execution e =>
      rw [Event.record] at h
      split_ifs at h with he
      have hlast : ∀ e', .execution e' ∈ [Event.execution e] → e'.succeeded = false := by
        intro e' he'
        cases List.mem_singleton.mp he'
        exact Bool.eq_false_iff.mpr he
      rcases ih h with ⟨before, content, after, rfl, hafter⟩ | hnone
      · refine .inl ⟨before, content, after ++ [.execution e], by simp, ?_⟩
        exact fun e' he' => (List.mem_append.mp he').elim (hafter e') (hlast e')
      · exact .inr fun e' he' => (List.mem_append.mp he').elim (hnone e') (hlast e')

/-- A record is not before any success, and is one. -/
theorem recorded_eq_some {events : List Event} {n : Nat}
    (hordered : (events.filterMap Event.uptime?).Pairwise (· ≤ ·))
    (h : recorded events = some n) :
    n ∈ events.filterMap Event.uptime? ∧
      ∀ e, .execution e ∈ events → e.succeeded = true → e.now ≤ n := by
  induction events using List.reverseRecOn with
  | nil => cases h
  | append_singleton events event ih =>
    rw [recorded, List.foldl_concat] at h
    rw [List.filterMap_append, List.pairwise_append] at hordered
    rw [List.filterMap_append]
    cases event with
    | replaced content => cases h
    | execution e =>
      rw [Event.record] at h
      split_ifs at h with he
      · cases h
        refine ⟨List.mem_append_right _ List.mem_cons_self, fun e' he' _ => ?_⟩
        rcases List.mem_append.mp he' with hold | hnew
        · exact hordered.2.2 e'.now (List.mem_filterMap.mpr ⟨_, hold, rfl⟩) e.now
            List.mem_cons_self
        · cases List.mem_singleton.mp hnew
          exact Nat.le_refl _
      · obtain ⟨hmem, hmax⟩ := ih hordered.1 h
        refine ⟨List.mem_append_left _ hmem, fun e' he' hsuccess => ?_⟩
        rcases List.mem_append.mp he' with hold | hnew
        · exact hmax e' hold hsuccess
        · cases List.mem_singleton.mp hnew
          exact absurd hsuccess he

section

variable {boot : Boot} {before after : List Event} {e : Execution}

/-- At any execution of a boot, what is recorded was recorded earlier. -/
theorem recorded_le (hsplit : boot.events = before ++ .execution e :: after) {n : Nat}
    (h : recorded before = some n) : n ≤ e.now := by
  have hordered := boot.ordered
  rw [hsplit, List.filterMap_append, List.pairwise_append] at hordered
  have hmem := (recorded_eq_some hordered.1 h).1
  exact hordered.2.2 n hmem e.now (List.mem_filterMap.mpr ⟨_, List.mem_cons_self, rfl⟩)

/-- When an execution of a boot reboots. -/
theorem reboot_iff (afterSeconds : Nat)
    (hsplit : boot.events = before ++ .execution e :: after) :
    (e.run afterSeconds (markerAfter afterSeconds before)).1 = .reboot ↔
      e.failed = true ∧ afterSeconds ≤ e.now - (recorded before).getD 0 := by
  refine run_eq_reboot_iff (agrees_after fun content hmem => ?_) fun n => recorded_le hsplit
  exact boot.unusable content (hsplit ▸ List.mem_append_left _ hmem)

/-- A reboot comes after `afterSeconds` without a success, or with an unusable marker. -/
theorem reboot_only_if {afterSeconds : Nat}
    (hsplit : boot.events = before ++ .execution e :: after)
    (h : (e.run afterSeconds (markerAfter afterSeconds before)).1 = .reboot) :
    e.failed = true ∧ afterSeconds ≤ e.now ∧
      (SpoiledSinceSuccess before ∨
        ∀ e', .execution e' ∈ before → e'.succeeded = true → e'.now + afterSeconds ≤ e.now) := by
  obtain ⟨hfailed, hage⟩ := (reboot_iff afterSeconds hsplit).mp h
  refine ⟨hfailed, by omega, ?_⟩
  cases hrec : recorded before with
  | none =>
    refine (recorded_eq_none hrec).imp_right fun hnone e' he' hsuccess => ?_
    rw [hnone e' he'] at hsuccess
    cases hsuccess
  | some n =>
    have hordered := boot.ordered
    rw [hsplit, List.filterMap_append, List.pairwise_append] at hordered
    refine .inr fun e' he' hsuccess => ?_
    have hmax := (recorded_eq_some hordered.1 hrec).2 e' he' hsuccess
    have hpast := recorded_le hsplit hrec
    rw [hrec, Option.getD_some] at hage
    omega

end

/-! ## From boot to boot -/

/-- A boot that has ended, with the uptime it reached. -/
structure PastBoot extends Boot where
  ended : Nat
  within : ∀ e, .execution e ∈ events → e.now ≤ ended

/-- The uptime at which the watchdog reboots. What would come after it does not happen. -/
def rebootAt (afterSeconds : Nat) : Option (List UInt8) → List Event → Option Nat
  | _, [] => none
  | marker, .replaced content :: events =>
    rebootAt afterSeconds (Event.apply afterSeconds marker (.replaced content)) events
  | marker, .execution e :: events =>
    if (e.run afterSeconds marker).1 = .reboot then some e.now
    else rebootAt afterSeconds (Event.apply afterSeconds marker (.execution e)) events

/-- The watchdog's reboots in the life of a host, by the time it has been up in all. -/
def rebootTimes (afterSeconds : Nat) : Nat → List PastBoot → List Nat
  | _, [] => []
  | up, boot :: boots =>
    ((rebootAt afterSeconds none boot.events).map (up + ·)).toList ++
      rebootTimes afterSeconds (up + boot.ended) boots

/-- A reboot is what some execution decided. -/
theorem rebootAt_eq_some {afterSeconds : Nat} {marker : Option (List UInt8)}
    {events : List Event} {u : Nat} (h : rebootAt afterSeconds marker events = some u) :
    ∃ before e after, events = before ++ .execution e :: after ∧ e.now = u ∧
      (e.run afterSeconds (before.foldl (Event.apply afterSeconds) marker)).1 = .reboot := by
  induction events generalizing marker with
  | nil => cases h
  | cons event events ih =>
    cases event with
    | replaced content =>
      obtain ⟨before, e, after, rfl, hu, hrun⟩ := ih h
      exact ⟨.replaced content :: before, e, after, rfl, hu, hrun⟩
    | execution e =>
      rw [rebootAt] at h
      split_ifs at h with hrun
      · cases h
        exact ⟨[], e, events, rfl, rfl, hrun⟩
      · obtain ⟨before, e', after, rfl, hu, hrun'⟩ := ih h
        exact ⟨.execution e :: before, e', after, rfl, hu, hrun'⟩

/-- A reboot comes within the boot, and no earlier than configured. -/
theorem rebootAt_bounds {afterSeconds : Nat} {boot : PastBoot} {u : Nat}
    (h : rebootAt afterSeconds none boot.events = some u) : afterSeconds ≤ u ∧ u ≤ boot.ended := by
  obtain ⟨before, e, after, hsplit, rfl, hrun⟩ := rebootAt_eq_some h
  refine ⟨(reboot_only_if hsplit hrun).2.1, boot.within e ?_⟩
  rw [hsplit]
  exact List.mem_append_right _ List.mem_cons_self

/-- In a series of boots, too, no reboot is asked for before the time is up. -/
theorem rebootTimes_ge {afterSeconds up : Nat} {boots : List PastBoot} {t : Nat}
    (h : t ∈ rebootTimes afterSeconds up boots) : up + afterSeconds ≤ t := by
  induction boots generalizing up with
  | nil => cases h
  | cons boot boots ih =>
    rw [rebootTimes, List.mem_append, Option.mem_toList, Option.map_eq_some_iff] at h
    rcases h with ⟨u, hu, rfl⟩ | hlater
    · have hbounds := rebootAt_bounds hu
      omega
    · have hle := ih hlater
      omega

/-- Two of the watchdog's reboots are `afterSeconds` of uptime apart. -/
theorem rebootTimes_apart (afterSeconds up : Nat) (boots : List PastBoot) :
    (rebootTimes afterSeconds up boots).Pairwise fun t t' => t + afterSeconds ≤ t' := by
  induction boots generalizing up with
  | nil => exact List.Pairwise.nil
  | cons boot boots ih =>
    rw [rebootTimes, List.pairwise_append]
    refine ⟨?_, ih _, ?_⟩
    · cases rebootAt afterSeconds none boot.events with
      | none => exact List.Pairwise.nil
      | some u => exact List.pairwise_singleton _ _
    · intro t ht t' ht'
      rw [Option.mem_toList, Option.map_eq_some_iff] at ht
      obtain ⟨u, hu, rfl⟩ := ht
      have hbounds := rebootAt_bounds hu
      have hlater := rebootTimes_ge ht'
      omega

/-- **The watchdog never reboot-loops.** In every boot, an execution reboots only after its
probe failed and `afterSeconds` of uptime, with the marker made unusable since the last
success or every success at least `afterSeconds` ago; an execution whose probe fails at a
recorded age of `afterSeconds` or more does reboot; and over the life of a host its reboots
are `afterSeconds` of uptime apart. -/
theorem watchdog_never_loops (afterSeconds : Nat) :
    (∀ (boot : Boot) (before after : List Event) (e : Execution),
      boot.events = before ++ .execution e :: after →
      ((e.run afterSeconds (markerAfter afterSeconds before)).1 = .reboot →
        e.failed = true ∧ afterSeconds ≤ e.now ∧
          (SpoiledSinceSuccess before ∨ ∀ e', .execution e' ∈ before → e'.succeeded = true →
            e'.now + afterSeconds ≤ e.now)) ∧
      (e.failed = true → afterSeconds ≤ e.now - (recorded before).getD 0 →
        (e.run afterSeconds (markerAfter afterSeconds before)).1 = .reboot)) ∧
    ∀ boots : List PastBoot,
      (rebootTimes afterSeconds 0 boots).Pairwise fun t t' => t + afterSeconds ≤ t' := by
  refine ⟨fun boot before after e hsplit => ⟨reboot_only_if hsplit, ?_⟩,
    rebootTimes_apart afterSeconds 0⟩
  exact fun hfailed hage => (reboot_iff afterSeconds hsplit).mpr ⟨hfailed, hage⟩

/-- A success after 100 seconds, and no answer at 800. -/
def sampleBoot : Boot where
  events := [.execution { now := 100, fits := by decide, status := .nxdomain },
    .execution { now := 800, fits := by decide, status := .noResponse }]
  ordered := by decide
  unusable content h := by simp at h

/-- The boot before this one went down soon after the reboot at 800. -/
def samplePast : PastBoot where
  toBoot := sampleBoot
  ended := 820
  within e h := by
    rcases List.mem_cons.mp h with heq | h
    · cases heq
      decide
    · cases List.mem_singleton.mp h
      decide

/-- The boot after it: a success after 60 seconds, the marker emptied, and no answer at 650. -/
def spoiledPast : PastBoot where
  events := [.execution { now := 60, fits := by decide, status := .noerror }, .replaced [],
    .execution { now := 650, fits := by decide, status := .noResponse }]
  ordered := by decide
  unusable content h := by
    obtain rfl : content = [] := by simpa using h
    rfl
  ended := 700
  within e h := by
    rcases List.mem_cons.mp h with heq | h
    · cases heq
      decide
    · rcases List.mem_cons.mp h with heq | h
      · cases heq
      · cases List.mem_singleton.mp h
        decide

/-- With a fuse of 600 seconds the second execution reboots, and so does the last of the next
boot, whose success is 590 seconds old but no longer on record. -/
theorem watchdog_never_loops_sample :
    (({ now := 800, fits := by decide, status := .noResponse } : Execution).run 600
      (markerAfter 600 [.execution { now := 100, fits := by decide, status := .nxdomain }])).1
      = .reboot ∧
    rebootTimes 600 0 [samplePast, spoiledPast] = [800, 820 + 650] ∧
    800 + 600 ≤ 820 + 650 := by
  obtain ⟨hboot, hlife⟩ := watchdog_never_loops 600
  have htimes : rebootTimes 600 0 [samplePast, spoiledPast] = [800, 820 + 650] := by
    decide +kernel
  have hapart := hlife [samplePast, spoiledPast]
  rw [htimes, List.pairwise_pair] at hapart
  refine ⟨?_, htimes, hapart⟩
  exact (hboot sampleBoot [.execution { now := 100, fits := by decide, status := .nxdomain }] []
    { now := 800, fits := by decide, status := .noResponse } rfl).2 rfl (by decide)

end HostServices.Scripts.Watchdog
