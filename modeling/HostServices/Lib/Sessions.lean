import HostServices.Lib.Protocol

/-!
# Sessions on a shared thing

Several users take a thing, touch it and leave it. Some of them keep to the rule that only the
owner may touch it. A log of what they did is serial if every touch by one of these is by the
only owner there is at the time.

- `Use`, `Use.next`: the log, and who owns the thing behind it;
- `session_of_follows`: during a session nobody else who keeps to the rule touches the thing;
- `touch_of_follows`: every touch by one who does is part of a session.
-/

namespace HostServices.Lib

variable {P α : Type}

/-- A use of the resource: it is taken, touched or left. -/
inductive Use (P α : Type)
  | take (p : P)
  | touch (p : P) (a : α)
  | leave (p : P)
  deriving DecidableEq, Repr

variable [DecidableEq P] {keeps : P → Bool}

/-- The owner behind one more entry, if it may be made: who `keeps` to the rule touches the
thing only as its owner. Nothing is left by someone who does not own the thing. -/
def Use.next (keeps : P → Bool) (owner : Option P) : Use P α → Option (Option P)
  | .take p => if owner = none then some (some p) else none
  | .touch p _ => if keeps p → owner = some p then some owner else none
  | .leave p => some (if owner = some p then none else owner)

/-- A resource is taken when nobody has it. -/
theorem Use.next_take {owner : Option P} {p : P} {owner' : Option P} :
    next keeps owner (.take p : Use P α) = some owner' ↔ owner = none ∧ owner' = some p := by
  rw [next, Option.ite_none_right_eq_some, Option.some_inj, eq_comm (a := some p)]

/-- Those who keep the rule touch only what they have. -/
theorem Use.next_touch {owner owner' : Option P} {p : P} {a : α} :
    next keeps owner (.touch p a) = some owner' ↔
      (keeps p → owner = some p) ∧ owner' = owner := by
  rw [next, Option.ite_none_right_eq_some, Option.some_inj]
  exact and_congr_right fun _ => eq_comm

/-- What was taken is kept, and touched by nobody else who keeps to the rule, until it is
left. -/
theorem kept_of_follows {p : P} {owner : Option P} {log : List (Use P α)}
    (h : follows (Use.next keeps) (some p) log = some owner) (hleave : .leave p ∉ log) :
    owner = some p ∧ ∀ q a, .touch q a ∈ log → keeps q → q = p := by
  induction log with
  | nil =>
    cases h
    exact ⟨rfl, fun _ _ hmem => nomatch hmem⟩
  | cons u log ih =>
    obtain ⟨mid, hu, hrest⟩ := follows_cons.mp h
    have hmid : mid = some p ∧ ∀ q a, u = .touch q a → keeps q → q = p := by
      cases u with
      | take q => cases (Use.next_take.mp hu).1
      | touch q a =>
        obtain ⟨hq, rfl⟩ := Use.next_touch.mp hu
        refine ⟨rfl, fun q' a' heq hkeeps => ?_⟩
        cases heq
        exact (Option.some_inj.mp (hq hkeeps)).symm
      | leave q =>
        have hne : some p ≠ some q := by
          rintro ⟨⟩
          exact hleave List.mem_cons_self
        rw [Use.next, if_neg hne] at hu
        cases hu
        exact ⟨rfl, nofun⟩
    obtain ⟨rfl, htouch⟩ := hmid
    obtain ⟨howner, hlog⟩ := ih hrest fun hmem => hleave (List.mem_cons_of_mem _ hmem)
    refine ⟨howner, fun q a hmem => ?_⟩
    rcases List.mem_cons.mp hmem with heq | hmem
    · exact htouch q a heq.symm
    · exact hlog q a hmem

/-- **During a session nobody else who keeps to the rule touches the thing.** -/
theorem session_of_follows {p : P} {owner : Option P} {before session : List (Use P α)}
    (h : follows (Use.next keeps) none (before ++ .take p :: session) = some owner)
    (hleave : .leave p ∉ session) :
    owner = some p ∧ ∀ q a, .touch q a ∈ session → keeps q → q = p := by
  obtain ⟨mid, -, hrest⟩ := follows_append.mp h
  obtain ⟨mid', htake, hsession⟩ := follows_cons.mp hrest
  obtain ⟨-, rfl⟩ := Use.next_take.mp htake
  exact kept_of_follows hsession hleave

/-- Every touch in a serial log by one who keeps to the rule is part of a session of theirs. -/
theorem touch_of_follows {p : P} {a : α} {owner : Option P} {log rest : List (Use P α)}
    (h : follows (Use.next keeps) none (log ++ .touch p a :: rest) = some owner)
    (hkeeps : keeps p) :
    ∃ before session, log = before ++ .take p :: session ∧ .leave p ∉ session := by
  obtain ⟨mid, hlog, hrest⟩ := follows_append.mp h
  obtain ⟨mid', htouch, -⟩ := follows_cons.mp hrest
  obtain rfl := (Use.next_touch.mp htouch).1 hkeeps
  obtain ⟨before, u, session, owner₁, owner₂, rfl, -, hnot, hu, rfl, hkept⟩ :=
    last_entry (P := (· = some p)) hlog nofun rfl
  have htake : u = .take p := by
    cases u with
    | take q =>
      obtain ⟨-, heq⟩ := Use.next_take.mp hu
      cases heq
      rfl
    | touch q b =>
      obtain ⟨-, heq⟩ := Use.next_touch.mp hu
      exact absurd heq.symm hnot
    | leave q =>
      rw [Use.next, Option.some_inj] at hu
      split_ifs at hu
      exact absurd hu hnot
  refine ⟨before, session, by rw [htake], fun hmem => ?_⟩
  obtain ⟨front, back, rfl⟩ := List.append_of_mem hmem
  obtain ⟨t, t', rfl, hleave, rfl⟩ := hkept.entry rfl
  rw [Use.next, if_pos rfl] at hleave
  cases hleave

end HostServices.Lib
