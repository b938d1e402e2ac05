import HostServices.Lib.Loop
import HostServices.TimeCorrection.Dns

/-!
# Skipping a name always ends (`time-correction/src/dns.rs`: `skip_name`)

The walk over a name moves forward over labels and anywhere by a pointer. It is taken here one
pass of its loop at a time, so that what bounds it can be seen: a counter of the pointers
followed, and the bytes that are left behind a label.

- `walkStep`: a pass of the loop;
- `MarkAt`: the first zero byte or pointer that labels lead to;
- `skipName_ends`: the walk ends, and what it gives back is decided where the mark stands.
-/

namespace HostServices.TimeCorrection.Dns

open HostServices.Lib

/-! ## The loop -/

/-- What the loop of `skip_name` carries from pass to pass. -/
structure Walk where
  offset : Nat
  jumps : Nat
  afterPointer : Option Nat

/-- A pass of the loop: it returns, or goes on. -/
def walkStep (message : List UInt8) (w : Walk) : Except Stop Nat ⊕ Walk :=
  match message[w.offset]? with
  | none => .inl (.error (.err s!"truncated name at {w.offset}"))
  | some length =>
    if length &&& 0xC0 = 0 then
      if length = 0 then .inl (.ok (w.afterPointer.getD (w.offset + 1)))
      else
        let next := w.offset + (1 + length.toNat)
        if message.length < next then
          .inl (.error (.err s!"label at {next} runs past the message"))
        else .inr { w with offset := next }
    else if length &&& 0xC0 = 0xC0 then
      match readU16 message w.offset with
      | .error e => .inl (.error e)
      | .ok word =>
        let pointer := (word &&& 0x3FFF).toNat
        let after := w.afterPointer.getD (w.offset + 2)
        if maxJumps < w.jumps + 1 then
          .inl (.error (.err ("compressed name exceeds the pointer limit; refusing to follow a " ++
            "possible loop")))
        else if message.length ≤ pointer then
          .inl (.error (.err s!"compression pointer to {pointer} is past the message"))
        else .inr { offset := pointer, jumps := w.jumps + 1, afterPointer := some after }
    else
      let other := if length &&& 0xC0 = 0x40 then "0x40" else "0x80"
      .inl (.error (.err s!"reserved label type {other} at {w.offset}"))

variable {message : List UInt8}

/-- The source's loop, one step at a time. -/
theorem skipNameFrom_walk (w : Walk) :
    skipNameFrom message w.offset w.jumps w.afterPointer
      = (walkStep message w).elim id fun w' =>
          skipNameFrom message w'.offset w'.jumps w'.afterPointer := by
  rw [skipNameFrom, walkStep]
  split
  · rename_i hnone
    rw [hnone]
    rfl
  · rename_i length hlength
    rw [hlength]
    dsimp only
    cases readU16 message w.offset with
    | error e => split_ifs <;> rfl
    | ok word =>
      dsimp only
      split_ifs <;> rfl

/-- The byte at the place of the walk is that of a pointer. -/
def atPointer (message : List UInt8) (w : Walk) : Bool :=
  message[w.offset]?.any fun length => length &&& 0xC0 = 0xC0

/-- **What a pass that goes on has done**: it has gone over a label, or has followed a pointer
that was still allowed. -/
theorem walkStep_cases {w w' : Walk} (h : walkStep message w = .inr w') :
    (atPointer message w = false ∧ w'.jumps = w.jumps ∧ w.offset < w'.offset ∧
      w'.offset ≤ message.length) ∨
    (atPointer message w = true ∧ w'.jumps = w.jumps + 1 ∧ w'.jumps ≤ maxJumps ∧
      w'.offset < message.length) := by
  rw [walkStep] at h
  split at h
  · cases h
  · rename_i length hlength
    dsimp only at h
    by_cases hlabel : length &&& 0xC0 = 0
    · rw [if_pos hlabel] at h
      split_ifs at h with hzero hpast
      cases h
      refine .inl ⟨?_, rfl, ?_, Nat.le_of_not_lt hpast⟩
      · rw [atPointer, hlength, Option.any_some, decide_eq_false_iff_not, hlabel]
        decide
      · show w.offset < w.offset + (1 + length.toNat)
        omega
    · rw [if_neg hlabel] at h
      by_cases hpointer : length &&& 0xC0 = 0xC0
      · rw [if_pos hpointer] at h
        cases hword : readU16 message w.offset with
        | error e =>
          rw [hword] at h
          cases h
        | ok word =>
          rw [hword] at h
          dsimp only at h
          split_ifs at h with hlimit htarget
          cases h
          refine .inr ⟨?_, rfl, Nat.le_of_not_lt hlimit, Nat.lt_of_not_le htarget⟩
          rw [atPointer, hlength, Option.any_some, decide_eq_true_iff]
          exact hpointer
      · rw [if_neg hpointer] at h
        cases h

/-- A pass that goes on makes this smaller: a pointer uses up one of the jumps, a label uses up
bytes. -/
def Walk.remaining (message : List UInt8) (w : Walk) : Nat :=
  (maxJumps - w.jumps) * (message.length + 1) + (message.length - w.offset)

/-- Every step leaves less to walk. -/
theorem remaining_lt {w w' : Walk} (h : walkStep message w = .inr w') :
    w'.remaining message < w.remaining message := by
  rw [Walk.remaining, Walk.remaining]
  rcases walkStep_cases h with ⟨_, hjumps, hforward, hinside⟩ | ⟨_, hjumps, hallowed, _⟩
  · rw [hjumps]
    omega
  · have hleft : maxJumps - w.jumps = (maxJumps - w'.jumps) + 1 := by omega
    rw [hleft, Nat.add_mul, Nat.one_mul]
    omega

/-- The walk ends, after so many passes and pointers. -/
theorem exists_walk (message : List UInt8) (start : Nat) :
    ∃ left, LoopRun (walkStep message) ⟨start, 0, none⟩ left (skipName message start) ∧
      left.length ≤ maxJumps * (message.length + 1) + message.length ∧
      left.countP (atPointer message) ≤ maxJumps := by
  obtain ⟨left, result, hrun, hlength⟩ :=
    LoopRun.exists_of_measure (Walk.remaining message) (fun _ _ => remaining_lt) ⟨start, 0, none⟩
  have hresult : skipName message start = result := hrun.eq_of_unfold skipNameFrom_walk
  have hpointer : ∀ w w', walkStep message w = .inr w' → atPointer message w = true →
      w'.jumps = w.jumps + 1 ∧ w'.jumps ≤ maxJumps := by
    intro w w' hstep hpointer
    rcases walkStep_cases hstep with ⟨hlabel, _⟩ | ⟨_, hraised, hallowed, _⟩
    · rw [hpointer] at hlabel
      cases hlabel
    · exact ⟨hraised, hallowed⟩
  have hlabel : ∀ w w', walkStep message w = .inr w' → atPointer message w = false →
      w'.jumps = w.jumps := by
    intro w w' hstep hlabel
    rcases walkStep_cases hstep with ⟨_, hsame, _⟩ | ⟨hpointer, _⟩
    · exact hsame
    · rw [hlabel] at hpointer
      cases hpointer
  have hjumps := hrun.count_add_le hpointer hlabel (Nat.zero_le _)
  refine ⟨left, hresult ▸ hrun, Nat.le_trans hlength ?_, hjumps⟩
  rw [Walk.remaining, Nat.sub_zero]
  omega

/-! ## Where a name ends -/

/-- Labels lead from `start` to the mark, and there stands a zero byte or a pointer. -/
inductive MarkAt (message : List UInt8) : (start mark : Nat) → Prop
  | root {start : Nat} : message[start]? = some 0 → MarkAt message start start
  | pointer {start : Nat} {hi : UInt8} : message[start]? = some hi → 192 ≤ hi.toNat →
      MarkAt message start start
  | label {start mark : Nat} {length : UInt8} : message[start]? = some length →
      1 ≤ length.toNat → length.toNat ≤ 63 →
      MarkAt message (start + (1 + length.toNat)) mark → MarkAt message start mark

/-- Just past the zero byte, or two past the start of the pointer. -/
def behindMark (message : List UInt8) (mark : Nat) : Nat :=
  if message[mark]? = some 0 then mark + 1 else mark + 2

theorem MarkAt.le {start mark : Nat} (h : MarkAt message start mark) : start ≤ mark := by
  induction h with
  | root => exact Nat.le_refl _
  | pointer => exact Nat.le_refl _
  | label _ _ _ _ ih => omega

/-- A name ends behind its first pointer, or behind its root. -/
theorem Name.exists_mark {start stop : Nat} (h : Name message start stop) :
    ∃ mark, MarkAt message start mark ∧ stop = behindMark message mark ∧
      stop ≤ message.length := by
  induction h with
  | @root start h =>
    have hlt := (List.getElem?_eq_some_iff.mp h).1
    exact ⟨start, .root h, by rw [behindMark, if_pos h], hlt⟩
  | label h hpos hle _ ih =>
    obtain ⟨mark, hmark, hstop, hinside⟩ := ih
    exact ⟨mark, .label h hpos hle hmark, hstop, hinside⟩
  | @pointer start hi h h192 hexpands =>
    have hnot : message[start]? ≠ some 0 := by
      intro hzero
      rw [h] at hzero
      cases hzero
      exact absurd h192 (by decide)
    refine ⟨start, .pointer h h192, by rw [behindMark, if_neg hnot], ?_⟩
    -- the second byte of the pointer is there
    cases hexpands with
    | root hzero => exact absurd hzero hnot
    | label h' hpos hle =>
      rw [h] at h'
      cases h'
      omega
    | pointer _ _ hlo => exact (List.getElem?_eq_some_iff.mp hlo).1

/-- The mark is found in every message that has the same bytes up to it, and only there. -/
theorem MarkAt.unique {message' : List UInt8} {start mark mark' : Nat}
    (h : MarkAt message start mark)
    (hsame : ∀ i, start ≤ i → i ≤ mark → message'[i]? = message[i]?)
    (h' : MarkAt message' start mark') : mark' = mark := by
  induction h generalizing mark' with
  | root h =>
    have hbyte := hsame _ (Nat.le_refl _) (Nat.le_refl _)
    rw [h] at hbyte
    cases h' with
    | root => rfl
    | pointer => rfl
    | label hlabel hpos =>
      rw [hbyte] at hlabel
      cases hlabel
      exact absurd hpos (by decide)
  | pointer h h192 =>
    have hbyte := hsame _ (Nat.le_refl _) (Nat.le_refl _)
    rw [h] at hbyte
    cases h' with
    | root => rfl
    | pointer => rfl
    | label hlabel _ hle =>
      rw [hbyte] at hlabel
      cases hlabel
      omega
  | label h hpos hle hrest ih =>
    have hforward := hrest.le
    have hbyte := hsame _ (Nat.le_refl _) (by omega)
    rw [h] at hbyte
    cases h' with
    | root hzero =>
      rw [hbyte] at hzero
      cases hzero
      exact absurd hpos (by decide)
    | pointer hpointer h192 =>
      rw [hbyte] at hpointer
      cases hpointer
      omega
    | label hlabel _ _ hrest' =>
      rw [hbyte] at hlabel
      cases hlabel
      exact ih (fun i hlow hhigh => hsame i (by omega) hhigh) hrest'

/-- **Skipping a name always ends**, on every message and from every place, after no more than
64 pointers; and a name that is skipped ends where its first zero byte or pointer says, whatever
stands behind that byte. -/
theorem skipName_ends (message : List UInt8) (start : Nat) :
    (∃ left, LoopRun (walkStep message) ⟨start, 0, none⟩ left (skipName message start) ∧
      left.length ≤ 64 * (message.length + 1) + message.length ∧
      left.countP (atPointer message) ≤ 64) ∧
    ∀ stop, skipName message start = .ok stop →
      start < stop ∧ stop ≤ message.length ∧
      ∃ mark, MarkAt message start mark ∧ stop = behindMark message mark ∧
        ∀ message' stop', (∀ i, start ≤ i → i ≤ mark → message'[i]? = message[i]?) →
          skipName message' start = .ok stop' → stop' = stop := by
  refine ⟨exists_walk message start, fun stop h => ?_⟩
  obtain ⟨mark, hmark, hstop, hinside⟩ := (skipName_eq_ok.mp h).exists_mark
  have hforward := hmark.le
  refine ⟨?_, hinside, mark, hmark, hstop, fun message' stop' hsame h' => ?_⟩
  · rw [hstop, behindMark]
    split_ifs
    · omega
    · omega
  · obtain ⟨mark', hmark', hstop', _⟩ := (skipName_eq_ok.mp h').exists_mark
    obtain rfl := hmark.unique hsame hmark'
    rw [hstop', hstop, behindMark, behindMark, hsame _ hforward (Nat.le_refl _)]

end HostServices.TimeCorrection.Dns
