import HostServices.Lib.Bytes
import HostServices.Lib.Fallible
import HostServices.Lib.FromStr

/-!
# Reading a DNS answer (`time-correction/src/dns.rs`)

A name is a run of labels, and any part of it may be a pointer to another place of the
message. The parser skips names and takes addresses; it bounds the pointers it follows.

- `skipName`, `parseResponse`: the source's functions, with the panics an index past
  the end would be;
- `Expands`, `Name`, `Questions`, `Answers`, `Layout`: the grammar of an answer, without
  a walk;
- `skipName_eq_ok`: a name is skipped exactly if it is one;
- `accepts_exactly_answers`: what is accepted, and what is taken from it.
-/

namespace HostServices.TimeCorrection.Dns

open HostServices.Lib

def typeA : UInt16 := 1
def typeAaaa : UInt16 := 28
def classIn : UInt16 := 1

/-- Maximum pointer hops while expanding one name. -/
def maxJumps : Nat := 64

/-! ## The code -/

/-- `u16_at`. -/
def readU16 (message : List UInt8) (offset : Nat) : Except Stop UInt16 :=
  match slice message offset (offset + 2) with
  | none => .error (.err s!"truncated message: wanted 2 bytes at {offset}")
  | some bytes => do
    let hi ← index bytes 0
    let lo ← index bytes 1
    .ok (UInt16.ofNat (beNat [hi, lo]))

/-- The loop of `skip_name`. -/
def skipNameFrom (message : List UInt8) (offset jumps : Nat) (afterPointer : Option Nat) :
    Except Stop Nat :=
  match _hlength : message[offset]? with
  | none => .error (.err s!"truncated name at {offset}")
  | some length =>
    if length &&& 0xC0 = 0 then
      if length = 0 then .ok (afterPointer.getD (offset + 1))
      else
        let next := offset + (1 + length.toNat)
        if message.length < next then .error (.err s!"label at {next} runs past the message")
        else skipNameFrom message next jumps afterPointer
    else if length &&& 0xC0 = 0xC0 then
      match readU16 message offset with
      | .error e => .error e
      | .ok word =>
        let pointer := (word &&& 0x3FFF).toNat
        -- the first pointer ends the name as far as the caller is concerned
        let after := afterPointer.getD (offset + 2)
        if maxJumps < jumps + 1 then
          .error (.err ("compressed name exceeds the pointer limit; refusing to follow a " ++
            "possible loop"))
        else if message.length ≤ pointer then
          .error (.err s!"compression pointer to {pointer} is past the message")
        else skipNameFrom message pointer (jumps + 1) (some after)
    else
      let other := if length &&& 0xC0 = 0x40 then "0x40" else "0x80"
      .error (.err s!"reserved label type {other} at {offset}")
termination_by (maxJumps - jumps, message.length - offset)
decreasing_by
  · have hlt := (List.getElem?_eq_some_iff.mp _hlength).1
    apply Prod.Lex.right
    omega
  · apply Prod.Lex.left
    omega

/-- Walk a name, returning the offset just past it in the original stream. -/
def skipName (message : List UInt8) (start : Nat) : Except Stop Nat :=
  skipNameFrom message start 0 none

/-- The questions, each a name with its type and class. -/
def skipQuestions (message : List UInt8) : Nat → Nat → Except Stop Nat
  | 0, offset => .ok offset
  | questions + 1, offset => do
    let offset ← skipName message offset
    if message.length < offset + 4 then
      .error (.err "question section runs past the message")
    else skipQuestions message questions (offset + 4)

/-- What one record adds to the addresses. A `CNAME`, like every other type that was not
asked for, adds nothing. -/
def takeRecord (qtype rtype rclass rdlength : UInt16) (rdata : List UInt8)
    (found : List IpAddr) : Except Stop (List IpAddr) :=
  if rclass ≠ classIn then .ok found
  else if rtype = typeA ∧ qtype = typeA ∧ rdlength = 4 then do
    let a ← index rdata 0
    let b ← index rdata 1
    let c ← index rdata 2
    let d ← index rdata 3
    .ok (found ++ [.v4 (BitVec.ofNat 32 (beNat [a, b, c, d]))])
  else if rtype = typeAaaa ∧ qtype = typeAaaa ∧ rdlength = 16 then
    -- `copy_from_slice` panics on any other length
    if rdata.length ≠ 16 then .error (.panic "source slice length does not match")
    else .ok (found ++ [.v6 (BitVec.ofNat 128 (beNat rdata))])
  else if rtype = typeA ∧ qtype = typeA then
    .error (.err s!"A record with {rdlength} bytes of data")
  else if rtype = typeAaaa ∧ qtype = typeAaaa then
    .error (.err s!"AAAA record with {rdlength} bytes of data")
  else .ok found

/-- The answer section. -/
def readAnswers (message : List UInt8) (qtype : UInt16) :
    Nat → Nat → List IpAddr → Except Stop (List IpAddr)
  | 0, _, found => .ok found
  | answers + 1, offset, found => do
    let offset ← skipName message offset
    let rtype ← readU16 message offset
    let rclass ← readU16 message (offset + 2)
    let rdlength ← readU16 message (offset + 8)
    let start := offset + 10
    match slice message start (start + rdlength.toNat) with
    | none => .error (.err s!"record data at {start} runs past the message")
    | some rdata => do
      let found ← takeRecord qtype rtype rclass rdlength rdata found
      readAnswers message qtype answers (start + rdlength.toNat) found

/-- The addresses a response carries for the question that was asked. -/
def parseResponse (message : List UInt8) (id qtype : UInt16) : Except Stop (List IpAddr) :=
  if message.length < 12 then
    .error (.err s!"response is {message.length} bytes, shorter than a header")
  else do
    let got ← readU16 message 0
    if got ≠ id then .error (.err "response id does not match the query")
    else
      let flags ← readU16 message 2
      let rcode := flags &&& 0x000F
      if flags &&& 0x8000 = 0 then .error (.err "response is not marked as a response")
      else if flags &&& 0x0200 ≠ 0 then .error (.err "response is truncated")
      else if rcode ≠ 0 then .error (.err s!"resolver returned rcode {rcode}")
      else
        let questions ← readU16 message 4
        let answers ← readU16 message 6
        let offset ← skipQuestions message questions.toNat 12
        let found ← readAnswers message qtype answers.toNat offset []
        if found = [] then .error (.err "no address records in the answer") else .ok found

/-! ## The grammar of an answer -/

/-- From `offset` on, labels and at most `hops` pointers lead to a zero byte. -/
inductive Expands (message : List UInt8) : (hops offset : Nat) → Prop
  | root {hops offset : Nat} : message[offset]? = some 0 → Expands message hops offset
  | label {hops offset : Nat} {length : UInt8} : message[offset]? = some length →
      1 ≤ length.toNat → length.toNat ≤ 63 →
      Expands message hops (offset + (1 + length.toNat)) → Expands message hops offset
  | pointer {hops offset : Nat} {hi lo : UInt8} : message[offset]? = some hi →
      192 ≤ hi.toNat → message[offset + 1]? = some lo →
      Expands message hops ((hi.toNat - 192) * 256 + lo.toNat) →
      Expands message (hops + 1) offset

/-- A name from `start` up to `stop`: labels, and then a zero byte or a pointer that
expands within the message. -/
inductive Name (message : List UInt8) : (start stop : Nat) → Prop
  | root {start : Nat} : message[start]? = some 0 → Name message start (start + 1)
  | label {start stop : Nat} {length : UInt8} : message[start]? = some length →
      1 ≤ length.toNat → length.toNat ≤ 63 →
      Name message (start + (1 + length.toNat)) stop → Name message start stop
  | pointer {start : Nat} {hi : UInt8} : message[start]? = some hi → 192 ≤ hi.toNat →
      Expands message maxJumps start → Name message start (start + 2)

/-- `count` questions from `start` up to `stop`: a name each, and four bytes. -/
inductive Questions (message : List UInt8) : (count start stop : Nat) → Prop
  | none {start : Nat} : Questions message 0 start start
  | more {count start named stop : Nat} : Name message start named →
      named + 4 ≤ message.length → Questions message count (named + 4) stop →
      Questions message (count + 1) start stop

/-- A resource record, without its owner and its time to live. -/
structure Resource where
  rtype : UInt16
  rclass : UInt16
  data : List UInt8
  deriving DecidableEq, Repr

/-- The record stands between `start` and `stop`: a name, ten bytes, and its data. -/
structure ResourceAt (message : List UInt8) (start : Nat) (r : Resource) (stop : Nat) :
    Prop where
  header : ∃ named, Name message start named ∧ named + 10 ≤ message.length ∧
    r.rtype = u16At message named ∧ r.rclass = u16At message (named + 2) ∧
    stop = named + 10 + (u16At message (named + 8)).toNat ∧
    slice message (named + 10) stop = some r.data

/-- `count` records from `start` on. -/
inductive Answers (message : List UInt8) : (count start : Nat) → List Resource → Prop
  | none {start : Nat} : Answers message 0 start []
  | more {count start stop : Nat} {r : Resource} {rest : List Resource} :
      ResourceAt message start r stop → Answers message count stop rest →
      Answers message (count + 1) start (r :: rest)

/-- A header of twelve bytes, the questions and the records it counts, one right after
the other. -/
structure Layout (message : List UInt8) (resources : List Resource) : Prop where
  header : 12 ≤ message.length
  sections : ∃ stop, Questions message (u16At message 4).toNat 12 stop ∧
    Answers message (u16At message 6).toNat stop resources

/-! ## Names -/

theorem readU16_of_le {message : List UInt8} {offset : Nat}
    (h : offset + 2 ≤ message.length) :
    readU16 message offset = .ok (u16At message offset) := by
  have hslice := slice_of_le (show offset ≤ offset + 2 by omega) h
  rw [Nat.add_sub_cancel_left] at hslice
  have hlen := length_of_slice hslice
  rw [readU16, hslice]
  dsimp only
  obtain ⟨hi, lo, hbytes⟩ := List.length_eq_two.mp (hlen.trans (by omega))
  rw [hbytes, u16At, hbytes]
  rfl

/-- Two bytes are read where there are two. -/
theorem readU16_eq_ok {message : List UInt8} {offset : Nat} {word : UInt16} :
    readU16 message offset = .ok word ↔
      offset + 2 ≤ message.length ∧ word = u16At message offset := by
  by_cases h : offset + 2 ≤ message.length
  · rw [readU16_of_le h]
    constructor
    · intro hword
      cases hword
      exact ⟨h, rfl⟩
    · rintro ⟨-, rfl⟩
      rfl
  · have hslice : slice message offset (offset + 2) = none := if_neg fun hle => h hle.2
    rw [readU16, hslice]
    constructor
    · intro hword
      cases hword
    · rintro ⟨hle, -⟩
      exact absurd hle h

theorem noPanic_readU16 (message : List UInt8) (offset : Nat) :
    NoPanic (readU16 message offset) := by
  by_cases h : offset + 2 ≤ message.length
  · rw [readU16_of_le h]
    exact .ok _
  · have hslice : slice message offset (offset + 2) = none := if_neg fun hle => h hle.2
    rw [readU16, hslice]
    exact .err _

/-- The two high bits of a length byte. -/
theorem and_eq_zero_iff (length : UInt8) : length &&& 0xC0 = 0 ↔ length.toNat < 64 := by
  have h : ∀ n : Fin 256, UInt8.ofFin n &&& 0xC0 = 0 ↔ (UInt8.ofFin n).toNat < 64 := by
    decide +kernel
  exact h length.toFin

theorem and_eq_pointer_iff (length : UInt8) : length &&& 0xC0 = 0xC0 ↔ 192 ≤ length.toNat := by
  have h : ∀ n : Fin 256, UInt8.ofFin n &&& 0xC0 = 0xC0 ↔ 192 ≤ (UInt8.ofFin n).toNat := by
    decide +kernel
  exact h length.toFin

/-- The target of a pointer is its word without the two high bits. -/
theorem pointer_target {message : List UInt8} {offset : Nat} {hi lo : UInt8}
    (hhi : message[offset]? = some hi) (h192 : 192 ≤ hi.toNat)
    (hlo : message[offset + 1]? = some lo) :
    (u16At message offset &&& 0x3FFF).toNat = (hi.toNat - 192) * 256 + lo.toNat := by
  obtain ⟨hlt, hhi⟩ := List.getElem?_eq_some_iff.mp hhi
  obtain ⟨hlt', hlo⟩ := List.getElem?_eq_some_iff.mp hlo
  have hdrop : (message.drop offset).take 2 = [hi, lo] := by
    rw [List.drop_eq_getElem_cons hlt, List.drop_eq_getElem_cons hlt', hhi, hlo]
    rfl
  have hlob := lo.toNat_lt
  have hhib := hi.toNat_lt
  have hword : (u16At message offset).toNat = hi.toNat * 256 + lo.toNat := by
    rw [u16At, hdrop]
    show (UInt16.ofNat (256 * (256 * 0 + hi.toNat) + lo.toNat)).toNat = _
    rw [UInt16.toNat_ofNat']
    omega
  have hmask : (u16At message offset &&& 0x3FFF).toNat = (u16At message offset).toNat % 2 ^ 14 := by
    rw [UInt16.toNat_and]
    exact Nat.and_two_pow_sub_one_eq_mod _ 14
  rw [hmask, hword]
  omega

section Walk

variable {message : List UInt8} {offset jumps : Nat} {after : Option Nat}

/-- A name ends with the root. -/
theorem skipNameFrom_root (h : message[offset]? = some 0) :
    skipNameFrom message offset jumps after = .ok (after.getD (offset + 1)) := by
  rw [skipNameFrom]
  split
  · rename_i hnone
    rw [h] at hnone
    cases hnone
  · rename_i length hlength
    rw [h] at hlength
    cases hlength
    rfl

/-- A label is skipped. -/
theorem skipNameFrom_label {length : UInt8} (h : message[offset]? = some length)
    (hpos : 1 ≤ length.toNat) (hle : length.toNat ≤ 63)
    (hfits : offset + (1 + length.toNat) ≤ message.length) :
    skipNameFrom message offset jumps after =
      skipNameFrom message (offset + (1 + length.toNat)) jumps after := by
  rw [skipNameFrom.eq_def message offset]
  split
  · rename_i hnone
    rw [h] at hnone
    cases hnone
  · rename_i length' hlength
    rw [h] at hlength
    cases hlength
    have hne : length ≠ 0 := by
      rintro rfl
      exact absurd hpos (by decide)
    rw [if_pos ((and_eq_zero_iff length).mpr (by omega)), if_neg hne, if_neg (by omega)]

/-- A pointer is followed, and the first one fixes where the name ends. -/
theorem skipNameFrom_pointer {hi lo : UInt8} (hhi : message[offset]? = some hi)
    (h192 : 192 ≤ hi.toNat) (hlo : message[offset + 1]? = some lo) (hjumps : jumps < maxJumps)
    (htarget : (hi.toNat - 192) * 256 + lo.toNat < message.length) :
    skipNameFrom message offset jumps after =
      skipNameFrom message ((hi.toNat - 192) * 256 + lo.toNat) (jumps + 1)
        (some (after.getD (offset + 2))) := by
  have hlt := (List.getElem?_eq_some_iff.mp hlo).1
  rw [skipNameFrom.eq_def message offset]
  split
  · rename_i hnone
    rw [hhi] at hnone
    cases hnone
  · rename_i length hlength
    rw [hhi] at hlength
    cases hlength
    rw [if_neg (by rw [and_eq_zero_iff]; omega), if_pos ((and_eq_pointer_iff hi).mpr h192),
      readU16_of_le (by omega)]
    dsimp only
    rw [pointer_target hhi h192 hlo, if_neg (by omega), if_neg (by omega)]

end Walk

theorem Expands.lt_length {message : List UInt8} {hops offset : Nat}
    (h : Expands message hops offset) : offset < message.length := by
  cases h with
  | root h => exact (List.getElem?_eq_some_iff.mp h).1
  | label h => exact (List.getElem?_eq_some_iff.mp h).1
  | pointer h => exact (List.getElem?_eq_some_iff.mp h).1

theorem Name.lt_length {message : List UInt8} {start stop : Nat} (h : Name message start stop) :
    start < message.length := by
  cases h with
  | root h => exact (List.getElem?_eq_some_iff.mp h).1
  | label h => exact (List.getElem?_eq_some_iff.mp h).1
  | pointer h => exact (List.getElem?_eq_some_iff.mp h).1

/-- The walk that has followed a pointer gets to the end of an expansion whose hops are
still allowed, and gives back the place behind the first pointer. -/
theorem skipNameFrom_of_expands {message : List UInt8} {hops offset : Nat}
    (h : Expands message hops offset) {jumps : Nat} (hjumps : jumps + hops ≤ maxJumps)
    (after : Nat) : skipNameFrom message offset jumps (some after) = .ok after := by
  induction h generalizing jumps with
  | root h => rw [skipNameFrom_root h, Option.getD_some]
  | label h hpos hle hrest ih =>
    have hlt := hrest.lt_length
    rw [skipNameFrom_label h hpos hle (by omega)]
    exact ih hjumps
  | pointer hhi h192 hlo hrest ih =>
    rw [skipNameFrom_pointer hhi h192 hlo (by omega) hrest.lt_length, Option.getD_some]
    exact ih (by omega)

/-- A well-formed name is skipped. -/
theorem skipName_of_name {message : List UInt8} {start stop : Nat}
    (h : Name message start stop) : skipName message start = .ok stop := by
  unfold skipName
  induction h with
  | root h => rw [skipNameFrom_root h, Option.getD_none]
  | label h hpos hle hrest ih =>
    have hlt := hrest.lt_length
    rw [skipNameFrom_label h hpos hle (by omega)]
    exact ih
  | pointer hhi h192 hexpands =>
    -- the expansion begins with this very pointer
    cases hexpands with
    | root h =>
      rw [hhi] at h
      cases h
      exact absurd h192 (by decide)
    | label h hpos hle hrest =>
      rw [hhi] at h
      cases h
      omega
    | pointer hhi' h192' hlo hrest =>
      rw [skipNameFrom_pointer hhi' h192' hlo (by decide) hrest.lt_length, Option.getD_none]
      exact skipNameFrom_of_expands hrest (by decide) _

/-- What a walk that ends has walked over. Before the first pointer no hop has been made;
behind it the place to go on from is fixed. -/
theorem expands_of_skipNameFrom {message : List UInt8} {offset jumps stop : Nat}
    {after : Option Nat} (hjumps : jumps ≤ maxJumps) (hfirst : after = none → jumps = 0)
    (h : skipNameFrom message offset jumps after = .ok stop) :
    Expands message (maxJumps - jumps) offset ∧ (after = none → Name message offset stop) ∧
      ∀ behind, after = some behind → stop = behind := by
  fun_induction skipNameFrom message offset jumps after with
  | case1 => cases h
  | case2 offset jumps after hlength hlabel =>
    refine ⟨.root hlength, ?_, ?_⟩
    · rintro rfl
      cases h
      exact .root hlength
    · rintro behind rfl
      cases h
      rfl
  | case3 => cases h
  | case4 offset jumps after length hlength hlabel hzero next hfits ih =>
    have hpos : 1 ≤ length.toNat := by
      rw [Nat.one_le_iff_ne_zero]
      intro h0
      exact hzero (UInt8.toNat_inj.mp h0)
    have hle : length.toNat < 64 := (and_eq_zero_iff length).mp hlabel
    obtain ⟨hexpands, hname, hbehind⟩ := ih hjumps hfirst h
    refine ⟨.label hlength hpos (by omega) hexpands, ?_, hbehind⟩
    intro hnone
    exact .label hlength hpos (by omega) (hname hnone)
  | case5 => cases h
  | case6 => cases h
  | case7 => cases h
  | case8 offset jumps after hi hhi hlabel hpointer word hword target behind hcount hin ih =>
    have h192 := (and_eq_pointer_iff hi).mp hpointer
    obtain ⟨hle, rfl⟩ := readU16_eq_ok.mp hword
    have hlo : message[offset + 1]? = some message[offset + 1] :=
      List.getElem?_eq_getElem (by omega)
    have htarget := pointer_target hhi h192 hlo
    obtain ⟨hrest, -, hbehind⟩ := ih (by omega) (by intro hnone; cases hnone) h
    have hexpands : Expands message (maxJumps - jumps) offset := by
      have hhops : maxJumps - jumps = (maxJumps - (jumps + 1)) + 1 := by omega
      rw [hhops]
      refine .pointer hhi h192 hlo ?_
      rw [← htarget]
      exact hrest
    have hstop : stop = after.getD (offset + 2) := hbehind _ rfl
    refine ⟨hexpands, ?_, ?_⟩
    · -- the first pointer: all of the allowed hops are still there
      rintro rfl
      rw [hfirst rfl] at hexpands
      rw [hstop]
      exact .pointer hhi h192 hexpands
    · rintro first rfl
      exact hstop
  | case9 => cases h

/-- **A name is skipped exactly if it is one.** -/
theorem skipName_eq_ok {message : List UInt8} {start stop : Nat} :
    skipName message start = .ok stop ↔ Name message start stop := by
  constructor
  · intro h
    exact (expands_of_skipNameFrom (Nat.zero_le _) (fun _ => rfl) h).2.1 rfl
  · exact skipName_of_name

theorem noPanic_skipName (message : List UInt8) (start : Nat) :
    NoPanic (skipName message start) := by
  have hfrom : ∀ offset jumps after, NoPanic (skipNameFrom message offset jumps after) := by
    intro offset jumps after
    fun_induction skipNameFrom message offset jumps after with
    | case1 => exact .err _
    | case2 => exact .ok _
    | case3 => exact .err _
    | case4 => assumption
    | case5 offset jumps after length hlength hlabel hpointer e he =>
      intro message' hpanic
      cases hpanic
      exact noPanic_readU16 _ _ _ he
    | case6 => exact .err _
    | case7 => exact .err _
    | case8 => assumption
    | case9 => exact .err _
  exact hfrom start 0 none

/-! ## Questions and records -/

/-- The questions are skipped just if they are well formed. -/
theorem skipQuestions_eq_ok {message : List UInt8} {count start stop : Nat} :
    skipQuestions message count start = .ok stop ↔ Questions message count start stop := by
  induction count generalizing start with
  | zero =>
    constructor
    · intro h
      cases h
      exact .none
    · intro h
      cases h
      rfl
  | succ count ih =>
    rw [skipQuestions, bind_eq_ok]
    constructor
    · rintro ⟨named, hname, h⟩
      split_ifs at h with hfits
      exact .more (skipName_eq_ok.mp hname) (Nat.le_of_not_lt hfits) (ih.mp h)
    · rintro (_ | ⟨hname, hfits, hrest⟩)
      refine ⟨_, skipName_eq_ok.mpr hname, ?_⟩
      rw [if_neg (Nat.not_lt_of_le hfits)]
      exact ih.mpr hrest

theorem noPanic_skipQuestions (message : List UInt8) (count start : Nat) :
    NoPanic (skipQuestions message count start) := by
  induction count generalizing start with
  | zero => exact .ok _
  | succ count ih =>
    refine (noPanic_skipName message start).bind ?_
    intro named _
    by_cases hfits : message.length < named + 4
    · rw [if_pos hfits]
      exact .err _
    · rw [if_neg hfits]
      exact ih _

/-- The records that were asked for. -/
def Asked (qtype : UInt16) (r : Resource) : Prop := r.rclass = classIn ∧ r.rtype = qtype

instance decidableAsked (qtype : UInt16) (r : Resource) : Decidable (Asked qtype r) :=
  inferInstanceAs (Decidable (_ ∧ _))

/-- The bytes of an address of the asked type. -/
def addressSize (qtype : UInt16) : Nat := if qtype = typeA then 4 else 16

/-- The address in the data of a record of the asked type. -/
def address (qtype : UInt16) (data : List UInt8) : IpAddr :=
  if qtype = typeA then .v4 (BitVec.ofNat 32 (beNat data))
  else .v6 (BitVec.ofNat 128 (beNat data))

/-- The addresses of the records that were asked for, in order. -/
def addresses (qtype : UInt16) (resources : List Resource) : List IpAddr :=
  (resources.filter fun r => Asked qtype r).map fun r => address qtype r.data

/-- Every record that was asked for carries as many bytes as an address has. -/
def WellSized (qtype : UInt16) (resources : List Resource) : Prop :=
  ∀ r ∈ resources, Asked qtype r → r.data.length = addressSize qtype

section Record

variable {qtype rtype rclass rdlength : UInt16} {rdata : List UInt8}

/-- A record of another type is left out. -/
theorem takeRecord_of_not_asked (h : ¬ Asked qtype ⟨rtype, rclass, rdata⟩)
    (found : List IpAddr) : takeRecord qtype rtype rclass rdlength rdata found = .ok found := by
  rw [takeRecord]
  by_cases hclass : rclass = classIn
  · have hne : ∀ t, ¬ (rtype = t ∧ qtype = t) := by
      rintro t ⟨rfl, rfl⟩
      exact h ⟨hclass, rfl⟩
    rw [if_neg (not_not.mpr hclass), if_neg fun h => hne _ ⟨h.1, h.2.1⟩,
      if_neg fun h => hne _ ⟨h.1, h.2.1⟩, if_neg (hne _), if_neg (hne _)]
  · rw [if_pos hclass]

/-- An address of the right size is taken. -/
theorem takeRecord_of_sized (hq : qtype = typeA ∨ qtype = typeAaaa)
    (hlength : rdlength.toNat = rdata.length) (h : Asked qtype ⟨rtype, rclass, rdata⟩)
    (hsize : rdata.length = addressSize qtype) (found : List IpAddr) :
    takeRecord qtype rtype rclass rdlength rdata found =
      .ok (found ++ [address qtype rdata]) := by
  obtain ⟨hclass, htype⟩ := h
  have hclass : rclass = classIn := hclass
  have htype : rtype = qtype := htype
  subst htype
  rw [takeRecord, if_neg (not_not.mpr hclass), address]
  rw [addressSize] at hsize
  rcases hq with rfl | rfl
  · rw [if_pos rfl] at hsize
    have h4 : rdlength = 4 := UInt16.toNat_inj.mp (hlength.trans hsize)
    rw [if_pos ⟨rfl, rfl, h4⟩, if_pos rfl]
    -- four bytes, so that none of the four indices is past the end
    match rdata, hsize with
    | [a, b, c, d], _ => rfl
  · have hne : typeAaaa ≠ typeA := by decide
    rw [if_neg hne] at hsize
    have h16 : rdlength = 16 := UInt16.toNat_inj.mp (hlength.trans hsize)
    rw [if_neg fun h => hne h.1, if_pos ⟨rfl, rfl, h16⟩, if_neg (not_not.mpr hsize),
      if_neg hne]

/-- An address of another size is an error. -/
theorem takeRecord_of_malformed (hq : qtype = typeA ∨ qtype = typeAaaa)
    (hlength : rdlength.toNat = rdata.length) (h : Asked qtype ⟨rtype, rclass, rdata⟩)
    (hsize : rdata.length ≠ addressSize qtype) (found : List IpAddr) :
    ∃ message, takeRecord qtype rtype rclass rdlength rdata found = .error (.err message) := by
  obtain ⟨hclass, htype⟩ := h
  have hclass : rclass = classIn := hclass
  have htype : rtype = qtype := htype
  subst htype
  rw [takeRecord, if_neg (not_not.mpr hclass)]
  rw [addressSize] at hsize
  rcases hq with rfl | rfl
  · rw [if_pos rfl] at hsize
    have h4 : rdlength ≠ 4 := by
      rintro rfl
      exact hsize hlength.symm
    rw [if_neg fun h => h4 h.2.2, if_neg fun h => absurd h.1 (by decide), if_pos ⟨rfl, rfl⟩]
    exact ⟨_, rfl⟩
  · have hne : typeAaaa ≠ typeA := by decide
    rw [if_neg hne] at hsize
    have h16 : rdlength ≠ 16 := by
      rintro rfl
      exact hsize hlength.symm
    rw [if_neg fun h => hne h.1, if_neg fun h => h16 h.2.2, if_neg fun h => hne h.1,
      if_pos ⟨rfl, rfl⟩]
    exact ⟨_, rfl⟩

/-- What one record adds, or that it is refused. -/
theorem takeRecord_eq_ok (hq : qtype = typeA ∨ qtype = typeAaaa)
    (hlength : rdlength.toNat = rdata.length) {found found' : List IpAddr} :
    takeRecord qtype rtype rclass rdlength rdata found = .ok found' ↔
      WellSized qtype [⟨rtype, rclass, rdata⟩] ∧
        found' = found ++ addresses qtype [⟨rtype, rclass, rdata⟩] := by
  have hwell : WellSized qtype [⟨rtype, rclass, rdata⟩] ↔
      (Asked qtype ⟨rtype, rclass, rdata⟩ → rdata.length = addressSize qtype) :=
    List.forall_mem_singleton
  rw [hwell, addresses]
  by_cases hasked : Asked qtype ⟨rtype, rclass, rdata⟩
  · by_cases hsize : rdata.length = addressSize qtype
    · rw [takeRecord_of_sized hq hlength hasked hsize]
      simp [hasked, hsize, eq_comm]
    · obtain ⟨message, hrefused⟩ := takeRecord_of_malformed hq hlength hasked hsize found
      rw [hrefused]
      simp [hasked, hsize]
  · rw [takeRecord_of_not_asked hasked]
    simp [hasked, eq_comm]

theorem noPanic_takeRecord (hq : qtype = typeA ∨ qtype = typeAaaa)
    (hlength : rdlength.toNat = rdata.length) (found : List IpAddr) :
    NoPanic (takeRecord qtype rtype rclass rdlength rdata found) := by
  by_cases hasked : Asked qtype ⟨rtype, rclass, rdata⟩
  · by_cases hsize : rdata.length = addressSize qtype
    · rw [takeRecord_of_sized hq hlength hasked hsize]
      exact .ok _
    · obtain ⟨message, hrefused⟩ := takeRecord_of_malformed hq hlength hasked hsize found
      rw [hrefused]
      exact .err _
  · rw [takeRecord_of_not_asked hasked]
    exact .ok _

end Record

/-- The checks of a message that is at least a header. -/
theorem parseResponse_of_header {message : List UInt8} (h : 12 ≤ message.length)
    (id qtype : UInt16) :
    parseResponse message id qtype =
      if u16At message 0 ≠ id then .error (.err "response id does not match the query")
      else if u16At message 2 &&& 0x8000 = 0 then
        .error (.err "response is not marked as a response")
      else if u16At message 2 &&& 0x0200 ≠ 0 then .error (.err "response is truncated")
      else if u16At message 2 &&& 0x000F ≠ 0 then
        .error (.err s!"resolver returned rcode {u16At message 2 &&& 0x000F}")
      else (do
        let offset ← skipQuestions message (u16At message 4).toNat 12
        let found ← readAnswers message qtype (u16At message 6).toNat offset []
        if found = [] then .error (.err "no address records in the answer") else .ok found) := by
  rw [parseResponse, if_neg (Nat.not_lt_of_le h), readU16_of_le (by omega),
    readU16_of_le (by omega), readU16_of_le (by omega), readU16_of_le (by omega)]
  rfl

section Answers

variable {message : List UInt8} {qtype : UInt16} (hq : qtype = typeA ∨ qtype = typeAaaa)
include hq

/-- One record of the answer section. -/
theorem readAnswers_succ {count start : Nat} {found list : List IpAddr} :
    readAnswers message qtype (count + 1) start found = .ok list ↔
      ∃ r stop, ResourceAt message start r stop ∧ WellSized qtype [r] ∧
        readAnswers message qtype count stop (found ++ addresses qtype [r]) = .ok list := by
  rw [readAnswers]
  simp only [bind_eq_ok, readU16_eq_ok, skipName_eq_ok]
  constructor
  · rintro ⟨named, hname, rtype, ⟨-, htype⟩, rclass, ⟨-, hclass⟩, rdlength, ⟨hroom, hlen⟩, h⟩
    cases hslice : slice message (named + 10) (named + 10 + rdlength.toNat) with
    | none =>
      rw [hslice] at h
      cases h
    | some rdata =>
      rw [hslice] at h
      obtain ⟨found', htake, hrest⟩ := bind_eq_ok.mp h
      have hdata := length_of_slice hslice
      obtain ⟨hsized, rfl⟩ := (takeRecord_eq_ok hq (by omega)).mp htake
      exact ⟨⟨rtype, rclass, rdata⟩, _, ⟨named, hname, hroom, htype, hclass, by rw [hlen],
        hslice⟩, hsized, hrest⟩
  · rintro ⟨⟨rtype, rclass, rdata⟩, stop, ⟨named, hname, hroom, htype, hclass, hstop, hslice⟩,
      hsized, hrest⟩
    refine ⟨named, hname, rtype, ⟨by omega, htype⟩, rclass, ⟨by omega, hclass⟩, _,
      ⟨hroom, rfl⟩, ?_⟩
    rw [← hstop, hslice]
    have hdata : rdata.length = stop - (named + 10) := length_of_slice hslice
    refine bind_eq_ok.mpr ⟨_, (takeRecord_eq_ok hq ?_).mpr ⟨hsized, rfl⟩, hrest⟩
    show (u16At message (named + 8)).toNat = rdata.length
    omega

/-- The addresses are taken just if the answers are well formed and sized. -/
theorem readAnswers_eq_ok {count start : Nat} {found list : List IpAddr} :
    readAnswers message qtype count start found = .ok list ↔
      ∃ resources, Answers message count start resources ∧ WellSized qtype resources ∧
        list = found ++ addresses qtype resources := by
  induction count generalizing start found with
  | zero =>
    constructor
    · intro h
      cases h
      exact ⟨[], .none, List.forall_mem_nil _, (List.append_nil _).symm⟩
    · rintro ⟨resources, h, -, rfl⟩
      cases h
      rw [addresses, List.filter_nil, List.map_nil, List.append_nil]
      rfl
  | succ count ih =>
    have hcons : ∀ r rest, found ++ addresses qtype [r] ++ addresses qtype rest
        = found ++ addresses qtype (r :: rest) := by
      intro r rest
      rw [List.append_assoc, addresses, addresses, addresses, ← List.map_append,
        ← List.filter_append, List.singleton_append]
    rw [readAnswers_succ hq]
    constructor
    · rintro ⟨r, stop, hr, hsized, h⟩
      obtain ⟨rest, hrest, hrestSized, rfl⟩ := ih.mp h
      refine ⟨r :: rest, .more hr hrest, ?_, hcons r rest⟩
      exact List.forall_mem_cons.mpr ⟨hsized r List.mem_cons_self, hrestSized⟩
    · rintro ⟨resources, h, hsized, rfl⟩
      cases h with
      | more hr hrest =>
        obtain ⟨hfirst, hrestSized⟩ := List.forall_mem_cons.mp hsized
        exact ⟨_, _, hr, List.forall_mem_singleton.mpr hfirst,
          ih.mpr ⟨_, hrest, hrestSized, (hcons _ _).symm⟩⟩

theorem noPanic_readAnswers (count start : Nat) (found : List IpAddr) :
    NoPanic (readAnswers message qtype count start found) := by
  induction count generalizing start found with
  | zero => exact .ok _
  | succ count ih =>
    refine (noPanic_skipName message start).bind fun named _ => ?_
    refine (noPanic_readU16 _ _).bind fun rtype _ => ?_
    refine (noPanic_readU16 _ _).bind fun rclass _ => ?_
    refine (noPanic_readU16 _ _).bind fun rdlength _ => ?_
    dsimp only
    cases hslice : slice message (named + 10) (named + 10 + rdlength.toNat) with
    | none => exact .err _
    | some rdata =>
      have hdata := length_of_slice hslice
      exact (noPanic_takeRecord hq (by omega) found).bind fun found' _ => ih _ _

omit hq in
theorem addresses_ne_nil {resources : List Resource} :
    addresses qtype resources ≠ [] ↔ ∃ r ∈ resources, Asked qtype r := by
  simp [addresses]

/-- A well-formed answer is accepted. -/
theorem parseResponse_of_layout {id : UInt16} {resources : List Resource}
    (hlayout : Layout message resources) (hid : u16At message 0 = id)
    (hqr : u16At message 2 &&& 0x8000 ≠ 0) (htc : u16At message 2 &&& 0x0200 = 0)
    (hrcode : u16At message 2 &&& 0x000F = 0) (hsized : WellSized qtype resources)
    (hasked : ∃ r ∈ resources, Asked qtype r) :
    parseResponse message id qtype = .ok (addresses qtype resources) := by
  obtain ⟨hheader, stop, hquestions, hanswers⟩ := hlayout
  rw [parseResponse_of_header hheader, if_neg (not_not.mpr hid), if_neg hqr,
    if_neg (not_not.mpr htc), if_neg (not_not.mpr hrcode)]
  refine bind_eq_ok.mpr ⟨stop, skipQuestions_eq_ok.mpr hquestions, bind_eq_ok.mpr
    ⟨_, (readAnswers_eq_ok hq).mpr ⟨resources, hanswers, hsized, rfl⟩, ?_⟩⟩
  rw [List.nil_append, if_neg (addresses_ne_nil.mpr hasked)]

/-- What is accepted, and what is taken from it. -/
theorem parseResponse_eq_ok {id : UInt16} {list : List IpAddr} :
    parseResponse message id qtype = .ok list ↔
      ∃ resources, Layout message resources ∧ u16At message 0 = id ∧
        u16At message 2 &&& 0x8000 ≠ 0 ∧ u16At message 2 &&& 0x0200 = 0 ∧
        u16At message 2 &&& 0x000F = 0 ∧
        (∀ r ∈ resources, Asked qtype r → r.data.length = addressSize qtype) ∧
        (∃ r ∈ resources, Asked qtype r) ∧ list = addresses qtype resources := by
  constructor
  · intro h
    by_cases hheader : 12 ≤ message.length
    · rw [parseResponse_of_header hheader] at h
      split_ifs at h with hid hqr htc hrcode
      obtain ⟨stop, hquestions, h⟩ := bind_eq_ok.mp h
      obtain ⟨found, hfound, h⟩ := bind_eq_ok.mp h
      split_ifs at h with hempty
      obtain rfl := Except.ok.inj h
      obtain ⟨resources, hanswers, hsized, rfl⟩ := (readAnswers_eq_ok hq).mp hfound
      exact ⟨resources, ⟨hheader, stop, skipQuestions_eq_ok.mp hquestions, hanswers⟩,
        not_not.mp hid, hqr, not_not.mp htc, not_not.mp hrcode, hsized,
        addresses_ne_nil.mp hempty, rfl⟩
    · rw [parseResponse, if_pos (Nat.lt_of_not_le hheader)] at h
      cases h
  · rintro ⟨resources, hlayout, hid, hqr, htc, hrcode, hsized, hasked, rfl⟩
    exact parseResponse_of_layout hq hlayout hid hqr htc hrcode hsized hasked

/-- No index is ever past the end. -/
theorem noPanic_parseResponse {id : UInt16} : NoPanic (parseResponse message id qtype) := by
  by_cases hheader : 12 ≤ message.length
  · rw [parseResponse_of_header hheader]
    split_ifs with hid hqr htc hrcode
    · exact .err _
    · exact .err _
    · exact .err _
    · exact .err _
    · refine (noPanic_skipQuestions _ _ _).bind fun offset _ => ?_
      refine (noPanic_readAnswers hq _ _ _).bind fun found _ => ?_
      split_ifs with hempty
      · exact .err _
      · exact .ok _
  · rw [parseResponse, if_pos (Nat.lt_of_not_le hheader)]
    exact .err _

/-- **A response is accepted exactly if it is an answer**: it has the layout of one, the
id is the one that was asked with, it is marked as a response that is neither cut off
nor an error, every record that was asked for has the size of an address, and there is
one. What is taken from it are the addresses of these records, in order. No index is
ever past the end. -/
theorem accepts_exactly_answers (message : List UInt8) (id : UInt16) (list : List IpAddr) :
    (parseResponse message id qtype = .ok list ↔
      ∃ resources, Layout message resources ∧ u16At message 0 = id ∧
        u16At message 2 &&& 0x8000 ≠ 0 ∧ u16At message 2 &&& 0x0200 = 0 ∧
        u16At message 2 &&& 0x000F = 0 ∧
        (∀ r ∈ resources, Asked qtype r → r.data.length = addressSize qtype) ∧
        (∃ r ∈ resources, Asked qtype r) ∧
        list = (resources.filter fun r => Asked qtype r).map fun r => address qtype r.data) ∧
    ∀ text, parseResponse message id qtype ≠ .error (.panic text) :=
  ⟨parseResponse_eq_ok hq, noPanic_parseResponse hq⟩

end Answers

/-- One question for `a.example`, and an answer whose owner is a pointer to it. -/
def compressedAnswer : List UInt8 :=
  [0x12, 0x34, 0x81, 0x80, 0, 1, 0, 1, 0, 0, 0, 0, 1, 97, 7, 101, 120, 97, 109, 112, 108, 101,
    0, 0, 1, 0, 1, 0xC0, 0x0C, 0, 1, 0, 1, 0, 0, 0, 60, 0, 4, 5, 6, 7, 8]

/-- The sample: an answer whose name is a pointer. -/
theorem accepts_exactly_answers_compressed :
    parseResponse compressedAnswer 0x1234 typeA = .ok [.v4 0x05060708] := by
  have h12 : compressedAnswer[12]? = some 1 := rfl
  have h14 : compressedAnswer[14]? = some 7 := rfl
  have h22 : compressedAnswer[22]? = some 0 := rfl
  have h27 : compressedAnswer[27]? = some 0xC0 := rfl
  have h28 : compressedAnswer[28]? = some 0x0C := rfl
  have hquestions : Questions compressedAnswer 1 12 27 :=
    .more (.label h12 (by decide) (by decide) (.label h14 (by decide) (by decide) (.root h22)))
      (by decide) .none
  have hexpands : Expands compressedAnswer maxJumps 27 :=
    .pointer h27 (by decide) h28
      (.label h12 (by decide) (by decide) (.label h14 (by decide) (by decide) (.root h22)))
  have hanswers : Answers compressedAnswer 1 27 [⟨1, 1, [5, 6, 7, 8]⟩] :=
    .more ⟨29, .pointer h27 (by decide) hexpands, by decide, by decide, by decide, rfl,
      by decide⟩ .none
  refine (accepts_exactly_answers (.inl rfl) compressedAnswer 0x1234 _).1.mpr
    ⟨[⟨1, 1, [5, 6, 7, 8]⟩], ⟨by decide, 27, hquestions, hanswers⟩, ?_⟩
  decide

end HostServices.TimeCorrection.Dns
