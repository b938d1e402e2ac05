import HostServices.Lib.FromStr
import HostServices.Lib.Text

/-!
# The lines of dnscrypt-proxy's journal (`system-metrics/src/dnscrypt.rs`)

A line may begin with a time and a severity, each in brackets, and then names the provider
in brackets as well. The parsers drop up to two leading brackets by what is in them, and
then look for a success or for one of two forms of a failure.

- `parseOk`, `parseFailure`: the source's functions;
- `Dlog`, `okLine`, `failureLine`, `unpackingLine`: what the proxy logs;
- `stripDlog_dlog`: the brackets in front of the provider are dropped, and no others;
- `lines_recovered`: what was logged is read back, and no line is read as both.
-/

namespace HostServices.SystemMetrics.Dnscrypt

open HostServices.Lib

/-! ## The code -/

/-- The severities that dlog writes. -/
def severities : List String :=
  ["DEBUG", "INFO", "NOTICE", "WARNING", "ERROR", "CRITICAL", "FATAL"]

/-- Splits a leading `[contents]` off a text. -/
def bracketed (text : List Char) : Option (List Char × List Char) :=
  match stripPrefix ['['] text with
  | none => none
  | some rest =>
    match rest.dropWhile (· ≠ ']') with
    | [] => none
    | _ :: tail => some (rest.takeWhile (· ≠ ']'), tail)

/-- The text in brackets is a severity. -/
def isSeverity (inner : List Char) : Bool := String.ofList inner ∈ severities

/-- The text in brackets is a timestamp. -/
def isTimestamp (inner : List Char) : Bool :=
  (inner.head?.any fun c => '0' ≤ c ∧ c ≤ '9') && ':' ∈ inner

/-- The loop of `strip_dlog_prefix`, for so many brackets. -/
def stripBrackets : Nat → List Char → List Char
  | 0, rest => rest
  | times + 1, rest =>
    match bracketed rest with
    | none => rest
    | some (inner, tail) =>
      if isSeverity inner || isTimestamp inner then stripBrackets times (trimStart tail) else rest

/-- `strip_dlog_prefix`. -/
def stripDlog (message : List Char) : List Char := stripBrackets 2 (trimStart message)

/-- The provider of a success line, and its round-trip time. -/
def parseOk (message : String) : Option (String × Int64) := do
  let (name, tail) ← bracketed (stripDlog message.toList)
  let rtt ← stripPrefix "OK (DoH) - rtt:".toList (trimStart tail)
  let rtt ← stripSuffix "ms".toList (trim rtt)
  let rtt ← parseI64 (String.ofList (trim rtt))
  some (String.ofList name, rtt)

/-- The provider of a failure line that names it, and the error. -/
def parseFailure (message : String) : Option (String × String) := do
  let (name, tail) ← bracketed (stripDlog message.toList)
  match stripPrefix [':'] tail with
  | some error => some (String.ofList name, String.ofList (trim error))
  | none =>
    let rest ← stripPrefix ['['] (trimStart tail)
    -- not a bracket of its own: an address in it may have brackets
    let (_, error) ← cutAt "]: ".toList rest
    some (String.ofList name, String.ofList (trim error))

/-! ## What the proxy logs -/

/-- The text in brackets. -/
def inBrackets (inner : List Char) : List Char := '[' :: (inner ++ [']'])

/-- What dlog writes in front of a message: a time and a severity, or one of them, or
nothing. -/
structure Dlog where
  timestamp : Option String
  severity : Option String
  timestamp_shape : ∀ t ∈ timestamp, ']' ∉ t.toList ∧ isTimestamp t.toList
  severity_mem : ∀ s ∈ severity, s ∈ severities

/-- A bracket and a blank behind it, or nothing. -/
def bracket (inner : Option String) : List Char :=
  inner.elim [] fun s => inBrackets s.toList ++ [' ']

/-- The line as the journal has it. -/
def Dlog.render (d : Dlog) (line : List Char) : String :=
  String.ofList (bracket d.timestamp ++ (bracket d.severity ++ line))

/-- A name that cannot be taken for a time or a severity. -/
structure Provider where
  name : String
  no_bracket : ']' ∉ name.toList
  not_severity : name ∉ severities
  not_timestamp : isTimestamp name.toList = false

/-- How the proxy logs a success. -/
def okLine (p : Provider) (rtt : Int64) : List Char :=
  inBrackets p.name.toList ++ " OK (DoH) - rtt: ".toList ++ i64Chars rtt ++ "ms".toList

/-- The query failed. -/
def failureLine (p : Provider) (url text : String) : List Char :=
  inBrackets p.name.toList ++ ' ' :: (inBrackets url.toList ++ ": ".toList ++ text.toList)

/-- The response could not be unpacked. -/
def unpackingLine (p : Provider) (text : String) : List Char :=
  inBrackets p.name.toList ++ ": ".toList ++ text.toList

/-! ## Brackets -/

/-- What stands in brackets is read back. -/
theorem bracketed_inBrackets {inner : List Char} (h : ']' ∉ inner) (tail : List Char) :
    bracketed (inBrackets inner ++ tail) = some (inner, tail) := by
  have hinner : ∀ c ∈ inner, decide (c ≠ ']') = true := by
    intro c hc
    refine decide_eq_true ?_
    rintro rfl
    exact h hc
  have hstrip : stripPrefix ['['] (inBrackets inner ++ tail) = some (inner ++ ']' :: tail) :=
    stripPrefix_eq_some.mpr (by simp [inBrackets])
  rw [bracketed, hstrip]
  dsimp only
  rw [List.dropWhile_append_of_pos hinner, List.takeWhile_append_of_pos hinner,
    List.dropWhile_cons_of_neg (by simp), List.takeWhile_cons_of_neg (by simp), List.append_nil]

/-- A bracket that is dropped, with the blank behind it. -/
theorem stripBrackets_dropped {inner : List Char} (h : ']' ∉ inner)
    (hdropped : (isSeverity inner || isTimestamp inner) = true) (times : Nat)
    (line : List Char) :
    stripBrackets (times + 1) (inBrackets inner ++ [' '] ++ '[' :: line)
      = stripBrackets times ('[' :: line) := by
  have hblank : trimStart ([' '] ++ '[' :: line) = '[' :: line := by
    rw [List.singleton_append, trimStart_blank (by decide), trimStart_nonblank (by decide)]
  rw [List.append_assoc, stripBrackets, bracketed_inBrackets h]
  dsimp only
  rw [if_pos hdropped, hblank]

/-- The provider's own bracket is not dropped. -/
theorem stripBrackets_provider (p : Provider) (times : Nat) (tail : List Char) :
    stripBrackets times (inBrackets p.name.toList ++ tail) = inBrackets p.name.toList ++ tail := by
  cases times with
  | zero => rfl
  | succ times =>
    have hkept : ¬ (isSeverity p.name.toList || isTimestamp p.name.toList) = true := by
      rw [p.not_timestamp, Bool.or_false, isSeverity, String.ofList_toList, decide_eq_true_eq]
      exact p.not_severity
    rw [stripBrackets, bracketed_inBrackets p.no_bracket]
    exact if_neg hkept

/-- In front of a bracket, another one that is dropped or none at all. -/
theorem stripBrackets_bracket {inner : Option String}
    (h : ∀ s ∈ inner, ']' ∉ s.toList ∧ (isSeverity s.toList || isTimestamp s.toList) = true)
    {times : Nat} {line rest : List Char} (hzero : stripBrackets times ('[' :: line) = rest)
    (hone : stripBrackets (times + 1) ('[' :: line) = rest) :
    stripBrackets (times + 1) (bracket inner ++ '[' :: line) = rest := by
  cases inner with
  | none => exact hone
  | some s =>
    obtain ⟨hs, hdropped⟩ := h s rfl
    exact (stripBrackets_dropped hs hdropped times line).trans hzero

theorem bracket_append (inner : Option String) (line : List Char) :
    ∃ rest, bracket inner ++ '[' :: line = '[' :: rest := by
  cases inner with
  | none => exact ⟨line, rfl⟩
  | some s => exact ⟨_, rfl⟩

/-- What dlog wrote in front of a line is dropped, and no more. -/
theorem stripDlog_render (d : Dlog) (p : Provider) (tail : List Char) :
    stripDlog (d.render (inBrackets p.name.toList ++ tail)).toList
      = inBrackets p.name.toList ++ tail := by
  have hseverity : ∀ s ∈ d.severity,
      ']' ∉ s.toList ∧ (isSeverity s.toList || isTimestamp s.toList) = true := by
    have hall : ∀ s ∈ severities,
        ']' ∉ s.toList ∧ (isSeverity s.toList || isTimestamp s.toList) = true := by
      decide +kernel
    exact fun s hs => hall s (d.severity_mem s hs)
  have htimestamp : ∀ t ∈ d.timestamp,
      ']' ∉ t.toList ∧ (isSeverity t.toList || isTimestamp t.toList) = true := by
    intro t ht
    obtain ⟨hbracket, hshape⟩ := d.timestamp_shape t ht
    exact ⟨hbracket, by rw [hshape, Bool.or_true]⟩
  -- the line begins with a bracket, and so it does with the others in front of it
  obtain ⟨line, hline⟩ : ∃ line, inBrackets p.name.toList ++ tail = '[' :: line := ⟨_, rfl⟩
  have hkept : ∀ times, stripBrackets times ('[' :: line) = '[' :: line := by
    intro times
    rw [← hline]
    exact stripBrackets_provider p times tail
  obtain ⟨rest, hrest⟩ := bracket_append d.severity line
  obtain ⟨whole, hwhole⟩ := bracket_append d.timestamp rest
  have hone : stripBrackets 1 ('[' :: rest) = '[' :: line := by
    rw [← hrest]
    exact stripBrackets_bracket hseverity (hkept 0) (hkept 1)
  have htwo : stripBrackets 2 ('[' :: rest) = '[' :: line := by
    rw [← hrest]
    exact stripBrackets_bracket hseverity (hkept 1) (hkept 2)
  rw [stripDlog, Dlog.render, String.toList_ofList, hline, hrest, hwhole,
    trimStart_nonblank (by decide), ← hwhole]
  exact stripBrackets_bracket htimestamp hone htwo

/-- The provider's name is the first text in brackets behind the prefix. -/
theorem bracketed_render (d : Dlog) (p : Provider) (tail : List Char) :
    bracketed (stripDlog (d.render (inBrackets p.name.toList ++ tail)).toList)
      = some (p.name.toList, tail) := by
  rw [stripDlog_render, bracketed_inBrackets p.no_bracket]

/-! ## The three forms -/

theorem isWhitespace_of_isDigit {c : Char} (h : c.isDigit = true) : isWhitespace c = false := by
  have hrange : 48 ≤ c.toNat ∧ c.toNat ≤ 57 := by
    simpa [Char.isDigit, UInt32.le_iff_toNat_le] using h
  simp only [isWhitespace, Bool.or_eq_false_iff, Bool.and_eq_false_iff, decide_eq_false_iff_not,
    beq_eq_false_iff_ne]
  omega

theorem i64Chars_nonblank (n : Int64) : ∀ c ∈ i64Chars n, isWhitespace c = false := by
  have hdigits : ∀ m, ∀ c ∈ Nat.toDigits 10 m, isWhitespace c = false := fun m c hc =>
    isWhitespace_of_isDigit (Nat.isDigit_of_mem_toDigits (by decide) (by decide) hc)
  rw [i64Chars]
  split_ifs with hneg
  · exact List.forall_mem_cons.mpr ⟨by decide, hdigits _⟩
  · exact hdigits _

/-- A success is read back. -/
theorem parseOk_okLine (d : Dlog) (p : Provider) (rtt : Int64) :
    parseOk (d.render (okLine p rtt)) = some (p.name, rtt) := by
  have hunit : ∀ c ∈ ['m', 's'], isWhitespace c = false :=
    List.forall_mem_cons.mpr ⟨by decide, List.forall_mem_singleton.mpr (by decide)⟩
  have hnonblank : ∀ c ∈ i64Chars rtt ++ "ms".toList, isWhitespace c = false :=
    List.forall_mem_append.mpr ⟨i64Chars_nonblank rtt, hunit⟩
  have hfront : stripPrefix "OK (DoH) - rtt:".toList
      (trimStart (" OK (DoH) - rtt: ".toList ++ (i64Chars rtt ++ "ms".toList)))
      = some (' ' :: (i64Chars rtt ++ "ms".toList)) :=
    stripPrefix_eq_some.mpr rfl
  have hline : okLine p rtt = inBrackets p.name.toList ++
      (" OK (DoH) - rtt: ".toList ++ (i64Chars rtt ++ "ms".toList)) := by
    rw [okLine, List.append_assoc, List.append_assoc]
  rw [parseOk, hline, bracketed_render]
  simp only [Option.bind_eq_bind, Option.bind_some, hfront, trim_blank isWhitespace_space,
    trim_of_nonblank hnonblank, stripSuffix_append, trim_of_nonblank (i64Chars_nonblank rtt),
    parseI64_i64Chars, String.ofList_toList]

/-- The mark behind the address is not in an address without blanks. -/
theorem cutAt_url {url : List Char} (h : ' ' ∉ url) (text : List Char) :
    cutAt "]: ".toList (url ++ ("]: ".toList ++ text)) = some (url, text) := by
  refine cutAt_append text (by decide) ?_
  rintro i hi ⟨rest, hrest⟩
  have hblank : (url ++ ("]: ".toList ++ text))[i + 2]? = some ' ' := by
    rw [← List.getElem?_drop, ← hrest]
    rfl
  by_cases hin : i + 2 < url.length
  · rw [List.getElem?_append_left hin] at hblank
    exact h (List.mem_of_getElem? hblank)
  · -- it would have to begin in the address and end behind it
    rw [List.getElem?_append_right (by omega)] at hblank
    obtain hat | hat : i + 2 - url.length = 0 ∨ i + 2 - url.length = 1 := by omega
    · rw [hat] at hblank
      cases hblank
    · rw [hat] at hblank
      cases hblank

/-- A failure is read back. -/
theorem parseFailure_failureLine (d : Dlog) (p : Provider) {url : String} (hurl : ' ' ∉ url.toList)
    (text : String) :
    parseFailure (d.render (failureLine p url text))
      = some (p.name, String.ofList (trim text.toList)) := by
  have hcolon : stripPrefix [':'] (' ' :: (inBrackets url.toList ++ ": ".toList ++ text.toList))
      = none := if_neg (by simp)
  have hopen : stripPrefix ['[']
      (trimStart (' ' :: (inBrackets url.toList ++ ": ".toList ++ text.toList)))
      = some (url.toList ++ ("]: ".toList ++ text.toList)) := by
    rw [trimStart_blank isWhitespace_space, inBrackets, List.cons_append, List.cons_append,
      trimStart_nonblank (by decide), stripPrefix_eq_some]
    simp
  rw [parseFailure, failureLine, bracketed_render]
  simp only [Option.bind_eq_bind, Option.bind_some, hcolon, hopen, cutAt_url hurl,
    String.ofList_toList]

/-- A failure to unpack, which has no address in it, is read as one too. -/
theorem parseFailure_unpackingLine (d : Dlog) (p : Provider) (text : String) :
    parseFailure (d.render (unpackingLine p text))
      = some (p.name, String.ofList (trim text.toList)) := by
  have hcolon : stripPrefix [':'] (": ".toList ++ text.toList) = some (' ' :: text.toList) :=
    stripPrefix_eq_some.mpr rfl
  rw [parseFailure, unpackingLine, List.append_assoc, bracketed_render]
  simp only [Option.bind_eq_bind, Option.bind_some, hcolon, trim_blank isWhitespace_space,
    String.ofList_toList]

/-! ## Both parsers -/

/-- Behind the provider a success says that it is one. -/
theorem of_parseOk {message : String} (h : (parseOk message).isSome) :
    ∃ name tail rest, bracketed (stripDlog message.toList) = some (name, tail) ∧
      trimStart tail = 'O' :: rest := by
  obtain ⟨result, h⟩ := Option.isSome_iff_exists.mp h
  rw [parseOk] at h
  obtain ⟨⟨name, tail⟩, hbracket, h⟩ := Option.bind_eq_some_iff.mp h
  obtain ⟨rtt, hfront, -⟩ := Option.bind_eq_some_iff.mp h
  exact ⟨name, tail, _, hbracket, stripPrefix_eq_some.mp hfront⟩

/-- Behind the provider a failure has a colon, or a bracket behind blanks. -/
theorem of_parseFailure {message : String} (h : (parseFailure message).isSome) :
    ∃ name tail rest, bracketed (stripDlog message.toList) = some (name, tail) ∧
      (trimStart tail = ':' :: rest ∨ trimStart tail = '[' :: rest) := by
  obtain ⟨result, h⟩ := Option.isSome_iff_exists.mp h
  rw [parseFailure] at h
  obtain ⟨⟨name, tail⟩, hbracket, h⟩ := Option.bind_eq_some_iff.mp h
  dsimp only at h
  split at h
  · rename_i error hcolon
    refine ⟨name, tail, error, hbracket, .inl ?_⟩
    rw [stripPrefix_eq_some.mp hcolon]
    exact trimStart_nonblank (by decide) error
  · obtain ⟨rest, hopen, -⟩ := Option.bind_eq_some_iff.mp h
    exact ⟨name, tail, rest, hbracket, .inr (stripPrefix_eq_some.mp hopen)⟩

/-- **The parsers recover what was logged**: whatever dlog wrote in front of the line, the
provider and the round-trip time of a success are read back for every 64-bit number, and
the provider and the trimmed error of a failure of either form. No message is read as a
success and as a failure. -/
theorem lines_recovered :
    (∀ (d : Dlog) (p : Provider),
      (∀ rtt, parseOk (d.render (okLine p rtt)) = some (p.name, rtt)) ∧
      (∀ url text : String, ' ' ∉ url.toList →
        parseFailure (d.render (failureLine p url text))
          = some (p.name, String.ofList (trim text.toList))) ∧
      ∀ text : String, parseFailure (d.render (unpackingLine p text))
        = some (p.name, String.ofList (trim text.toList))) ∧
    ∀ message, ¬ ((parseOk message).isSome ∧ (parseFailure message).isSome) := by
  constructor
  · intro d p
    exact ⟨parseOk_okLine d p, fun url text hurl => parseFailure_failureLine d p hurl text,
      parseFailure_unpackingLine d p⟩
  · rintro message ⟨hok, hfailure⟩
    obtain ⟨name, tail, rest, hbracket, hsuccess⟩ := of_parseOk hok
    obtain ⟨name', tail', rest', hbracket', hfailed⟩ := of_parseFailure hfailure
    rw [hbracket] at hbracket'
    cases hbracket'
    rw [hsuccess] at hfailed
    rcases hfailed with hcolon | hopen
    · exact absurd (List.cons.inj hcolon).1 (by decide)
    · exact absurd (List.cons.inj hopen).1 (by decide)

/-- An address with brackets of its own, behind a time and a severity. -/
theorem lines_recovered_ipv6 :
    parseFailure (Dlog.render
      ⟨some "2026-09-17 11:00:01", some "INFO", by decide +kernel, by decide +kernel⟩
      (failureLine ⟨"google-ipv6", by decide +kernel, by decide +kernel, by decide +kernel⟩
        "https://[2001:4860:4860::8888]/dns-query" " connect: network is unreachable "))
      = some ("google-ipv6", "connect: network is unreachable") := by
  have htrim : String.ofList (trim " connect: network is unreachable ".toList)
      = "connect: network is unreachable" := by
    decide +kernel
  rw [(lines_recovered.1 _ _).2.1 _ _ (by decide +kernel), htrim]

end HostServices.SystemMetrics.Dnscrypt
