import HostServices.SystemMetrics.Mounts

/-!
# The mount table as the kernel writes it

The kernel escapes the four characters that would break a line up: blank, tab, line feed
and backslash. The reader undoes that byte by byte, each byte a character of its own, and
takes every Unicode blank for the end of a field. So a field comes back just if it is
ASCII and has none of the three blanks of ASCII that the kernel leaves as they are.

- `escapeField`, `KernelMount.line`, `render`: what the kernel writes;
- `latin`: what the decoder makes of a field that was not cut;
- `latin_ne_append`: it never makes up for a cut;
- `decoded_iff_plain`: which tables are read back.
-/

namespace HostServices.SystemMetrics

open HostServices.Lib

/-! ## What the kernel writes -/

/-- The characters that are escaped. -/
def escapedChars : List Char := [' ', '\t', '\n', '\\']

/-- How the kernel writes a character in a field of its table. -/
def escapeChar (c : Char) : List Char :=
  if c = ' ' then ['\\', '0', '4', '0']
  else if c = '\t' then ['\\', '0', '1', '1']
  else if c = '\n' then ['\\', '0', '1', '2']
  else if c = '\\' then ['\\', '1', '3', '4']
  else [c]

/-- A field of the table, as the kernel writes it. -/
def escapeField (field : List Char) : List Char := field.flatMap escapeChar

/-- A mount, with the fields of its line. -/
structure KernelMount where
  device : String
  mountpoint : String
  fstype : String
  options : String
  device_ne : device ≠ ""
  mountpoint_ne : mountpoint ≠ ""

/-- The fields behind the mountpoint. The last two are always zero. -/
def KernelMount.rest (m : KernelMount) : List Char :=
  escapeField m.fstype.toList ++ ' ' :: (escapeField m.options.toList ++ [' ', '0', ' ', '0'])

/-- The line of a mount. -/
def KernelMount.line (m : KernelMount) : List Char :=
  escapeField m.device.toList ++ ' ' :: (escapeField m.mountpoint.toList ++ ' ' :: m.rest)

/-- The table: one line for each mount. -/
def render (mounts : List KernelMount) : String :=
  String.ofList (mounts.flatMap fun m => m.line ++ ['\n'])

/-- The devices and mountpoints are read back. -/
def Decoded (mounts : List KernelMount) : Prop :=
  (parseMounts (render mounts) []).map (fun m => (m.device, m.mountpoint))
    = mounts.map fun m => (m.device, m.mountpoint)

/-- ASCII, and none of vertical tab, form feed and carriage return. -/
def Plain (s : String) : Prop :=
  ∀ c ∈ s.toList, c.toNat < 128 ∧ c.toNat ≠ 11 ∧ c.toNat ≠ 12 ∧ c.toNat ≠ 13

theorem plain_of_all {s : String}
    (h : s.toList.all (fun c => c.toNat < 128 ∧ c.toNat ≠ 11 ∧ c.toNat ≠ 12 ∧ c.toNat ≠ 13)) :
    Plain s :=
  fun c hc => of_decide_eq_true (List.all_eq_true.mp h c hc)

/-! ## Fields -/

/-- Other characters are written as they are. -/
theorem escapeChar_of_not_mem {c : Char} (h : c ∉ escapedChars) : escapeChar c = [c] := by
  simp only [escapedChars, List.mem_cons, List.not_mem_nil, or_false, not_or] at h
  rw [escapeChar, if_neg h.1, if_neg h.2.1, if_neg h.2.2.1, if_neg h.2.2.2]

/-- The bytes of a character, each as a character of its own. -/
def latinChar (c : Char) : List Char :=
  (String.utf8EncodeChar c).map fun b => Char.ofNat b.toNat

/-- The characters as which a reader of single bytes sees the field. -/
def latin (field : List Char) : List Char := field.flatMap latinChar

theorem latinChar_of_ascii {c : Char} (h : c.toNat < 128) : latinChar c = [c] := by
  have hbyte : (UInt8.ofNat c.toNat).toNat = c.toNat := by
    rw [UInt8.toNat_ofNat']
    omega
  rw [latinChar, utf8EncodeChar_of_ascii h, List.map_singleton, hbyte, Char.ofNat_toNat]

theorem unescapeBytes_copy {bytes : List UInt8} (h : ∀ b ∈ bytes, b ≠ 0x5C) (rest : List UInt8) :
    unescapeBytes (bytes ++ rest)
      = bytes.map (fun b => Char.ofNat b.toNat) ++ unescapeBytes rest := by
  induction bytes with
  | nil => rfl
  | cons b bytes ih =>
    obtain ⟨hb, hrest⟩ := List.forall_mem_cons.mp h
    rw [List.cons_append, unescapeBytes, if_neg fun h => hb h.1, ih hrest, List.map_cons,
      List.cons_append]

/-- An escaped character is decoded. -/
theorem unescapeBytes_escaped {c : Char} (h : c ∈ escapedChars) (rest : List UInt8) :
    unescapeBytes ((escapeChar c).flatMap String.utf8EncodeChar ++ rest)
      = c :: unescapeBytes rest := by
  have hdigits : ∃ a b d : UInt8, (escapeChar c).flatMap String.utf8EncodeChar = [0x5C, a, b, d] ∧
      (a.toNat < 128 ∧ b.toNat < 128 ∧ d.toNat < 128) ∧
      fromStrRadix 8 256 (asciiText [a, b, d]) = some c.toNat := by
    simp only [escapedChars, List.mem_cons, List.not_mem_nil, or_false] at h
    rcases h with rfl | rfl | rfl | rfl
    · exact ⟨0x30, 0x34, 0x30, by decide +kernel⟩
    · exact ⟨0x30, 0x31, 0x31, by decide +kernel⟩
    · exact ⟨0x30, 0x31, 0x32, by decide +kernel⟩
    · exact ⟨0x31, 0x33, 0x34, by decide +kernel⟩
  obtain ⟨a, b, d, hbytes, ⟨ha, hb, hd⟩, hradix⟩ := hdigits
  have hascii : ∀ x ∈ [a, b, d], x.toNat < 128 :=
    List.forall_mem_cons.mpr ⟨ha, List.forall_mem_cons.mpr ⟨hb, List.forall_mem_singleton.mpr hd⟩⟩
  rw [hbytes]
  show unescapeBytes (0x5C :: a :: b :: d :: rest) = _
  have htake : (a :: b :: d :: rest).take 3 = [a, b, d] := rfl
  rw [unescapeBytes, if_pos ⟨rfl, by simp⟩, htake, fromUtf8_of_ascii hascii, Option.bind_some,
    hradix]
  show Char.ofNat c.toNat :: unescapeBytes rest = _
  rw [Char.ofNat_toNat]

/-- A character that is not escaped is read byte by byte. -/
theorem unescapeBytes_utf8EncodeChar {c : Char} (h : c ≠ '\\') (rest : List UInt8) :
    unescapeBytes (String.utf8EncodeChar c ++ rest) = latinChar c ++ unescapeBytes rest := by
  refine unescapeBytes_copy ?_ rest
  by_cases hascii : c.toNat < 128
  · rw [utf8EncodeChar_of_ascii hascii, List.forall_mem_singleton]
    intro hbyte
    have hnat := congrArg UInt8.toNat hbyte
    rw [UInt8.toNat_ofNat'] at hnat
    have hcode : c.toNat = 92 := by
      have h92 : (0x5C : UInt8).toNat = 92 := rfl
      omega
    apply h
    rw [← Char.ofNat_toNat c, hcode]
  · obtain ⟨lead, second, others, hbytes, hlead, hothers⟩ :=
      utf8EncodeChar_of_not_ascii (Nat.le_of_not_lt hascii)
    rw [hbytes]
    intro b hb hslash
    have h92 : b.toNat = 92 := by rw [hslash]; rfl
    rcases List.mem_cons.mp hb with rfl | hb
    · omega
    · have := hothers b hb
      omega

/-- A field that is not cut is read byte by byte. -/
theorem unescapeBytes_escapeField (field : List Char) (rest : List UInt8) :
    unescapeBytes ((escapeField field).flatMap String.utf8EncodeChar ++ rest)
      = latin field ++ unescapeBytes rest := by
  induction field with
  | nil => rfl
  | cons c field ih =>
    rw [escapeField, List.flatMap_cons, List.flatMap_append, List.append_assoc, latin,
      List.flatMap_cons, List.append_assoc]
    by_cases hc : c ∈ escapedChars
    · have hascii : c.toNat < 128 := by
        simp only [escapedChars, List.mem_cons, List.not_mem_nil, or_false] at hc
        rcases hc with rfl | rfl | rfl | rfl <;> decide
      rw [unescapeBytes_escaped hc, latinChar_of_ascii hascii]
      exact congrArg (c :: ·) ih
    · have hslash : c ≠ '\\' := by
        rintro rfl
        exact hc (by decide)
      rw [escapeChar_of_not_mem hc, List.flatMap_singleton, unescapeBytes_utf8EncodeChar hslash]
      exact congrArg (latinChar c ++ ·) ih

/-! ## Bytes as characters -/

theorem latin_cons (c : Char) (field : List Char) :
    latin (c :: field) = latinChar c ++ latin field :=
  List.flatMap_cons

/-- ASCII is seen as it is. -/
theorem latin_of_ascii {field : List Char} (h : ∀ c ∈ field, c.toNat < 128) :
    latin field = field := by
  induction field with
  | nil => rfl
  | cons c field ih =>
    obtain ⟨hc, hrest⟩ := List.forall_mem_cons.mp h
    rw [latin_cons, latinChar_of_ascii hc, ih hrest, List.singleton_append]

theorem length_le_length_latin (field : List Char) : field.length ≤ (latin field).length := by
  induction field with
  | nil => exact Nat.le_refl _
  | cons c field ih =>
    have hpos : 1 ≤ (latinChar c).length := by
      rw [latinChar, List.length_map, String.length_utf8EncodeChar]
      exact c.utf8Size_pos
    rw [latin_cons, List.length_append, List.length_cons]
    omega

/-- Another character becomes two or more, of which the first is no blank. -/
theorem latinChar_of_not_ascii {c : Char} (h : 128 ≤ c.toNat) :
    ∃ lead second rest, latinChar c = lead :: second :: rest ∧ 0xC0 ≤ lead.toNat ∧
      lead.toNat < 256 := by
  obtain ⟨lead, second, rest, hbytes, hlead, -⟩ := utf8EncodeChar_of_not_ascii h
  refine ⟨Char.ofNat lead.toNat, Char.ofNat second.toNat, rest.map fun b => Char.ofNat b.toNat,
    ?_, ?_, ?_⟩
  · rw [latinChar, hbytes, List.map_cons, List.map_cons]
  · rw [toNat_ofNat_byte]
    exact hlead
  · rw [toNat_ofNat_byte]
    exact lead.toNat_lt

/-- Only ASCII is. -/
theorem ascii_of_latin_eq {field : List Char} (h : latin field = field) :
    ∀ c ∈ field, c.toNat < 128 := by
  induction field with
  | nil => exact List.forall_mem_nil _
  | cons c field ih =>
    by_cases hc : c.toNat < 128
    · rw [latin_cons, latinChar_of_ascii hc, List.singleton_append] at h
      exact List.forall_mem_cons.mpr ⟨hc, ih (List.cons.inj h).2⟩
    · -- two characters for this one, and no fewer than before for the others
      obtain ⟨lead, second, rest, hlatin, -⟩ := latinChar_of_not_ascii (Nat.le_of_not_lt hc)
      have hlength := congrArg List.length h
      have hle := length_le_length_latin field
      rw [latin_cons, hlatin, List.length_append, List.length_cons, List.length_cons,
        List.length_cons] at hlength
      omega

/-- What the bytes of `U+00C3` are read as, and the bytes of these, and so on. -/
def doubled : List Char := [Char.ofNat 0xC2, Char.ofNat 0xC3, Char.ofNat 0x82, Char.ofNat 0x83]

theorem latinChar_doubled {c : Char} (h : c ∈ doubled) :
    latinChar c ≠ [] ∧ ∀ d ∈ latinChar c, d ∈ doubled := by
  have hall : doubled.all (fun c => !(latinChar c).isEmpty &&
      (latinChar c).all fun d => doubled.contains d) = true := by
    decide +kernel
  have hc := List.all_eq_true.mp hall c h
  simpa using hc

/-- Once the decoded text is ahead of the field it stays ahead, and never meets another
character than those. -/
theorem append_latin_ne {ahead field rest : List Char} {w : Char} (hne : ahead ≠ [])
    (hahead : ∀ c ∈ ahead, c ∈ doubled) (hw : w ∉ doubled) :
    ahead ++ latin field ≠ field ++ w :: rest := by
  induction field generalizing ahead with
  | nil =>
    intro h
    obtain ⟨c, ahead, rfl⟩ := List.exists_cons_of_ne_nil hne
    cases h
    exact hw (hahead w List.mem_cons_self)
  | cons c field ih =>
    intro h
    obtain ⟨d, ahead, rfl⟩ := List.exists_cons_of_ne_nil hne
    obtain ⟨hd, hrest⟩ := List.forall_mem_cons.mp hahead
    rw [List.cons_append, List.cons_append] at h
    obtain ⟨rfl, h⟩ := List.cons.inj h
    obtain ⟨hnonempty, hlatin⟩ := latinChar_doubled hd
    rw [latin_cons, ← List.append_assoc] at h
    refine ih ?_ ?_ h
    · intro hnil
      exact hnonempty (List.append_eq_nil_iff.mp hnil).2
    · intro e he
      rcases List.mem_append.mp he with he | he
      · exact hrest e he
      · exact hlatin e he

/-- Only one character is the first of its own bytes. -/
theorem eq_of_head_latinChar {c : Char} (h : 128 ≤ c.toNat) {rest : List Char}
    (hlatin : latinChar c = c :: rest) : rest = [Char.ofNat 0x83] := by
  have hall : ∀ n : Fin 256, 128 ≤ n.val →
      (latinChar (Char.ofNat n.val)).head? = some (Char.ofNat n.val) → n.val = 0xC3 := by
    decide +kernel
  obtain ⟨lead, second, others, hlead, -, hlt⟩ := latinChar_of_not_ascii h
  rw [hlatin] at hlead
  obtain ⟨rfl, -⟩ := List.cons.inj hlead
  have hcode : c.toNat = 0xC3 := by
    refine hall ⟨c.toNat, hlt⟩ h ?_
    rw [Char.ofNat_toNat, hlatin]
    rfl
  have hc : c = Char.ofNat 0xC3 := by rw [← hcode, Char.ofNat_toNat]
  rw [hc] at hlatin
  have hbytes : latinChar (Char.ofNat 0xC3) = [Char.ofNat 0xC3, Char.ofNat 0x83] := by
    decide +kernel
  rw [hbytes] at hlatin
  exact (List.cons.inj hlatin).2.symm

/-- The first part of a field that was cut is never decoded as the whole field. -/
theorem latin_ne_append {field rest : List Char} {w : Char} (hw : w ∉ doubled) :
    latin field ≠ field ++ w :: rest := by
  induction field with
  | nil =>
    intro h
    cases h
  | cons c field ih =>
    intro h
    by_cases hc : c.toNat < 128
    · rw [latin_cons, latinChar_of_ascii hc, List.singleton_append] at h
      exact ih (List.cons.inj h).2
    · obtain ⟨lead, second, others, hlatin, -⟩ := latinChar_of_not_ascii (Nat.le_of_not_lt hc)
      simp only [latin_cons, hlatin, List.cons_append] at h
      obtain ⟨rfl, htail⟩ := List.cons.inj h
      have hrest := eq_of_head_latinChar (Nat.le_of_not_lt hc) hlatin
      rw [← List.cons_append, hrest] at htail
      exact append_latin_ne (List.cons_ne_nil _ _)
        (List.forall_mem_singleton.mpr (by decide)) hw htail

theorem not_mem_doubled {w : Char} (h : isWhitespace w) : w ∉ doubled := by
  have hall : doubled.all (fun c => !isWhitespace c) = true := by decide
  intro hw
  have hnot := List.all_eq_true.mp hall w hw
  rw [h] at hnot
  cases hnot

/-! ## Where a line is cut -/

/-- A blank that the kernel does not escape. -/
def Cuts (c : Char) : Prop := isWhitespace c = true ∧ c ∉ escapedChars

instance decidableCuts (c : Char) : Decidable (Cuts c) := inferInstanceAs (Decidable (_ ∧ _))

/-- Every backslash begins one of the four escapes. -/
inductive WellEscaped : List Char → Prop
  | nil : WellEscaped []
  | char {c : Char} {text : List Char} : c ≠ '\\' → WellEscaped text → WellEscaped (c :: text)
  | escape {c : Char} {text : List Char} : c ∈ escapedChars → WellEscaped text →
      WellEscaped (escapeChar c ++ text)

/-- An escaped field is well escaped. -/
theorem WellEscaped.escapeField {text : List Char} (h : WellEscaped text) (field : List Char) :
    WellEscaped (escapeField field ++ text) := by
  induction field with
  | nil => exact h
  | cons c field ih =>
    rw [SystemMetrics.escapeField, List.flatMap_cons, List.append_assoc]
    by_cases hc : c ∈ escapedChars
    · exact .escape hc ih
    · rw [escapeChar_of_not_mem hc]
      refine .char ?_ ih
      rintro rfl
      exact hc (by decide)

theorem WellEscaped.blank {text : List Char} (h : WellEscaped text) : WellEscaped (' ' :: text) :=
  .char (by decide) h

/-- The characters of an escape are no blanks. -/
theorem escapeChar_not_blank {c : Char} (h : ¬ Cuts c) :
    ∀ d ∈ escapeChar c, isWhitespace d = false := by
  by_cases hc : c ∈ escapedChars
  · have hall : escapedChars.all (fun c => (escapeChar c).all fun d => !isWhitespace d) = true := by
      decide
    intro d hd
    simpa using List.all_eq_true.mp (List.all_eq_true.mp hall c hc) d hd
  · rw [escapeChar_of_not_mem hc, List.forall_mem_singleton]
    exact Bool.eq_false_iff.mpr fun hblank => h ⟨hblank, hc⟩

/-- No blank is left in an escaped field. -/
theorem escapeField_not_blank {field : List Char} (h : ∀ c ∈ field, ¬ Cuts c) :
    ∀ d ∈ escapeField field, isWhitespace d = false := by
  intro d hd
  obtain ⟨c, hc, hd⟩ := List.mem_flatMap.mp hd
  exact escapeChar_not_blank (h c hc) d hd

theorem escapeField_ne_nil {field : List Char} (h : field ≠ []) : escapeField field ≠ [] := by
  obtain ⟨c, field, rfl⟩ := List.exists_cons_of_ne_nil h
  rw [escapeField, List.flatMap_cons]
  intro hnil
  have hc := (List.append_eq_nil_iff.mp hnil).1
  unfold escapeChar at hc
  split_ifs at hc

/-- Blanks may be dropped, as no escape begins with one. -/
theorem WellEscaped.dropWhile {text : List Char} (h : WellEscaped text) :
    WellEscaped (text.dropWhile isWhitespace) := by
  induction h with
  | nil => exact .nil
  | @char c text hc htext ih =>
    by_cases hblank : isWhitespace c
    · rw [List.dropWhile_cons_of_pos hblank]
      exact ih
    · rw [List.dropWhile_cons_of_neg hblank]
      exact .char hc htext
  | @escape c text hc htext ih =>
    have hslash : ∃ digits, escapeChar c = '\\' :: digits := by
      simp only [escapedChars, List.mem_cons, List.not_mem_nil, or_false] at hc
      rcases hc with rfl | rfl | rfl | rfl <;> exact ⟨_, rfl⟩
    obtain ⟨digits, hdigits⟩ := hslash
    have hescape := WellEscaped.escape hc htext
    rw [hdigits, List.cons_append] at hescape ⊢
    rw [List.dropWhile_cons_of_neg (by decide)]
    exact hescape

/-- The first character of a decoded word is no blank that cuts. -/
theorem head_unescapeBytes {c : Char} {text : List Char} (h : WellEscaped (c :: text))
    (hc : isWhitespace c = false) : ∃ d rest,
      unescapeBytes (((c :: text).takeWhile fun c => !isWhitespace c).flatMap
        String.utf8EncodeChar) = d :: rest ∧ ¬ Cuts d := by
  generalize hwhole : c :: text = whole at h
  cases h with
  | nil => cases hwhole
  | @char c' text' hne htext =>
    obtain ⟨rfl, rfl⟩ := List.cons.inj hwhole
    rw [List.takeWhile_cons_of_pos (by simpa using hc), List.flatMap_cons,
      unescapeBytes_utf8EncodeChar hne]
    by_cases hascii : c.toNat < 128
    · rw [latinChar_of_ascii hascii]
      refine ⟨c, _, rfl, ?_⟩
      rintro ⟨hblank, -⟩
      rw [hc] at hblank
      cases hblank
    · obtain ⟨lead, second, others, hlatin, hge, hlt⟩ :=
        latinChar_of_not_ascii (Nat.le_of_not_lt hascii)
      rw [hlatin]
      refine ⟨lead, _, rfl, ?_⟩
      rintro ⟨hblank, -⟩
      have hall : ∀ n : Fin 256, 0xC0 ≤ n.val → isWhitespace (Char.ofNat n.val) = false := by
        decide +kernel
      have hlead := hall ⟨lead.toNat, hlt⟩ hge
      rw [Char.ofNat_toNat, hblank] at hlead
      cases hlead
  | @escape c' text' hescaped htext =>
    have hdigits : ∀ d ∈ escapeChar c', (!isWhitespace d) = true := by
      intro d hd
      rw [escapeChar_not_blank (fun hcuts => hcuts.2 hescaped) d hd]
      rfl
    rw [List.takeWhile_append_of_pos hdigits, List.flatMap_append, unescapeBytes_escaped hescaped]
    exact ⟨c', _, rfl, fun hcuts => hcuts.2 hescaped⟩

/-! ## One line -/

/-- A field with no cut in it is the first word of what it begins. -/
theorem words_escapeField {field : List Char} (hne : field ≠ []) (h : ∀ c ∈ field, ¬ Cuts c)
    {sep : Char} (hsep : isWhitespace sep = true) (text : List Char) :
    words (escapeField field ++ sep :: text) = escapeField field :: words text :=
  words_append (escapeField_ne_nil hne) (escapeField_not_blank h) hsep text

/-- Up to its first cut, if there is one. -/
theorem exists_first_cut {field : List Char} (h : ¬ ∀ c ∈ field, ¬ Cuts c) :
    ∃ before w after, field = before ++ w :: after ∧ (∀ c ∈ before, ¬ Cuts c) ∧ Cuts w := by
  induction field with
  | nil => exact absurd (List.forall_mem_nil _) h
  | cons c field ih =>
    by_cases hc : Cuts c
    · exact ⟨[], c, field, rfl, List.forall_mem_nil _, hc⟩
    · obtain ⟨before, w, after, rfl, hbefore, hw⟩ :=
        ih fun hrest => h (List.forall_mem_cons.mpr ⟨hc, hrest⟩)
      exact ⟨c :: before, w, after, rfl, List.forall_mem_cons.mpr ⟨hc, hbefore⟩, hw⟩

/-- The first word is decoded as the field only if the field was not cut. -/
theorem uncut_of_decoded {field tail word : List Char} {others : List (List Char)}
    (hne : field ≠ []) (htail : WellEscaped tail)
    (hwords : words (escapeField field ++ ' ' :: tail) = word :: others)
    (h : unescapeBytes (word.flatMap String.utf8EncodeChar) = field) :
    ∀ c ∈ field, ¬ Cuts c := by
  by_contra hcut
  obtain ⟨before, w, after, rfl, hbefore, hw⟩ := exists_first_cut hcut
  have hline : escapeField (before ++ w :: after) ++ ' ' :: tail
      = escapeField before ++ w :: (escapeField after ++ ' ' :: tail) := by
    rw [escapeField, List.flatMap_append, List.flatMap_cons, escapeChar_of_not_mem hw.2,
      List.singleton_append, List.append_assoc, List.cons_append]
    rfl
  rw [hline] at hwords
  by_cases hnil : before = []
  · -- the cut is in front of the word: no word begins with it
    subst hnil
    have hescaped : WellEscaped ((escapeField [] ++ w :: (escapeField after ++ ' ' :: tail))
        |>.dropWhile isWhitespace) := by
      refine WellEscaped.dropWhile (.char ?_ (htail.blank.escapeField after))
      rintro rfl
      exact hw.2 (by decide)
    rw [head_words hwords] at h
    cases hdrop : (escapeField [] ++ w :: (escapeField after ++ ' ' :: tail)).dropWhile
        isWhitespace with
    | nil =>
      rw [hdrop, List.takeWhile_nil, List.flatMap_nil, unescapeBytes] at h
      cases h
    | cons c text =>
      have hc : isWhitespace c = false := by
        have hhead := List.head?_dropWhile_not isWhitespace
          (escapeField [] ++ w :: (escapeField after ++ ' ' :: tail))
        rw [hdrop] at hhead
        simpa using hhead
      rw [hdrop] at h hescaped
      obtain ⟨d, rest, hdecoded, hd⟩ := head_unescapeBytes hescaped hc
      rw [hdecoded] at h
      obtain ⟨rfl, -⟩ := List.cons.inj h
      exact hd hw
  · -- the word ends at the cut
    rw [words_escapeField hnil hbefore hw.1] at hwords
    obtain ⟨rfl, -⟩ := List.cons.inj hwords
    have hlatin := unescapeBytes_escapeField before []
    rw [List.append_nil, unescapeBytes, List.append_nil] at hlatin
    rw [hlatin] at h
    exact latin_ne_append (not_mem_doubled hw.1) h

/-- Of a field that was not cut the characters of ASCII come back. -/
theorem decoded_escapeField {field : List Char} :
    unescapeBytes ((escapeField field).flatMap String.utf8EncodeChar) = field ↔
      ∀ c ∈ field, c.toNat < 128 := by
  have hlatin := unescapeBytes_escapeField field []
  rw [List.append_nil, unescapeBytes, List.append_nil] at hlatin
  rw [hlatin]
  exact ⟨ascii_of_latin_eq, latin_of_ascii⟩

/-- A plain field has nothing that cuts a line, and is ASCII. -/
theorem plain_iff {s : String} :
    Plain s ↔ (∀ c ∈ s.toList, ¬ Cuts c) ∧ ∀ c ∈ s.toList, c.toNat < 128 := by
  have hall : ∀ n : Fin 128, ¬ Cuts (Char.ofNat n.val) ↔
      n.val ≠ 11 ∧ n.val ≠ 12 ∧ n.val ≠ 13 := by
    decide +kernel
  have hchar : ∀ c : Char, c.toNat < 128 →
      (¬ Cuts c ↔ c.toNat ≠ 11 ∧ c.toNat ≠ 12 ∧ c.toNat ≠ 13) := by
    intro c hc
    have hcode := hall ⟨c.toNat, hc⟩
    rwa [Char.ofNat_toNat] at hcode
  rw [← forall₂_and]
  refine forall₂_congr fun c _ => ?_
  constructor
  · rintro ⟨hascii, hcodes⟩
    exact ⟨(hchar c hascii).mpr hcodes, hascii⟩
  · rintro ⟨hcuts, hascii⟩
    exact ⟨hascii, (hchar c hascii).mp hcuts⟩

/-- The first word of a text that begins with a field is decoded as it just if the field is
plain, and then the text goes on behind it. -/
theorem field_decoded_iff {s : String} (hs : s ≠ "") {tail : List Char}
    (htail : WellEscaped tail) {word : List Char} {others : List (List Char)}
    (hwords : words (escapeField s.toList ++ ' ' :: tail) = word :: others) :
    unescapeMountField (String.ofList word) = s ↔ Plain s := by
  have hne : s.toList ≠ [] := fun h => hs (String.toList_eq_nil_iff.mp h)
  have hchars : unescapeMountField (String.ofList word) = s ↔
      unescapeBytes (word.flatMap String.utf8EncodeChar) = s.toList := by
    rw [unescapeMountField, utf8Bytes, String.toList_ofList, ← String.toList_inj,
      String.toList_ofList]
  rw [hchars, plain_iff]
  constructor
  · intro h
    have huncut := uncut_of_decoded hne htail hwords h
    rw [words_escapeField hne huncut isWhitespace_space] at hwords
    obtain ⟨rfl, -⟩ := List.cons.inj hwords
    exact ⟨huncut, decoded_escapeField.mp h⟩
  · rintro ⟨huncut, hascii⟩
    rw [words_escapeField hne huncut isWhitespace_space] at hwords
    obtain ⟨rfl, -⟩ := List.cons.inj hwords
    exact decoded_escapeField.mpr hascii

theorem KernelMount.wellEscaped_rest (m : KernelMount) : WellEscaped m.rest := by
  have hlast : WellEscaped [' ', '0', ' ', '0'] :=
    .char (by decide) (.char (by decide) (.char (by decide) (.char (by decide) .nil)))
  exact (hlast.escapeField _).blank.escapeField _

/-- What is read from a line, as far as the device and the mountpoint go. -/
theorem mountOf_line (m : KernelMount) :
    (mountOf m.line).map (fun r => (r.device, r.mountpoint)) = some (m.device, m.mountpoint) ↔
      Plain m.device ∧ Plain m.mountpoint := by
  have hdevice : m.device.toList ≠ [] := fun h => m.device_ne (String.toList_eq_nil_iff.mp h)
  have hmountpoint : m.mountpoint.toList ≠ [] := fun h =>
    m.mountpoint_ne (String.toList_eq_nil_iff.mp h)
  have htail := (m.wellEscaped_rest.blank).escapeField m.mountpoint.toList
  -- behind a plain device the line goes on with the mountpoint
  have hbehind : Plain m.device → words m.line = escapeField m.device.toList ::
      words (escapeField m.mountpoint.toList ++ ' ' :: m.rest) := fun hplain =>
    words_escapeField hdevice (plain_iff.mp hplain).1 isWhitespace_space _
  rw [mountOf]
  constructor
  · intro h
    cases hwords : words m.line with
    | nil =>
      rw [hwords] at h
      cases h
    | cons first others =>
      have hfirst := field_decoded_iff m.device_ne htail hwords
      rcases others with _ | ⟨second, _ | ⟨third, others⟩⟩
      · rw [hwords] at h
        cases h
      · rw [hwords] at h
        cases h
      · rw [hwords] at h
        obtain ⟨hd, hm⟩ := Prod.mk.inj (Option.some.inj h)
        have hplain := hfirst.mp hd
        rw [hbehind hplain] at hwords
        exact ⟨hplain,
          (field_decoded_iff m.mountpoint_ne m.wellEscaped_rest (List.cons.inj hwords).2).mp hm⟩
  · rintro ⟨hd, hm⟩
    have hrest : words m.rest ≠ [] := by
      refine words_ne_nil (c := '0') ?_ (by decide +kernel)
      simp [KernelMount.rest]
    obtain ⟨third, others, hthird⟩ := List.exists_cons_of_ne_nil hrest
    have hsecond : words (escapeField m.mountpoint.toList ++ ' ' :: m.rest)
        = escapeField m.mountpoint.toList :: words m.rest :=
      words_escapeField hmountpoint (plain_iff.mp hm).1 isWhitespace_space _
    have hline := hbehind hd
    have hdevice' := (field_decoded_iff m.device_ne htail hline).mpr hd
    have hmountpoint' := (field_decoded_iff m.mountpoint_ne m.wellEscaped_rest hsecond).mpr hm
    rw [hline, hsecond, hthird]
    simp [hdevice', hmountpoint']

/-! ## The whole table -/

/-- No line is broken up, and each is read by itself. -/
theorem table_render (mounts : List KernelMount) :
    table (render mounts) = mounts.filterMap fun m => mountOf m.line := by
  have hfeed : ∀ field : List Char, '\n' ∉ escapeField field := by
    intro field hmem
    obtain ⟨c, -, hc⟩ := List.mem_flatMap.mp hmem
    unfold escapeChar at hc
    split_ifs at hc with h₁ h₂ h₃ h₄
    · exact absurd hc (by decide)
    · exact absurd hc (by decide)
    · exact absurd hc (by decide)
    · exact absurd hc (by decide)
    · exact h₃ (List.mem_singleton.mp hc).symm
  have hlines : lines (mounts.flatMap fun m => m.line ++ ['\n']) = mounts.map KernelMount.line := by
    refine lines_flatMap fun m _ => ⟨?_, ?_⟩
    · simp [KernelMount.line, KernelMount.rest, hfeed]
    · have hlast : m.line = (escapeField m.device.toList ++ ' ' ::
          (escapeField m.mountpoint.toList ++ ' ' :: (escapeField m.fstype.toList ++ ' ' ::
            (escapeField m.options.toList ++ [' ', '0', ' '])))) ++ ['0'] := by
        simp [KernelMount.line, KernelMount.rest]
      rw [hlast, List.getLast?_concat]
      decide
  rw [table, render, String.toList_ofList, hlines, List.filterMap_map]
  rfl

/-- With mountpoints that are all different nothing is replaced. -/
theorem foldl_place_of_nodup {mounts : List Mount} (h : (mounts.map (·.mountpoint)).Nodup) :
    mounts.foldl place [] = mounts := by
  induction mounts using List.reverseRecOn with
  | nil => rfl
  | append_singleton mounts last ih =>
    rw [List.map_append, List.map_singleton, List.nodup_append] at h
    obtain ⟨hmounts, -, hlast⟩ := h
    have hkept : ∀ m ∈ mounts, decide (m.mountpoint ≠ last.mountpoint) = true := by
      intro m hm
      exact decide_eq_true (hlast _ (List.mem_map_of_mem hm) _ (List.mem_singleton_self _))
    rw [List.foldl_concat, ih hmounts, place, List.filter_eq_self.mpr hkept]

/-- As many results as elements: each element has its own. -/
theorem filterMap_eq_map {α β : Type} {f : α → Option β} {g : α → β} {l : List α} :
    l.filterMap f = l.map g ↔ ∀ a ∈ l, f a = some (g a) := by
  induction l with
  | nil => simp
  | cons a l ih =>
    rw [List.forall_mem_cons, List.map_cons]
    cases hfa : f a with
    | none =>
      rw [List.filterMap_cons_none hfa]
      constructor
      · intro h
        have hlength := congrArg List.length h
        have hle := List.length_filterMap_le f l
        rw [List.length_cons, List.length_map] at hlength
        omega
      · rintro ⟨h, -⟩
        cases h
    | some b =>
      rw [List.filterMap_cons_some hfa, List.cons.injEq, ih, Option.some_inj]

/-- **The table is read back just if its fields are plain**: for mounts at different
mountpoints, the devices and mountpoints that the kernel has escaped are decoded, in order,
exactly if every one of them is ASCII without vertical tab, form feed and carriage return. -/
theorem decoded_iff_plain (mounts : List KernelMount)
    (hdistinct : (mounts.map (·.mountpoint)).Nodup) :
    Decoded mounts ↔ ∀ m ∈ mounts, Plain m.device ∧ Plain m.mountpoint := by
  have hparse : parseMounts (render mounts) [] = (table (render mounts)).foldl place [] := by
    rw [parseMounts_eq, List.filter_eq_self.mpr fun m _ => decide_eq_true List.not_mem_nil]
  have htable : (table (render mounts)).map (fun m => (m.device, m.mountpoint))
      = mounts.filterMap fun m => (mountOf m.line).map fun r => (r.device, r.mountpoint) := by
    rw [table_render, List.map_filterMap]
  have hlines : (table (render mounts)).map (fun m => (m.device, m.mountpoint))
      = mounts.map (fun m => (m.device, m.mountpoint)) ↔
        ∀ m ∈ mounts, Plain m.device ∧ Plain m.mountpoint := by
    rw [htable, filterMap_eq_map]
    exact forall₂_congr fun m _ => mountOf_line m
  rw [Decoded, hparse, ← hlines]
  constructor
  · intro h
    -- as many mounts as lines: none is missing, and none was replaced
    have hlength := congrArg List.length h
    have hle := List.length_filterMap_le (fun m : KernelMount => mountOf m.line) mounts
    rw [← table_render] at hle
    rw [List.length_map, List.length_map] at hlength
    have hall := (sublist_foldl_place (table (render mounts))).eq_of_length_le (by omega)
    rw [hall] at h
    exact h
  · intro h
    have hmountpoints : (table (render mounts)).map (·.mountpoint)
        = mounts.map (·.mountpoint) := by
      have hsnd := congrArg (List.map Prod.snd) h
      rw [List.map_map, List.map_map] at hsnd
      exact hsnd
    rw [← hmountpoints] at hdistinct
    rw [foldl_place_of_nodup hdistinct]
    exact h

/-- A blank, a backslash and what then looks like an escape come back. -/
theorem decoded_iff_plain_blank :
    Decoded [⟨"/dev/sdc1", "/mnt/My \\040Disk", "ext4", "rw", by decide, by decide⟩] :=
  (decoded_iff_plain _ (by decide)).mpr
    (List.forall_mem_singleton.mpr ⟨plain_of_all (by decide), plain_of_all (by decide)⟩)

/-- A letter that is not ASCII is read as two. -/
theorem accent_not_decoded :
    ¬ Decoded [⟨"/dev/sdc1", "/mnt/Képek", "ext4", "rw", by decide, by decide⟩] := by
  unfold Decoded
  decide +kernel

end HostServices.SystemMetrics
