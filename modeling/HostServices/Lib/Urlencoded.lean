import HostServices.Lib.FromStr
import HostServices.Lib.Hex
import HostServices.Lib.Text

/-!
# Submitted forms

What Python's `urllib.parse` makes of a form that a browser sends.

- `unquoteBytes`, `unquote`: `unquote_to_bytes`, and `unquote` with its replacement characters;
- `parseQsl`, `parseQs`: the fields of a form, and the values under each name;
- `unquote_of_bytes`: what escapes stand for, where they are those of a text.
-/

namespace HostServices.Lib

/-! ## Escapes -/

/-- The value of a hexadecimal digit. -/
def hexValue (b : UInt8) : Option Nat := toDigit 16 (byteChar b)

/-- `unquote_to_bytes`: a percent sign without two digits behind it stands for itself. -/
def unquoteBytes : List UInt8 → List UInt8
  | [] => []
  | first :: second :: third :: rest =>
    if first = 0x25 then
      match hexValue second, hexValue third with
      | some high, some low => UInt8.ofNat (16 * high + low) :: unquoteBytes rest
      | _, _ => first :: unquoteBytes (second :: third :: rest)
    else first :: unquoteBytes (second :: third :: rest)
  | first :: rest => first :: unquoteBytes rest

/-- A run of ASCII characters: `unquote_to_bytes(run).decode("utf-8", "replace")`. -/
def unquoteRun (run : List Char) : List Char :=
  lossyChars (unquoteBytes (run.map fun c => UInt8.ofNat c.toNat))

/-- What is left of a text, behind a run of ASCII characters. -/
def unquoteFrom (run : List Char) : List Char → List Char
  | [] => unquoteRun run
  | c :: text =>
    if c.toNat < 128 then unquoteFrom (run ++ [c]) text
    else unquoteRun run ++ c :: unquoteFrom [] text

/-- `unquote`: other characters are left as they are. -/
def unquote (text : List Char) : List Char := unquoteFrom [] text

/-! ## Fields -/

/-- `s.replace("+", " ")` -/
def plusToSpace (text : List Char) : List Char := text.map fun c => if c = '+' then ' ' else c

/-- The field in a part of a form, unless it has no value. -/
def parseField (part : List Char) : Option (String × String) :=
  match cutAt ['='] part with
  | none => none
  | some (name, value) =>
    if value = [] then none
    else some (String.ofList (unquote (plusToSpace name)),
      String.ofList (unquote (plusToSpace value)))

/-- `parse_qsl` -/
def parseQsl (text : List Char) : List (String × String) :=
  (text.splitOn '&').filterMap parseField

/-- A value is added to those of its name. -/
def addField (form : List (String × List String)) (field : String × String) :
    List (String × List String) :=
  if form.any fun entry => entry.1 = field.1 then
    form.map fun entry => if entry.1 = field.1 then (entry.1, entry.2 ++ [field.2]) else entry
  else form ++ [(field.1, [field.2])]

/-- `parse_qs` -/
def parseQs (text : List Char) : List (String × List String) :=
  (parseQsl text).foldl addField []

/-! ## Escaped texts -/

/-- A run of ASCII is unquoted as a whole. -/
theorem unquoteFrom_of_ascii {text : List Char} (h : ∀ c ∈ text, c.toNat < 128)
    (run : List Char) : unquoteFrom run text = unquoteRun (run ++ text) := by
  induction text generalizing run with
  | nil => rw [unquoteFrom, List.append_nil]
  | cons c text ih =>
    obtain ⟨hc, hrest⟩ := List.forall_mem_cons.mp h
    rw [unquoteFrom, if_pos hc, ih hrest, List.append_assoc, List.singleton_append]

/-- The escapes stand for the bytes of a text. -/
theorem unquote_of_bytes {text chars : List Char} (h : ∀ c ∈ text, c.toNat < 128)
    (hbytes : unquoteBytes (text.map fun c => UInt8.ofNat c.toNat)
      = chars.flatMap String.utf8EncodeChar) : unquote text = chars := by
  rw [unquote, unquoteFrom_of_ascii h, List.nil_append, unquoteRun, hbytes,
    lossyChars_flatMap]

end HostServices.Lib
