import HostServices.Lib.Hex
import HostServices.Lib.Text

/-!
# The setup portal (`modules/connectivity-fallback.nix`)

A device without a network shows a form, and stores the network that is entered where iwd looks
for it. iwd has a rule for the name of the file: the network's own name if it is simple enough,
else its bytes in hexadecimal. The portal has the rule a second time, and takes one character more
for simple.

- `encodePath`, `writeCredentials`, `doPost`: the source's functions;
- `iwdPath`: the rule of iwd;
- `encodePath_injective`: no two networks share a file;
- `doPost_iwd`: the networks that iwd finds.
-/

namespace HostServices.Scripts.Portal

open HostServices.Lib

/-! ## The portal -/

/-- What `parse_qs` makes of a form. -/
abbrev Form := List (String × List String)

/-- `form.get(key, [""])[0]` -/
def Form.first (form : Form) (key : String) : String :=
  ((form.find? fun field => field.1 = key).bind fun field => field.2.head?).getD ""

/-- What `str.strip` takes off: blanks, and the separators among the control characters. -/
def isPySpace (c : Char) : Bool := isWhitespace c || ('\x1c' ≤ c && c ≤ '\x1f')

/-- `str.strip`: without the blanks at both ends. -/
def strip (text : String) : String :=
  String.ofList ((text.toList.dropWhile isPySpace).rdropWhile isPySpace)

/-- `[A-Za-z0-9 _-]` -/
def isIwdChar (c : Char) : Bool :=
  ('A' ≤ c && c ≤ 'Z') || ('a' ≤ c && c ≤ 'z') || ('0' ≤ c && c ≤ '9') || c = ' ' || c = '_' ||
    c = '-'

/-- `[A-Za-z0-9 _.-]` -/
def isPlainChar (c : Char) : Bool := isIwdChar c || c = '.'

/-- `"=" + ssid.encode("utf-8").hex()` -/
def hexName (ssid : String) : String := "=" ++ String.ofList ((utf8Bytes ssid).flatMap hexByte)

/-- `IWD_DIR` -/
def iwdDir : String := "/var/lib/iwd/"

/-- The name that `encode_path` gives a file, without the extension. -/
def encodeName (ssid : String) : String :=
  if ssid ≠ "" ∧ ssid.toList.all isPlainChar = true then ssid else hexName ssid

/-- Where the credentials of a network are written. -/
def encodePath (ssid ext : String) : String := iwdDir ++ (encodeName ssid ++ "." ++ ext)

/-- A file that is written. -/
structure File where
  path : String
  content : String
  deriving DecidableEq

/-- `write_credentials`: a network with a passphrase, or an open one. -/
def writeCredentials (ssid psk : String) : File :=
  if psk ≠ "" then
    { path := encodePath ssid "psk", content := "[Security]\nPassphrase=" ++ psk ++ "\n" }
  else { path := encodePath ssid "open", content := "[Settings]\nAutoConnect=true\n" }

/-- What a request comes to. -/
inductive Response
  | refused (message : String)
  | saved (file : File)

/-- `do_POST`, once the form is read. -/
def doPost (form : Form) : Response :=
  let ssid := strip (form.first "ssid")
  let psk := form.first "psk"
  if ¬ (1 ≤ (utf8Bytes ssid).length ∧ (utf8Bytes ssid).length ≤ 32) then
    .refused "<p>Invalid SSID (1..32 bytes).</p>"
  else if psk ≠ "" ∧ ¬ (8 ≤ psk.length ∧ psk.length ≤ 63) then
    .refused "<p>Invalid password (8..63 chars, or blank).</p>"
  else .saved (writeCredentials ssid psk)

/-! ## What iwd does -/

/-- The name of a known network's file. -/
def iwdName (ssid : String) : String :=
  if ssid.toList.all isIwdChar = true then ssid else hexName ssid

/-- Where iwd looks for the credentials of a network. -/
def iwdPath (ssid ext : String) : String := iwdDir ++ (iwdName ssid ++ "." ++ ext)

/-! ## Names -/

/-- The name is simple for the portal, but has a dot. -/
def Dotted (ssid : String) : Prop := ssid.toList.all isPlainChar = true ∧ '.' ∈ ssid.toList

/-- The characters that iwd leaves as they are: those of the script without the dot. -/
theorem all_isIwdChar_iff {ssid : String} :
    ssid.toList.all isIwdChar = true ↔ ssid.toList.all isPlainChar = true ∧ '.' ∉ ssid.toList := by
  rw [List.all_eq_true, List.all_eq_true]
  constructor
  · intro h
    refine ⟨fun c hc => ?_, fun hdot => absurd (h '.' hdot) (by decide)⟩
    rw [isPlainChar, h c hc, Bool.true_or]
  · rintro ⟨hplain, hdot⟩ c hc
    have hboth := hplain c hc
    rw [isPlainChar, Bool.or_eq_true, decide_eq_true_iff] at hboth
    rcases hboth with hiwd | rfl
    · exact hiwd
    · exact absurd hc hdot

/-- A name in hexadecimal begins with a character that no simple name has. -/
theorem hexName_ne {ssid ssid' : String} (h : ssid.toList.all isPlainChar = true) :
    ssid ≠ hexName ssid' := by
  rintro rfl
  rw [hexName, String.toList_append, List.all_append, Bool.and_eq_true] at h
  exact absurd h.1 (by decide)

/-- Different names have different hexadecimal ones. -/
theorem hexName_injective : Function.Injective hexName := by
  intro ssid ssid' h
  rw [hexName, hexName, String.append_right_inj, String.ofList_inj] at h
  exact utf8Bytes_injective (prefixCode_hexByte.flatMap_injective h)

/-- Different networks have different names. -/
theorem encodeName_injective : Function.Injective encodeName := by
  intro ssid ssid' h
  rw [encodeName, encodeName] at h
  split_ifs at h with hplain hplain' hplain'
  · exact h
  · exact absurd h (hexName_ne hplain.2)
  · exact absurd h.symm (hexName_ne hplain'.2)
  · exact hexName_injective h

/-- The names are iwd's but for the dots. -/
theorem encodeName_eq_iwdName_iff {ssid : String} (h : ssid ≠ "") :
    encodeName ssid = iwdName ssid ↔ ¬ Dotted ssid := by
  by_cases hplain : ssid.toList.all isPlainChar = true
  · rw [encodeName, if_pos ⟨h, hplain⟩, iwdName]
    by_cases hdot : '.' ∈ ssid.toList
    · rw [if_neg fun hiwd => (all_isIwdChar_iff.mp hiwd).2 hdot]
      exact iff_of_false (hexName_ne hplain) fun hnot => hnot ⟨hplain, hdot⟩
    · rw [if_pos (all_isIwdChar_iff.mpr ⟨hplain, hdot⟩)]
      exact iff_of_true rfl fun hdotted => hdot hdotted.2
  · rw [encodeName, if_neg fun hboth => hplain hboth.2, iwdName,
      if_neg fun hiwd => hplain (all_isIwdChar_iff.mp hiwd).1]
    exact iff_of_true rfl fun hdotted => hplain hdotted.1

/-! ## Files -/

/-- The extension for a password. -/
def extension (psk : String) : String := if psk ≠ "" then "psk" else "open"

/-- Where the file is written. -/
theorem path_writeCredentials (ssid psk : String) :
    (writeCredentials ssid psk).path = encodePath ssid (extension psk) := by
  by_cases h : psk ≠ ""
  · rw [writeCredentials, if_pos h, extension, if_pos h]
  · rw [writeCredentials, if_neg h, extension, if_neg h]

/-- The extensions do not end alike. -/
theorem append_extension_inj {name name' psk psk' : String}
    (h : name ++ "." ++ extension psk = name' ++ "." ++ extension psk') : name = name' := by
  have hlast := congrArg (fun text => text.toList.getLast?) h
  rw [extension, extension] at h hlast
  split_ifs at h hlast
  · exact (String.append_left_inj _).mp ((String.append_left_inj _).mp h)
  · simp at hlast
  · simp at hlast
  · exact (String.append_left_inj _).mp ((String.append_left_inj _).mp h)

/-- Different networks have different files. -/
theorem encodePath_injective {ssid ssid' psk psk' : String}
    (h : encodePath ssid (extension psk) = encodePath ssid' (extension psk')) : ssid = ssid' := by
  rw [encodePath, encodePath, String.append_right_inj] at h
  exact encodeName_injective (append_extension_inj h)

/-- The file is where iwd looks for it, unless the name is a dotted one. -/
theorem encodePath_eq_iwdPath_iff {ssid : String} (h : ssid ≠ "") (ext : String) :
    encodePath ssid ext = iwdPath ssid ext ↔ ¬ Dotted ssid := by
  rw [encodePath, iwdPath, String.append_right_inj, String.append_left_inj,
    String.append_left_inj]
  exact encodeName_eq_iwdName_iff h

/-- What is saved for a form. -/
theorem doPost_eq_saved {form : Form} {file : File} (h : doPost form = .saved file) :
    strip (form.first "ssid") ≠ "" ∧
      file.path = encodePath (strip (form.first "ssid")) (extension (form.first "psk")) := by
  rw [doPost] at h
  split_ifs at h with hssid hpsk
  cases h
  refine ⟨fun hempty => ?_, path_writeCredentials _ _⟩
  have hlength := hssid.1
  rw [hempty] at hlength
  exact absurd hlength (by decide)

/-- **A network that is entered is stored where iwd looks for it, unless its name is simple but
for a dot**; and no two networks share a file. -/
theorem doPost_iwd {form : Form} {file : File} (h : doPost form = .saved file) :
    (file.path = iwdPath (strip (form.first "ssid")) (extension (form.first "psk")) ↔
      ¬ Dotted (strip (form.first "ssid"))) ∧
    ∀ form' file', doPost form' = .saved file' → file.path = file'.path →
      strip (form.first "ssid") = strip (form'.first "ssid") := by
  obtain ⟨hne, hpath⟩ := doPost_eq_saved h
  rw [hpath]
  refine ⟨encodePath_eq_iwdPath_iff hne _, fun form' file' h' hsame => ?_⟩
  obtain ⟨_, hpath'⟩ := doPost_eq_saved h'
  rw [hpath'] at hsame
  exact encodePath_injective hsame

/-- A network with a simple name. -/
def homeForm : Form := [("ssid", [" home "]), ("psk", ["correct horse"])]

theorem doPost_iwd_home :
    doPost homeForm = .saved (writeCredentials "home" "correct horse") ∧
      (((writeCredentials "home" "correct horse").path
          = iwdPath (strip (homeForm.first "ssid")) (extension (homeForm.first "psk")) ↔
        ¬ Dotted (strip (homeForm.first "ssid"))) ∧
      ∀ form' file', doPost form' = .saved file' →
        (writeCredentials "home" "correct horse").path = file'.path →
        strip (homeForm.first "ssid") = strip (form'.first "ssid")) := by
  have hsaved : doPost homeForm = .saved (writeCredentials "home" "correct horse") := by
    rfl
  exact ⟨hsaved, doPost_iwd hsaved⟩

/-- A network with a dot in its name. -/
def dottedForm : Form := [("ssid", ["my.net"]), ("psk", ["correct horse"])]

/-- The network of this name is stored where iwd does not look. -/
theorem doPost_dotted :
    doPost dottedForm = .saved (writeCredentials "my.net" "correct horse") ∧
      (writeCredentials "my.net" "correct horse").path = "/var/lib/iwd/my.net.psk" ∧
      iwdPath "my.net" "psk" = "/var/lib/iwd/=6d792e6e6574.psk" ∧
      (writeCredentials "my.net" "correct horse").path ≠ iwdPath "my.net" "psk" := by
  have hpath : (writeCredentials "my.net" "correct horse").path = "/var/lib/iwd/my.net.psk" := by
    decide +kernel
  have hiwd : iwdPath "my.net" "psk" = "/var/lib/iwd/=6d792e6e6574.psk" := by decide +kernel
  refine ⟨rfl, hpath, hiwd, ?_⟩
  rw [hpath, hiwd]
  decide

end HostServices.Scripts.Portal
