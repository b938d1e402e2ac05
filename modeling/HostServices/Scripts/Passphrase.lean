import HostServices.Lib.Settings
import HostServices.Lib.Urlencoded
import HostServices.Scripts.Portal

/-!
# What the setup portal stores (`modules/connectivity-fallback.nix`)

The password that is entered in the form is put into a file of settings as it is. The length is
all that is looked at: a line feed in it ends the setting, and what follows is read as further
lines.

- `readForm`: from the body of a request to its fields;
- `StoresExactly`: the file says the password and nothing else;
- `passphrase_stored_iff`: exactly the passwords without a line feed are stored.
-/

namespace HostServices.Scripts.Portal

open HostServices.Lib

/-- `parse_qs(self.rfile.read(length).decode("utf-8"))`, unless the body cannot be decoded. -/
def readForm (body : List UInt8) : Option Form :=
  (fromUtf8 body).map fun raw => parseQs raw.toList

/-- `do_POST`, from the body of the request on. -/
def handlePost (body : List UInt8) : Option Response := (readForm body).map doPost

/-- The password in a request. -/
def submittedPsk (body : List UInt8) : Option String :=
  (readForm body).map fun form => form.first "psk"

/-- One group, with one setting, which is the password. -/
def StoresExactly (file : File) (psk : String) : Prop :=
  readSettings file.content.toList
    = [⟨"Security".toList, [("Passphrase".toList, psk.toList)]⟩]

/-- What is saved with a password. -/
theorem content_of_saved {form : Form} {file : File} (h : doPost form = .saved file)
    (hpsk : form.first "psk" ≠ "") :
    file.content = "[Security]\nPassphrase=" ++ form.first "psk" ++ "\n" := by
  rw [doPost] at h
  split_ifs at h
  cases h
  rw [writeCredentials, if_pos hpsk]

/-- A passphrase is stored as it is just if it has no line feed. -/
theorem storesExactly_iff {file : File} {psk : String}
    (h : file.content = "[Security]\nPassphrase=" ++ psk ++ "\n") :
    StoresExactly file psk ↔ '\n' ∉ psk.toList := by
  constructor
  · intro hstores
    have hgroup : (⟨"Security".toList, [("Passphrase".toList, psk.toList)]⟩ : SettingsGroup)
        ∈ readSettings file.content.toList := by
      rw [hstores]
      exact List.mem_singleton_self _
    exact not_mem_value hgroup (List.mem_singleton_self _)
  · intro hpsk
    have hfront : "[Security]\nPassphrase=".toList
        = '[' :: ("Security".toList ++ [']']) ++ '\n' :: ("Passphrase".toList ++ ['=']) := by
      decide
    have hcontent : file.content.toList = '[' :: ("Security".toList ++ [']'])
        ++ '\n' :: ("Passphrase".toList ++ '=' :: psk.toList ++ ['\n']) := by
      rw [h, String.toList_append, String.toList_append, hfront]
      simp
    rw [StoresExactly, hcontent]
    exact readSettings_single (by decide) (by decide) (by decide) (by decide) (by decide) hpsk

/-- **A password is stored exactly if it has no line feed.** -/
theorem passphrase_stored_iff {body : List UInt8} {psk : String} {file : File}
    (hsubmitted : submittedPsk body = some psk) (hsaved : handlePost body = some (.saved file))
    (hpsk : psk ≠ "") : StoresExactly file psk ↔ '\n' ∉ psk.toList := by
  obtain ⟨form, hform, rfl⟩ := Option.map_eq_some_iff.mp hsubmitted
  rw [handlePost, hform, Option.map_some, Option.some_inj] at hsaved
  exact storesExactly_iff (content_of_saved hsaved hpsk)

/-! ## Two requests -/

/-- A part of a form, where the escapes stand for the bytes of two texts. -/
theorem parseField_of_bytes (name value : String) {part : List Char} {key psk : String}
    (hcut : cutAt ['='] part = some (name.toList, value.toList)) (hne : value.toList ≠ [])
    (hascii : (plusToSpace name.toList ++ plusToSpace value.toList).all
      (fun c => decide (c.toNat < 128)) = true)
    (hname : unquoteBytes ((plusToSpace name.toList).map fun c => UInt8.ofNat c.toNat)
      = utf8Bytes key)
    (hvalue : unquoteBytes ((plusToSpace value.toList).map fun c => UInt8.ofNat c.toNat)
      = utf8Bytes psk) : parseField part = some (key, psk) := by
  have hchars : ∀ c ∈ plusToSpace name.toList ++ plusToSpace value.toList, c.toNat < 128 :=
    fun c hc => of_decide_eq_true (List.all_eq_true.mp hascii c hc)
  rw [List.forall_mem_append] at hchars
  rw [parseField, hcut]
  show (if value.toList = [] then none else _) = _
  rw [if_neg hne, unquote_of_bytes hchars.1 hname, unquote_of_bytes hchars.2 hvalue,
    String.ofList_toList, String.ofList_toList]

/-- A body with two fields. -/
theorem readForm_two {text : String} {first second : List Char} {field field' : String × String}
    (hsplit : text.toList.splitOn '&' = [first, second]) (hfirst : parseField first = some field)
    (hsecond : parseField second = some field') :
    readForm (utf8Bytes text) = some ([field, field'].foldl addField []) := by
  rw [readForm, fromUtf8_utf8Bytes, Option.map_some, parseQs, parseQsl, hsplit,
    List.filterMap_cons_some hfirst, List.filterMap_cons_some hsecond, List.filterMap_nil]

/-- A password with a blank. -/
def homeBody : List UInt8 := utf8Bytes "ssid=+home+&psk=correct+horse"

theorem readForm_homeBody : readForm homeBody = some homeForm := by
  have hssid : parseField "ssid=+home+".toList = some ("ssid", " home ") :=
    parseField_of_bytes "ssid" "+home+" (by decide +kernel) (by decide)
      (by decide +kernel) (by decide +kernel) (by decide +kernel)
  have hpsk : parseField "psk=correct+horse".toList = some ("psk", "correct horse") :=
    parseField_of_bytes "psk" "correct+horse" (by decide +kernel) (by decide)
      (by decide +kernel) (by decide +kernel) (by decide +kernel)
  exact readForm_two (by decide +kernel) hssid hpsk

/-- The sample: an ordinary network and its passphrase. -/
theorem passphrase_stored_iff_home :
    submittedPsk homeBody = some "correct horse" ∧
      handlePost homeBody = some (.saved (writeCredentials "home" "correct horse")) ∧
      StoresExactly (writeCredentials "home" "correct horse") "correct horse" := by
  have hsubmitted : submittedPsk homeBody = some "correct horse" := by
    rw [submittedPsk, readForm_homeBody]
    rfl
  have hsaved : handlePost homeBody = some (.saved (writeCredentials "home" "correct horse")) := by
    rw [handlePost, readForm_homeBody]
    rfl
  exact ⟨hsubmitted, hsaved,
    (passphrase_stored_iff hsubmitted hsaved (by decide)).mpr (by decide)⟩

/-- A password with two lines of its own behind it. -/
def injectingBody : List UInt8 :=
  utf8Bytes "ssid=home&psk=password%0A%5BSettings%5D%0AAutoConnect%3Dfalse"

/-- A passphrase that begins a group of its own. -/
def injectingPsk : String := "password\n[Settings]\nAutoConnect=false"

theorem readForm_injectingBody :
    readForm injectingBody = some [("ssid", ["home"]), ("psk", [injectingPsk])] := by
  have hssid : parseField "ssid=home".toList = some ("ssid", "home") :=
    parseField_of_bytes "ssid" "home" (by decide +kernel) (by decide)
      (by decide +kernel) (by decide +kernel) (by decide +kernel)
  have hpsk : parseField "psk=password%0A%5BSettings%5D%0AAutoConnect%3Dfalse".toList
      = some ("psk", injectingPsk) :=
    parseField_of_bytes "psk" "password%0A%5BSettings%5D%0AAutoConnect%3Dfalse"
      (by decide +kernel) (by decide) (by decide +kernel) (by decide +kernel)
      (by decide +kernel)
  exact readForm_two (by decide +kernel) hssid hpsk

/-- The client writes a setting of its own, and the password is another one. -/
theorem passphrase_injected :
    submittedPsk injectingBody = some injectingPsk ∧ injectingPsk ≠ "" ∧
      handlePost injectingBody = some (.saved (writeCredentials "home" injectingPsk)) ∧
      readSettings (writeCredentials "home" injectingPsk).content.toList
        = [⟨"Security".toList, [("Passphrase".toList, "password".toList)]⟩,
          ⟨"Settings".toList, [("AutoConnect".toList, "false".toList)]⟩] ∧
      ¬ StoresExactly (writeCredentials "home" injectingPsk) injectingPsk := by
  have hread : readSettings (writeCredentials "home" injectingPsk).content.toList
      = [⟨"Security".toList, [("Passphrase".toList, "password".toList)]⟩,
        ⟨"Settings".toList, [("AutoConnect".toList, "false".toList)]⟩] := by
    decide +kernel
  refine ⟨?_, by decide, ?_, hread, ?_⟩
  · rw [submittedPsk, readForm_injectingBody]
    rfl
  · rw [handlePost, readForm_injectingBody]
    rfl
  · rw [StoresExactly, hread]
    decide

end HostServices.Scripts.Portal
