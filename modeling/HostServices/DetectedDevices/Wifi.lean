import HostServices.Lib.CommaList
import HostServices.Lib.Text

/-!
# Networks out of a scan (`detected-devices/src/wifi.rs`)

`iw` prints a block of lines for each network, which begins with `BSS` and an address. The
parser goes over the lines once, by what they begin with, and completes the last block.

How `f64` reads a number is a parameter of the model; only the fields that hold the number
depend on it.

- `Bss`: the source's type;
- `applyLine`: what a line does to the block it stands in;
- `scanTrimmed`, `parseScan`: the source's loop, and the pass behind it.
-/

namespace HostServices.DetectedDevices.Wifi

open HostServices.Lib

/-- `Bss`: what is known of one access point. -/
structure Bss (F : Type) where
  bssid : String
  associated : Bool
  ssid : Option String := none
  frequencyMhz : Option F := none
  channel : Option Int64 := none
  signalDbm : Option F := none
  lastSeenMs : Option Int64 := none
  beaconIntervalTu : Option Int64 := none
  security : Option String := none
  pairwiseCiphers : Option String := none
  authSuites : Option String := none
  wps : Option Bool := none
  widthMhz : Option Int64 := none
  standards : Option String := none
  country : Option String := none

/-- Six parts of two hexadecimal digits. -/
def looksLikeBssid (token : List Char) : Bool :=
  let parts := token.splitOn ':'
  parts.all (fun part => part.length == 2 && part.all isHexDigit) && parts.length == 6

/-- What stands behind `BSS ` up to a bracket or a blank. -/
def bssidOf (rest : List Char) : List Char := rest.takeWhile fun c => c ≠ '(' && c ≠ ' '

/-- A number, once the blanks and its unit are gone. -/
def intOf (text : List Char) : Option Int64 := parseI64 (String.ofList (trim text))

/-- The words of a text, with commas between them. -/
def commaWords (text : List Char) : String :=
  String.ofList ([','].intercalate (words text))

variable {F : Type}

/-- `push_standard`. -/
def pushStandard (bss : Bss F) (name : String) : Bss F :=
  { bss with standards := pushDistinct bss.standards name }

/-- What a line does to the block it stands in. -/
def applyLine (parseF64 : String → Option F) (bss : Bss F) (trimmed : List Char) : Bss F :=
  if let some rest := labelled "last seen: " trimmed then
    -- the age, not the boottime stamp
    match stripSuffix " ms ago".toList rest with
    | some ms => { bss with lastSeenMs := intOf ms }
    | none => bss
  else if let some rest := labelled "SSID: " trimmed then
    if trim rest = [] then bss else { bss with ssid := some (String.ofList (trim rest)) }
  else if let some rest := labelled "freq: " trimmed then
    { bss with frequencyMhz := parseF64 (String.ofList (trim rest)) }
  else if let some rest := labelled "signal: " trimmed then
    { bss with
      signalDbm := parseF64 (String.ofList (trim (trimEndMatches " dBm" (trim rest)))) }
  else if let some rest := labelled "beacon interval: " trimmed then
    { bss with beaconIntervalTu := intOf (trimEndMatches " TUs" (trim rest)) }
  else if let some rest := labelled "DS Parameter set: channel " trimmed then
    { bss with channel := intOf rest }
  else if let some rest := labelled "Country: " trimmed then
    let code := rest.takeWhile fun c => c.isAlphanum
    if code.length = 2 then { bss with country := some (String.ofList code) } else bss
  else if startsWith "RSN:" trimmed then
    -- WPA2, unless the suites say otherwise further down
    { bss with security := some "wpa2" }
  else if startsWith "WPA:" trimmed then
    if bss.security.isNone then { bss with security := some "wpa" } else bss
  else if let some rest := labelled "* Pairwise ciphers: " trimmed then
    { bss with pairwiseCiphers := some (commaWords rest) }
  else if let some rest := labelled "* Authentication suites: " trimmed then
    { bss with
      security := if (words rest).contains "SAE".toList then some "wpa3" else bss.security
      authSuites := some (commaWords rest) }
  else if startsWith "WPS:" trimmed then { bss with wps := some true }
  else if let some rest := labelled "* STA channel width: " trimmed then
    { bss with widthMhz := intOf (trimEndMatches " MHz" (trim rest)) }
  else if startsWith "HT capabilities:" trimmed then pushStandard bss "ht"
  else if startsWith "VHT capabilities:" trimmed then pushStandard bss "vht"
  else if startsWith "HE capabilities:" trimmed then pushStandard bss "he"
  else bss

/-- The loop of `parse_scan`, once the blanks around a line are gone; the last block is at the
head. -/
def scanTrimmed (parseF64 : String → Option F) (out : List (Bss F)) (trimmed : List Char) :
    List (Bss F) :=
  match labelled "BSS " trimmed with
  | some rest =>
    -- `BSS Load:` and `BSS Color:` are elements and begin no block
    if looksLikeBssid (bssidOf rest) then
      { bssid := String.ofList (bssidOf rest),
        associated := (cutAt "-- associated".toList rest).isSome } :: out
    else out
  | none =>
    match out with
    | [] => []
    | bss :: done => applyLine parseF64 bss trimmed :: done

/-- The pass behind the loop. -/
def closeSecurity (bss : Bss F) : Bss F :=
  if bss.security.isNone then { bss with security := some "open" } else bss

/-- `parse_scan`; how the text of a number becomes a float is a parameter. -/
def parseScan (parseF64 : String → Option F) (text : String) : List (Bss F) :=
  ((lines text.toList).foldl (fun out line => scanTrimmed parseF64 out (trim line)) []).reverse.map
    closeSecurity

end HostServices.DetectedDevices.Wifi
