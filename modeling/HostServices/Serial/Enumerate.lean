import HostServices.Lib.Hex
import HostServices.Lib.LeastValue
import HostServices.Lib.Paths
import HostServices.Lib.Text
import HostServices.Bms.Session
import Mathlib.Data.List.Nodup
import Mathlib.Data.String.Basic

/-!
# The serial devices that are there (`discover.rs` of `inverter-monitoring` and `bms-monitoring`)

A device is what `/dev` has under a name of its own, and is known by the port it is plugged
into, for which udev keeps links in another directory. Neither directory lists its entries in an
order that can be relied on. The two programs share the text of the functions.

- `linksByTarget`, `enumerate`: the source's functions;
- `SerialDirs`: three directories, as a file system can have them;
- `enumerated`: what the list is;
- `enumerate_same`: it is the same list in whatever order the entries are read;
- `Inverter.enumerate`, `Bms.enumerate`, `enumerate_every_boot`: the two programs.
-/

namespace HostServices

open HostServices.Lib

namespace Serial

/-! ## The code -/

/-- One USB serial device: what to open, and two ways of naming it. -/
structure Candidate where
  tty : String
  pathId : String
  byId : Option String
  deriving DecidableEq, Repr

/-- The name of an entry. -/
structure EntryName where
  bytes : OsString
  no_slash : slash ∉ bytes
  deriving DecidableEq

/-- A link, and what `canonicalize` finds behind it. -/
structure Link where
  name : EntryName
  target : Option OsString

/-- The entries of a directory, which need not be there, that can be read. -/
def listed {α : Type} (dir : Option (List (Except String α))) : List α :=
  (dir.getD []).filterMap Except.toOption

/-- What identifies a device across the three directories. -/
def targetKey (path : OsString) : OsString := (fileName path).getD path

/-- A link that counts: the key of the device it points at, and its name. -/
def Link.entry (link : Link) : Option (List Component × String) :=
  match fromUtf8 link.name.bytes with
  | none => none
  | some name =>
    match link.target with
    | none => none
    | some target => some (components (targetKey target), name)

/-- Map of the device a link points at to the name of the link, the smallest if there are
several. -/
def linksByTarget (dir : Option (List (Except String Link))) :
    SortedMap (List Component) String :=
  match dir with
  | none => .empty
  | some entries => .leastValues ((listed (some entries)).filterMap Link.entry)

/-- `dev_dir.join(name)` -/
def ttyPath (devDir name : String) : String :=
  if devDir = "" ∨ devDir.toList.getLast? = some '/' then devDir ++ name
  else devDir ++ "/" ++ name

/-- The name of a USB serial device. -/
def ttyName (entry : EntryName) : Option String :=
  (fromUtf8 entry.bytes).filter fun name => startsWith "ttyUSB" name.toList

/-- The candidate of a device, with the links that lead to it. -/
def candidateOf (devDir : String) (byPath byId : SortedMap (List Component) String)
    (name : String) : Candidate :=
  let tty := ttyPath devDir name
  let key := components (targetKey (utf8Bytes tty))
  { tty := tty
    pathId := (byPath.get? key).getD tty
    byId := byId.get? key }

/-- `a.tty.cmp(&b.tty)` -/
def ttyLe (a b : Candidate) : Bool :=
  components (utf8Bytes a.tty) ≤ components (utf8Bytes b.tty)

/-- Every USB serial adapter present, in a deterministic order. -/
def enumerate (devDir : String) (dev : Option (List (Except String EntryName)))
    (byPathDir byIdDir : Option (List (Except String Link))) : List Candidate :=
  match dev with
  | none => []
  | some entries =>
    let byPath := linksByTarget byPathDir
    let byId := linksByTarget byIdDir
    let found := ((listed (some entries)).filterMap ttyName).map (candidateOf devDir byPath byId)
    found.mergeSort ttyLe

/-! ## Keys -/

/-- The entries that are devices. -/
theorem ttyName_eq_some {entry : EntryName} {name : String} :
    ttyName entry = some name ↔
      utf8Bytes name = entry.bytes ∧ startsWith "ttyUSB" name.toList = true := by
  rw [ttyName, Option.filter_eq_some_iff, fromUtf8_eq_some]

/-- The name of a device is one component. -/
theorem isPlain_of_ttyName {entry : EntryName} {name : String} (h : ttyName entry = some name) :
    IsPlain (utf8Bytes name) := by
  obtain ⟨hbytes, hstarts⟩ := ttyName_eq_some.mp h
  obtain ⟨rest, hrest⟩ := List.isPrefixOf_iff_prefix.mp hstarts
  have hhead : (utf8Bytes name).head? = some 0x74 := by
    rw [utf8Bytes, ← hrest]
    rfl
  have hne : ∀ bytes : OsString, bytes.head? ≠ some 0x74 → utf8Bytes name ≠ bytes := by
    rintro bytes hbytes rfl
    exact hbytes hhead
  exact ⟨hne [] (by decide), hbytes ▸ entry.no_slash, hne dot (by decide), hne dotDot (by decide)⟩

theorem utf8Bytes_ttyPath (devDir name : String) :
    utf8Bytes (ttyPath devDir name) = joinPath (utf8Bytes devDir) (utf8Bytes name) := by
  have hcond : (devDir = "" ∨ devDir.toList.getLast? = some '/') ↔
      (utf8Bytes devDir = [] ∨ (utf8Bytes devDir).getLast? = some slash) := by
    rw [utf8Bytes_eq_nil, ← getLast?_utf8Bytes_iff (a := '/') (by decide)]
    rfl
  rw [ttyPath, joinPath]
  split_ifs with hjoin hbytes hbytes
  · exact utf8Bytes_append devDir name
  · exact absurd (hcond.mp hjoin) hbytes
  · exact absurd (hcond.mpr hbytes) hjoin
  · rw [utf8Bytes_append, utf8Bytes_append, List.append_assoc]
    rfl

theorem components_ttyPath {name : String} (h : IsPlain (utf8Bytes name)) (devDir : String) :
    components (utf8Bytes (ttyPath devDir name))
      = components (utf8Bytes devDir) ++ [.normal (utf8Bytes name)] := by
  rw [utf8Bytes_ttyPath, h.components_joinPath]

/-- The key of a device is its name. -/
theorem components_targetKey_ttyPath {name : String} (h : IsPlain (utf8Bytes name))
    (devDir : String) :
    components (targetKey (utf8Bytes (ttyPath devDir name))) = [.normal (utf8Bytes name)] := by
  rw [targetKey, utf8Bytes_ttyPath, h.fileName_joinPath, Option.getD_some, h.components_self]

/-- The key of a target is that of a device exactly if the device's name is the target's final
component. -/
theorem components_targetKey_iff {device target : OsString} (h : IsPlain device) :
    components (targetKey target) = [.normal device] ↔ fileName target = some device := by
  constructor
  · intro hkey
    cases hname : fileName target with
    | none =>
      rw [targetKey, hname, Option.getD_none] at hkey
      rw [fileName, hkey] at hname
      cases hname
    | some name =>
      rw [targetKey, hname, Option.getD_some, (isPlain_of_fileName hname).components_self] at hkey
      cases hkey
      rfl
  · intro hname
    rw [targetKey, hname, Option.getD_some, h.components_self]

/-- Different devices have different paths. -/
theorem ttyPath_inj {name name' : String} (h : IsPlain (utf8Bytes name))
    (h' : IsPlain (utf8Bytes name')) {devDir : String}
    (heq : components (utf8Bytes (ttyPath devDir name))
      = components (utf8Bytes (ttyPath devDir name'))) : name = name' := by
  rw [components_ttyPath h, components_ttyPath h'] at heq
  have hlast := List.append_cancel_left heq
  exact utf8Bytes_injective (Component.normal.inj (List.cons.inj hlast).1)

/-! ## Links -/

/-- A link of that name points at the device. -/
def LinksTo (dir : Option (List (Except String Link))) (device name : String) : Prop :=
  ∃ link ∈ listed dir, fromUtf8 link.name.bytes = some name ∧
    ∃ target, link.target = some target ∧ fileName target = some (utf8Bytes device)

theorem entry_eq_some {link : Link} {key : List Component} {name : String} :
    link.entry = some (key, name) ↔ fromUtf8 link.name.bytes = some name ∧
      ∃ target, link.target = some target ∧ components (targetKey target) = key := by
  rw [Link.entry]
  cases fromUtf8 link.name.bytes with
  | none => simp
  | some text =>
    cases link.target with
    | none => simp
    | some target => simp [and_comm]

/-- For each target the least of the links to it. -/
theorem linksByTarget_eq (dir : Option (List (Except String Link))) :
    linksByTarget dir = .leastValues ((listed dir).filterMap Link.entry) := by
  cases dir with
  | none => rfl
  | some entries => rfl

/-- The links that lead to a device. -/
theorem mem_valuesOf_links {device name : String} (h : IsPlain (utf8Bytes device))
    {dir : Option (List (Except String Link))} :
    name ∈ SortedMap.valuesOf ((listed dir).filterMap Link.entry)
        [Component.normal (utf8Bytes device)] ↔ LinksTo dir device name := by
  show (_, name) ∈ (listed dir).filterMap Link.entry ↔ _
  rw [List.mem_filterMap]
  refine exists_congr fun link => and_congr_right fun _ => ?_
  rw [entry_eq_some]
  refine and_congr_right fun _ => exists_congr fun target => and_congr_right fun _ => ?_
  exact components_targetKey_iff h

/-- **What a device is known by**: the smallest name of a link that points at it, else its path. -/
theorem pathId_candidateOf {name : String} (h : IsPlain (utf8Bytes name)) (devDir : String)
    (dir : Option (List (Except String Link))) (byId : SortedMap (List Component) String) :
    IsLeast {link | LinksTo dir name link}
        (candidateOf devDir (linksByTarget dir) byId name).pathId ∨
      (∀ link, ¬ LinksTo dir name link) ∧
        (candidateOf devDir (linksByTarget dir) byId name).pathId = ttyPath devDir name := by
  have hholds := SortedMap.holdsLeast_leastValues ((listed dir).filterMap Link.entry)
  have hvalues : SortedMap.valuesOf ((listed dir).filterMap Link.entry)
      [Component.normal (utf8Bytes name)] = {link | LinksTo dir name link} :=
    Set.ext fun link => mem_valuesOf_links h
  rw [candidateOf]
  dsimp only
  rw [components_targetKey_ttyPath h, linksByTarget_eq]
  cases hget : (SortedMap.leastValues ((listed dir).filterMap Link.entry)).get?
      [Component.normal (utf8Bytes name)] with
  | some link =>
    rw [Option.getD_some, ← hvalues]
    exact .inl (hholds.least _ link hget)
  | none =>
    have hempty := hholds.absent _ hget
    rw [hvalues] at hempty
    exact .inr ⟨fun link hlink => Set.notMem_empty link (hempty ▸ hlink), rfl⟩

/-- A link is no path. -/
theorem LinksTo.no_slash {dir : Option (List (Except String Link))} {device name : String}
    (h : LinksTo dir device name) : '/' ∉ name.toList := by
  obtain ⟨link, _, hname, _⟩ := h
  intro hmem
  refine link.name.no_slash ?_
  rw [← fromUtf8_eq_some.mp hname, utf8Bytes, List.mem_flatMap]
  exact ⟨'/', hmem, by decide⟩

theorem mem_ttyPath {devDir : String} (h : devDir ≠ "") (name : String) :
    '/' ∈ (ttyPath devDir name).toList := by
  rw [ttyPath]
  split_ifs with hjoin
  · have hlast := hjoin.resolve_left h
    rw [String.toList_append]
    exact List.mem_append_left _ (List.mem_of_getLast? hlast)
  · rw [String.toList_append, String.toList_append]
    exact List.mem_append_left _ (List.mem_append_right _ List.mem_cons_self)

/-! ## The list -/

/-- Three directories as a file system can have them: an empty path names none, and no directory
has two entries of one name. -/
structure SerialDirs where
  devDir : String
  dev : Option (List (Except String EntryName))
  byPath : Option (List (Except String Link))
  byId : Option (List (Except String Link))
  dev_named : devDir = "" → dev = none
  dev_once : (listed dev).Nodup
  byPath_once : ((listed byPath).map Link.name).Nodup

namespace SerialDirs

variable (d : SerialDirs)

/-- The names of the USB serial devices. -/
def ttys : List String := (listed d.dev).filterMap ttyName

/-- The device of a name, as it is described. -/
def describe (name : String) : Candidate :=
  candidateOf d.devDir (linksByTarget d.byPath) (linksByTarget d.byId) name

/-- The same entries, in any order. -/
structure Same (d d' : SerialDirs) : Prop where
  devDir : d.devDir = d'.devDir
  dev : (listed d.dev).Perm (listed d'.dev)
  byPath : (listed d.byPath).Perm (listed d'.byPath)
  byId : (listed d.byId).Perm (listed d'.byId)

end SerialDirs

/-- What a list of the devices has to be. -/
structure Enumerates (d : SerialDirs) (found : List Candidate) : Prop where
  one_each : (found.map Candidate.tty).Perm (d.ttys.map (ttyPath d.devDir))
  ascending : found.Pairwise fun c c' =>
    components (utf8Bytes c.tty) < components (utf8Bytes c'.tty)
  distinct : (found.map Candidate.pathId).Nodup
  path_id : ∀ c ∈ found, ∃ name ∈ d.ttys, c.tty = ttyPath d.devDir name ∧
    (IsLeast {link | LinksTo d.byPath name link} c.pathId ∨
      (∀ link, ¬ LinksTo d.byPath name link) ∧ c.pathId = c.tty)

/-- The candidates are the devices, described and put in order. -/
theorem enumerate_eq (d : SerialDirs) :
    enumerate d.devDir d.dev d.byPath d.byId = (d.ttys.map d.describe).mergeSort ttyLe := by
  rw [SerialDirs.ttys]
  cases hdev : d.dev with
  | none => exact (List.mergeSort_nil).symm
  | some entries => rfl

/-- None of them is left out. -/
theorem enumerate_perm (d : SerialDirs) :
    (enumerate d.devDir d.dev d.byPath d.byId).Perm (d.ttys.map d.describe) := by
  rw [enumerate_eq]
  exact List.mergeSort_perm _ _

theorem isPlain_of_mem_ttys {d : SerialDirs} {name : String} (h : name ∈ d.ttys) :
    IsPlain (utf8Bytes name) := by
  obtain ⟨entry, _, hname⟩ := List.mem_filterMap.mp h
  exact isPlain_of_ttyName hname

/-- No device is listed twice. -/
theorem nodup_ttys (d : SerialDirs) : d.ttys.Nodup := by
  refine List.Nodup.filterMap (fun entry entry' name h h' => ?_) d.dev_once
  have hbytes := (ttyName_eq_some.mp h).1
  have hbytes' := (ttyName_eq_some.mp h').1
  obtain ⟨bytes, _⟩ := entry
  obtain ⟨bytes', _⟩ := entry'
  obtain rfl : bytes = bytes' := hbytes.symm.trans hbytes'
  rfl

/-- Where there are devices, the directory has a path. -/
theorem devDir_ne {d : SerialDirs} {name : String} (h : name ∈ d.ttys) : d.devDir ≠ "" := by
  intro hempty
  rw [SerialDirs.ttys, d.dev_named hempty] at h
  cases h

/-- A link points at one device. -/
theorem LinksTo.unique {d : SerialDirs} {device device' name : String}
    (h : LinksTo d.byPath device name) (h' : LinksTo d.byPath device' name) :
    device = device' := by
  obtain ⟨link, hmem, hname, target, htarget, hdevice⟩ := h
  obtain ⟨link', hmem', hname', target', htarget', hdevice'⟩ := h'
  have hsame : link.name = link'.name := by
    have hbytes := (fromUtf8_eq_some.mp hname).symm.trans (fromUtf8_eq_some.mp hname')
    cases hlink : link.name
    cases hlink' : link'.name
    rw [hlink, hlink'] at hbytes
    cases hbytes
    rfl
  obtain rfl := List.inj_on_of_nodup_map d.byPath_once hmem hmem' hsame
  rw [htarget] at htarget'
  cases htarget'
  rw [hdevice] at hdevice'
  exact utf8Bytes_injective (Option.some_inj.mp hdevice')

/-- No two devices are known by the same name. -/
theorem pathId_inj {d : SerialDirs} {name name' : String} (h : name ∈ d.ttys)
    (h' : name' ∈ d.ttys) (heq : (d.describe name).pathId = (d.describe name').pathId) :
    name = name' := by
  have hspec := pathId_candidateOf (isPlain_of_mem_ttys h) d.devDir d.byPath
    (linksByTarget d.byId)
  have hspec' := pathId_candidateOf (isPlain_of_mem_ttys h') d.devDir d.byPath
    (linksByTarget d.byId)
  rw [SerialDirs.describe, SerialDirs.describe] at heq
  have hslash := mem_ttyPath (devDir_ne h)
  rcases hspec with ⟨hlink, _⟩ | ⟨_, hpath⟩
  · rcases hspec' with ⟨hlink', _⟩ | ⟨_, hpath'⟩
    · rw [heq] at hlink
      exact LinksTo.unique hlink hlink'
    · -- a link on one side, a path on the other
      rw [heq, hpath'] at hlink
      exact absurd (hslash name') hlink.no_slash
  · rcases hspec' with ⟨hlink', _⟩ | ⟨_, hpath'⟩
    · rw [← heq, hpath] at hlink'
      exact absurd (hslash name) hlink'.no_slash
    · rw [hpath, hpath'] at heq
      exact ttyPath_inj (isPlain_of_mem_ttys h) (isPlain_of_mem_ttys h') (by rw [heq])

/-- The devices are told apart by their paths. -/
theorem describe_inj {d : SerialDirs} {name name' : String} (h : name ∈ d.ttys)
    (h' : name' ∈ d.ttys)
    (heq : components (utf8Bytes (d.describe name).tty)
      = components (utf8Bytes (d.describe name').tty)) : name = name' :=
  ttyPath_inj (isPlain_of_mem_ttys h) (isPlain_of_mem_ttys h') heq

/-- The order is that of the paths. -/
theorem sorted_enumerate (d : SerialDirs) :
    (enumerate d.devDir d.dev d.byPath d.byId).Pairwise fun c c' =>
      components (utf8Bytes c.tty) ≤ components (utf8Bytes c'.tty) := by
  rw [enumerate_eq]
  have htrans : ∀ a b c, ttyLe a b = true → ttyLe b c = true → ttyLe a c = true := by
    intro a b c hab hbc
    rw [ttyLe, decide_eq_true_iff] at hab hbc ⊢
    exact hab.trans hbc
  have htotal : ∀ a b, (ttyLe a b || ttyLe b a) = true := by
    intro a b
    rw [ttyLe, ttyLe, Bool.or_eq_true, decide_eq_true_iff, decide_eq_true_iff]
    exact le_total _ _
  have hsorted := List.pairwise_mergeSort htrans htotal (d.ttys.map d.describe)
  exact hsorted.imp fun hle => of_decide_eq_true hle

/-- **What the enumeration is.** -/
theorem enumerated (d : SerialDirs) :
    Enumerates d (enumerate d.devDir d.dev d.byPath d.byId) := by
  have hperm := enumerate_perm d
  have htty : ((enumerate d.devDir d.dev d.byPath d.byId).map fun c =>
      components (utf8Bytes c.tty)).Nodup := by
    refine (hperm.map _).nodup_iff.mpr ?_
    rw [List.map_map]
    exact (nodup_ttys d).map_on fun name h name' h' heq => describe_inj h h' heq
  refine ⟨?_, ?_, ?_, ?_⟩
  · have hmap := hperm.map Candidate.tty
    rwa [List.map_map] at hmap
  · have hdistinct := List.pairwise_map.mp htty
    refine ((sorted_enumerate d).and hdistinct).imp ?_
    rintro c c' ⟨hle, hne⟩
    exact lt_of_le_of_ne hle hne
  · refine (hperm.map _).nodup_iff.mpr ?_
    rw [List.map_map]
    exact (nodup_ttys d).map_on fun name h name' h' heq => pathId_inj h h' heq
  · intro c hc
    obtain ⟨name, hname, rfl⟩ := List.mem_map.mp (hperm.mem_iff.mp hc)
    exact ⟨name, hname, rfl, pathId_candidateOf (isPlain_of_mem_ttys hname) _ _ _⟩

/-- The maps of two listings of one directory hold the same. -/
theorem get?_linksByTarget_of_perm {dir dir' : Option (List (Except String Link))}
    (h : (listed dir).Perm (listed dir')) (key : List Component) :
    (linksByTarget dir).get? key = (linksByTarget dir').get? key := by
  rw [linksByTarget_eq, linksByTarget_eq]
  exact SortedMap.get?_leastValues_of_perm (h.filterMap Link.entry) key

/-- Another boot describes a device in the same way. -/
theorem SerialDirs.Same.describe {d d' : SerialDirs} (h : d.Same d') (name : String) :
    d.describe name = d'.describe name := by
  rw [SerialDirs.describe, SerialDirs.describe, candidateOf, candidateOf]
  rw [h.devDir, get?_linksByTarget_of_perm h.byPath, get?_linksByTarget_of_perm h.byId]

/-- **The same list in whatever order the entries are read.** -/
theorem enumerate_same {d d' : SerialDirs} (h : d.Same d') :
    enumerate d.devDir d.dev d.byPath d.byId = enumerate d'.devDir d'.dev d'.byPath d'.byId := by
  have hperm : (d.ttys.map d.describe).Perm (d'.ttys.map d'.describe) := by
    rw [List.map_congr_left fun name _ => h.describe name]
    exact (h.dev.filterMap ttyName).map d'.describe
  have hsame := (enumerate_perm d).trans (hperm.trans (enumerate_perm d').symm)
  refine List.Perm.eq_of_pairwise ?_ (sorted_enumerate d) (sorted_enumerate d') hsame
  -- two devices of one path are the same
  intro c c' hc hc' hle hge
  have hmem := (hperm.mem_iff.mp ((enumerate_perm d).mem_iff.mp hc))
  obtain ⟨name, hname, rfl⟩ := List.mem_map.mp hmem
  obtain ⟨name', hname', rfl⟩ := List.mem_map.mp ((enumerate_perm d').mem_iff.mp hc')
  rw [describe_inj hname hname' (le_antisymm hle hge)]

end Serial

/-! ## The two programs -/

open Serial

/-- `Candidate` of inverter-monitoring, which keeps all there is to know. -/
abbrev Inverter.Candidate := Serial.Candidate

/-- `enumerate` of inverter-monitoring. -/
def Inverter.enumerate (devDir : String) (dev : Option (List (Except String EntryName)))
    (byPathDir byIdDir : Option (List (Except String Serial.Link))) : List Candidate :=
  Serial.enumerate devDir dev byPathDir byIdDir

/-- The fields of the BMS program's record are those of the inverter's. -/
def Bms.Candidate.ofSerial (c : Serial.Candidate) : Bms.Candidate := ⟨c.tty, c.pathId, c.byId⟩

/-- A candidate of bms-monitoring, which keeps the same under its own type. -/
def Bms.Candidate.toSerial (c : Bms.Candidate) : Serial.Candidate := ⟨c.tty, c.pathId, c.byId⟩

/-- `enumerate` of bms-monitoring. -/
def Bms.enumerate (devDir : String) (dev : Option (List (Except String EntryName)))
    (byPathDir byIdDir : Option (List (Except String Serial.Link))) : List Candidate :=
  (Serial.enumerate devDir dev byPathDir byIdDir).map Candidate.ofSerial

/-- **The serial devices are enumerated the same way on every boot.** Whatever the three
directories hold, both programs list one candidate for every `ttyUSB` entry, in the order of the
paths, under pairwise distinct names: the smallest link that points at the device, or its path.
The order in which the directories list their entries is of no account. -/
theorem enumerate_every_boot (d : SerialDirs) :
    Enumerates d (Inverter.enumerate d.devDir d.dev d.byPath d.byId) ∧
    Enumerates d ((Bms.enumerate d.devDir d.dev d.byPath d.byId).map Bms.Candidate.toSerial) ∧
    ∀ d', d.Same d' →
      Inverter.enumerate d.devDir d.dev d.byPath d.byId
        = Inverter.enumerate d'.devDir d'.dev d'.byPath d'.byId ∧
      Bms.enumerate d.devDir d.dev d.byPath d.byId
        = Bms.enumerate d'.devDir d'.dev d'.byPath d'.byId := by
  refine ⟨enumerated d, ?_, fun d' hsame => ⟨enumerate_same hsame, ?_⟩⟩
  · have hback : (Bms.enumerate d.devDir d.dev d.byPath d.byId).map Bms.Candidate.toSerial
        = Serial.enumerate d.devDir d.dev d.byPath d.byId := by
      rw [Bms.enumerate, List.map_map]
      exact List.map_id _
    rw [hback]
    exact enumerated d
  · exact congrArg (List.map Bms.Candidate.ofSerial) (enumerate_same hsame)

/-- The devices of a host with two adapters, as they were listed on one boot. -/
def sampleDirs : SerialDirs where
  devDir := "/dev"
  dev := some [.ok ⟨utf8Bytes "ttyUSB1", by decide +kernel⟩,
    .ok ⟨utf8Bytes "null", by decide +kernel⟩, .error "Input/output error",
    .ok ⟨utf8Bytes "ttyUSB0", by decide +kernel⟩]
  byPath := some [
    .ok ⟨⟨utf8Bytes "usb-0:2", by decide +kernel⟩, some (utf8Bytes "/dev/ttyUSB1")⟩,
    .ok ⟨⟨utf8Bytes "usbv2-0:1", by decide +kernel⟩, some (utf8Bytes "/dev/ttyUSB0")⟩,
    .ok ⟨⟨utf8Bytes "usb-0:1", by decide +kernel⟩, some (utf8Bytes "/dev/ttyUSB0")⟩]
  byId := none
  dev_named := by decide
  dev_once := by decide +kernel
  byPath_once := by decide +kernel

/-- The same devices on another boot. -/
def otherBoot : SerialDirs where
  devDir := "/dev"
  dev := sampleDirs.dev.map List.reverse
  byPath := sampleDirs.byPath.map List.reverse
  byId := some []
  dev_named := by decide
  dev_once := by decide +kernel
  byPath_once := by decide +kernel

/-- An adapter on the first socket of the sample. -/
def firstAdapter : Serial.Candidate := ⟨"/dev/ttyUSB0", "usb-0:1", none⟩

/-- An adapter on the second socket of the sample. -/
def secondAdapter : Serial.Candidate := ⟨"/dev/ttyUSB1", "usb-0:2", none⟩

theorem enumerate_every_boot_two :
    Inverter.enumerate sampleDirs.devDir sampleDirs.dev sampleDirs.byPath sampleDirs.byId
      = [firstAdapter, secondAdapter] ∧
    Inverter.enumerate otherBoot.devDir otherBoot.dev otherBoot.byPath otherBoot.byId
      = [firstAdapter, secondAdapter] := by
  obtain ⟨⟨-, hascending, -, -⟩, -, hsame⟩ := enumerate_every_boot sampleDirs
  have hdescribed : sampleDirs.ttys.map sampleDirs.describe = [secondAdapter, firstAdapter] := by
    decide +kernel
  have hperm := enumerate_perm sampleDirs
  rw [hdescribed] at hperm
  have hfound : Inverter.enumerate sampleDirs.devDir sampleDirs.dev sampleDirs.byPath
      sampleDirs.byId = [firstAdapter, secondAdapter] := by
    refine (hperm.trans (List.Perm.swap _ _ [])).eq_of_pairwise ?_ hascending (by decide +kernel)
    exact fun c c' _ _ hlt hgt => absurd hgt (lt_asymm hlt)
  have hreverse : ∀ {α : Type} (entries : List (Except String α)),
      (listed (some entries)).Perm (listed (some entries.reverse)) :=
    fun entries => (List.reverse_perm entries).symm.filterMap _
  have hother : sampleDirs.Same otherBoot := ⟨rfl, hreverse _, hreverse _, .nil⟩
  exact ⟨hfound, (hsame otherBoot hother).1 ▸ hfound⟩

end HostServices
