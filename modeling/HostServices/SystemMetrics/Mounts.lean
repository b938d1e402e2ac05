import HostServices.Lib.Bytes
import HostServices.Lib.FromStr
import HostServices.Lib.Text
import HostServices.Lib.Utf8
import Mathlib.Data.List.Induction

/-!
# The mount table (`system-metrics/src/collect.rs`)

The table has a line for every mount, in the order they were made, so that the last
line of a mountpoint is the mount that is seen there. The reader keeps the last line of
every mountpoint, but leaves out the lines of excluded types before it looks for it.

- `parseMounts`: the source's function;
- `table`: the lines of a text that are mounts;
- `parseMounts_eq`: what is kept is the last line of each mountpoint, of the lines whose
  type is not excluded;
- `reports_visible_iff`: when that is the mount that is seen.
-/

namespace HostServices.SystemMetrics

open HostServices.Lib

/-! ## The code -/

/-- `Mount`: a row of the table. -/
structure Mount where
  device : String
  mountpoint : String
  fstype : String
  deriving DecidableEq, Repr

/-- The loop of `unescape_mount_field`, over what is left of the bytes. -/
def unescapeBytes : List UInt8 → List Char
  | [] => []
  | b :: rest =>
    -- a backslash, and three digits behind it
    if b = 0x5C ∧ 3 ≤ rest.length then
      match (fromUtf8 (rest.take 3)).bind (fromStrRadix 8 256) with
      | some byte => Char.ofNat byte :: unescapeBytes (rest.drop 3)
      | none => Char.ofNat b.toNat :: unescapeBytes rest
    else Char.ofNat b.toNat :: unescapeBytes rest
termination_by bytes => bytes.length
decreasing_by
  · rw [List.length_drop, List.length_cons]
    omega
  · exact Nat.lt_succ_self _
  · exact Nat.lt_succ_self _

/-- `unescape_mount_field`: three octal digits behind a backslash are a byte. -/
def unescapeMountField (field : String) : String :=
  String.ofList (unescapeBytes (utf8Bytes field))

/-- What one line does to the mounts that were read before it. -/
def readLine (excluded : List String) (mounts : List Mount) (line : List Char) : List Mount :=
  match (words line).map String.ofList with
  | device :: mountpoint :: fstype :: _ =>
    if fstype ∈ excluded then mounts
    else
      let mountpoint := unescapeMountField mountpoint
      mounts.filter (·.mountpoint ≠ mountpoint)
        ++ [⟨unescapeMountField device, mountpoint, fstype⟩]
  | _ => mounts

/-- Mounts worth measuring, minus the excluded filesystem types. -/
def parseMounts (text : String) (excluded : List String) : List Mount :=
  (lines text.toList).foldl (readLine excluded) []

/-! ## The lines of the table -/

/-- The mount that a line is, if it is one. -/
def mountOf (line : List Char) : Option Mount :=
  match (words line).map String.ofList with
  | device :: mountpoint :: fstype :: _ =>
    some ⟨unescapeMountField device, unescapeMountField mountpoint, fstype⟩
  | _ => none

/-- The mounts of the table, in order. -/
def table (text : String) : List Mount := (lines text.toList).filterMap mountOf

/-- A mount takes the place of those at the same mountpoint. -/
def place (mounts : List Mount) (m : Mount) : List Mount :=
  mounts.filter (·.mountpoint ≠ m.mountpoint) ++ [m]

/-- The last mount at a mountpoint. -/
def lastAt (mounts : List Mount) (mountpoint : String) : Option Mount :=
  mounts.reverse.find? (·.mountpoint = mountpoint)

theorem lastAt_append (mounts : List Mount) (m : Mount) (mountpoint : String) :
    lastAt (mounts ++ [m]) mountpoint
      = if m.mountpoint = mountpoint then some m else lastAt mounts mountpoint := by
  rw [lastAt, List.reverse_append, List.reverse_singleton, List.singleton_append, List.find?_cons]
  by_cases h : m.mountpoint = mountpoint <;> simp [h, lastAt]

/-- The mount that is visible is one of the table. -/
theorem lastAt_eq_some {mounts : List Mount} {mountpoint : String} {m : Mount}
    (h : lastAt mounts mountpoint = some m) : m ∈ mounts ∧ m.mountpoint = mountpoint := by
  rw [lastAt] at h
  have hat := List.find?_some h
  exact ⟨List.mem_reverse.mp (List.mem_of_find?_eq_some h), of_decide_eq_true hat⟩

/-- Wherever something is mounted, something is visible. -/
theorem exists_lastAt {mounts : List Mount} {m : Mount} (h : m ∈ mounts) :
    ∃ last, lastAt mounts m.mountpoint = some last := by
  rw [← Option.isSome_iff_exists, lastAt, List.find?_isSome]
  exact ⟨m, List.mem_reverse.mpr h, decide_eq_true rfl⟩

/-- The last of all mounts at a mountpoint is the last of any of them that it is among. -/
theorem lastAt_filter {mounts : List Mount} {mountpoint : String} {m : Mount}
    {p : Mount → Bool} (h : lastAt mounts mountpoint = some m) (hp : p m) :
    lastAt (mounts.filter p) mountpoint = some m := by
  induction mounts using List.reverseRecOn with
  | nil => cases h
  | append_singleton mounts last ih =>
    rw [lastAt_append] at h
    split_ifs at h with hat
    · cases h
      rw [List.filter_append, List.filter_cons_of_pos hp, List.filter_nil, lastAt_append,
        if_pos hat]
    · rw [List.filter_append]
      by_cases hlast : p last
      · rw [List.filter_cons_of_pos hlast, List.filter_nil, lastAt_append, if_neg hat]
        exact ih h
      · rw [List.filter_cons_of_neg hlast, List.filter_nil, List.append_nil]
        exact ih h

/-- Of the mounts that were placed, the last of each mountpoint is left. -/
theorem mem_foldl_place {mounts : List Mount} {m : Mount} :
    m ∈ mounts.foldl place [] ↔ lastAt mounts m.mountpoint = some m := by
  induction mounts using List.reverseRecOn with
  | nil =>
    constructor
    · intro h
      cases h
    · intro h
      cases h
  | append_singleton mounts last ih =>
    rw [List.foldl_concat, place, List.mem_append, List.mem_filter, List.mem_singleton,
      lastAt_append, ih]
    by_cases hat : last.mountpoint = m.mountpoint
    · simp [hat, eq_comm]
    · have hne : m ≠ last := by
        rintro rfl
        exact hat rfl
      simp [hat, hne, Ne.symm hat]

/-- What is kept is in the order of the table. -/
theorem sublist_foldl_place (mounts : List Mount) : (mounts.foldl place []).Sublist mounts := by
  induction mounts using List.reverseRecOn with
  | nil => exact List.Sublist.refl _
  | append_singleton mounts last ih =>
    rw [List.foldl_concat, place]
    exact (List.filter_sublist.trans ih).append (List.Sublist.refl _)

/-- Each mountpoint is kept once. -/
theorem nodup_foldl_place (mounts : List Mount) :
    ((mounts.foldl place []).map (·.mountpoint)).Nodup := by
  induction mounts using List.reverseRecOn with
  | nil => exact List.nodup_nil
  | append_singleton mounts last ih =>
    rw [List.foldl_concat, place, List.map_append, List.map_singleton, List.nodup_append]
    refine ⟨ih.sublist (List.filter_sublist.map _), List.pairwise_singleton _ _, ?_⟩
    intro mountpoint hmem other hother
    obtain ⟨m, hm, rfl⟩ := List.mem_map.mp hmem
    rw [List.mem_singleton] at hother
    rw [hother]
    exact of_decide_eq_true (List.mem_filter.mp hm).2

/-- The lines of excluded types are left out first, and then the last one of every mountpoint
is kept. -/
theorem parseMounts_eq (text : String) (excluded : List String) :
    parseMounts text excluded
      = ((table text).filter (·.fstype ∉ excluded)).foldl place [] := by
  have hlines : ∀ (ls : List (List Char)) (mounts : List Mount),
      ls.foldl (readLine excluded) mounts
        = ((ls.filterMap mountOf).filter (·.fstype ∉ excluded)).foldl place mounts := by
    intro ls
    induction ls with
    | nil => intro mounts; rfl
    | cons line ls ih =>
      intro mounts
      rw [List.foldl_cons, ih, List.filterMap_cons, readLine, mountOf]
      split
      · rename_i device mountpoint fstype others hfields
        by_cases hexcluded : fstype ∈ excluded
        · rw [if_pos hexcluded, List.filter_cons_of_neg (by simpa using hexcluded)]
        · rw [if_neg hexcluded, List.filter_cons_of_pos (by simpa using hexcluded),
            List.foldl_cons]
          rfl
      · rfl
  exact hlines _ _

/-! ## What is reported -/

/-- The mounts that are reported are those whose line is the last one of their mountpoint and
whose type is not excluded, in the order of the table and one for a mountpoint. -/
structure ReportsVisible (text : String) (excluded : List String) : Prop where
  mem_iff : ∀ m, m ∈ parseMounts text excluded ↔
    lastAt (table text) m.mountpoint = some m ∧ m.fstype ∉ excluded
  ordered : (parseMounts text excluded).Sublist (table text)
  distinct : ((parseMounts text excluded).map (·.mountpoint)).Nodup

/-- What is reported at a mountpoint is its last line of a type that is not excluded. -/
theorem mem_parseMounts {text : String} {excluded : List String} {m : Mount} :
    m ∈ parseMounts text excluded ↔
      lastAt ((table text).filter (·.fstype ∉ excluded)) m.mountpoint = some m := by
  rw [parseMounts_eq, mem_foldl_place]

/-- **Shadowing and exclusion**: what is reported is what is seen exactly if no mount of an
excluded type hides one of another type. -/
theorem reports_visible_iff (text : String) (excluded : List String) :
    ReportsVisible text excluded ↔
      ∀ m, lastAt (table text) m.mountpoint = some m → m.fstype ∈ excluded →
        ∀ hidden ∈ table text, hidden.mountpoint = m.mountpoint → hidden.fstype ∈ excluded := by
  constructor
  · rintro ⟨hmem, -, -⟩ m hlast hexcluded hidden hhidden hat
    by_contra hshown
    have hkept : hidden ∈ (table text).filter (·.fstype ∉ excluded) :=
      List.mem_filter.mpr ⟨hhidden, decide_eq_true hshown⟩
    obtain ⟨shown, hfind⟩ := exists_lastAt hkept
    obtain ⟨-, hat'⟩ := lastAt_eq_some hfind
    rw [← hat'] at hfind
    obtain ⟨hseen, hnot⟩ := (hmem shown).mp (mem_parseMounts.mpr hfind)
    rw [hat', hat, hlast] at hseen
    cases hseen
    exact hnot hexcluded
  · intro hcond
    refine ⟨?_, ?_, ?_⟩
    · intro m
      rw [mem_parseMounts]
      constructor
      · intro hfind
        obtain ⟨hkept, -⟩ := lastAt_eq_some hfind
        obtain ⟨hm, hnot⟩ := List.mem_filter.mp hkept
        have hnot : m.fstype ∉ excluded := of_decide_eq_true hnot
        obtain ⟨last, hlast⟩ := exists_lastAt hm
        obtain ⟨-, hat⟩ := lastAt_eq_some hlast
        have hshown : last.fstype ∉ excluded := fun hexcluded =>
          hnot (hcond last (hat.symm ▸ hlast) hexcluded m hm hat.symm)
        have hsame := lastAt_filter (p := (·.fstype ∉ excluded)) hlast (decide_eq_true hshown)
        rw [hfind] at hsame
        cases hsame
        exact ⟨hlast, hnot⟩
      · rintro ⟨hlast, hnot⟩
        exact lastAt_filter hlast (decide_eq_true hnot)
    · rw [parseMounts_eq]
      exact (sublist_foldl_place _).trans List.filter_sublist
    · rw [parseMounts_eq]
      exact nodup_foldl_place _

/-- A `tmpfs` over an `ext4`, which is reported although it cannot be seen. -/
theorem reports_hidden : ¬ ReportsVisible
    "/dev/sda1 /data ext4 rw 0 0\ntmpfs /data tmpfs rw 0 0\n" ["tmpfs"] := by
  rintro ⟨hmem, -, -⟩
  have hreported : (⟨"/dev/sda1", "/data", "ext4"⟩ : Mount) ∈ parseMounts
      "/dev/sda1 /data ext4 rw 0 0\ntmpfs /data tmpfs rw 0 0\n" ["tmpfs"] := by
    decide +kernel
  have hlast : lastAt (table "/dev/sda1 /data ext4 rw 0 0\ntmpfs /data tmpfs rw 0 0\n") "/data"
      = some ⟨"tmpfs", "/data", "tmpfs"⟩ := by
    decide +kernel
  have hseen := ((hmem _).mp hreported).1
  rw [hlast] at hseen
  exact absurd hseen (by decide)

end HostServices.SystemMetrics
