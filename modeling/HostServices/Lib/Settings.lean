import HostServices.Lib.Text

/-!
# Files of settings

A file of settings is read line by line: a line in brackets begins a group, and a line with an
equals sign is a setting of the last group. Other lines say nothing.

- `readSettings`: the groups of a file;
- `readSettings_single`: a file of one group with one setting;
- `not_mem_value`: no value goes over the end of a line.
-/

namespace HostServices.Lib

/-- A group, and its settings in the order of their lines. -/
structure SettingsGroup where
  name : List Char
  settings : List (List Char × List Char)
  deriving DecidableEq

/-- The name in a line `[name]`. -/
def groupName (line : List Char) : Option (List Char) :=
  match line with
  | '[' :: rest => if rest.getLast? = some ']' then some rest.dropLast else none
  | _ => none

/-- A setting belongs to the last group, which stands first; without one it is lost. -/
def addSetting (setting : List Char × List Char) : List SettingsGroup → List SettingsGroup
  | [] => []
  | group :: others => { group with settings := group.settings ++ [setting] } :: others

/-- A line is the heading of a group, a setting of the group before it, or nothing. -/
def readLine (groups : List SettingsGroup) (line : List Char) : List SettingsGroup :=
  match groupName line with
  | some name => ⟨name, []⟩ :: groups
  | none =>
    match cutAt ['='] line with
    | some setting => addSetting setting groups
    | none => groups

/-- The groups of a file, in order. -/
def readSettings (content : List Char) : List SettingsGroup :=
  ((content.splitOn '\n').foldl readLine []).reverse

theorem groupName_heading (name : List Char) : groupName ('[' :: (name ++ [']'])) = some name := by
  rw [groupName, List.getLast?_concat, if_pos rfl, List.dropLast_concat]

theorem groupName_of_head_ne {line : List Char} (h : line.head? ≠ some '[') :
    groupName line = none := by
  rw [groupName]
  rintro rest rfl
  exact h rfl

/-- A heading, a setting, and the end of the file. -/
theorem readSettings_single {name key value : List Char} (hname : '\n' ∉ name)
    (hkey : '\n' ∉ key) (hequals : '=' ∉ key) (hne : key ≠ []) (hbracket : key.head? ≠ some '[')
    (hvalue : '\n' ∉ value) :
    readSettings ('[' :: (name ++ [']']) ++ '\n' :: (key ++ '=' :: value ++ ['\n']))
      = [⟨name, [(key, value)]⟩] := by
  have hheading : '\n' ∉ '[' :: (name ++ [']']) := by
    simp [hname]
  have hsetting : '\n' ∉ key ++ '=' :: value := by
    simp [hkey, hvalue]
  have hlines : ('[' :: (name ++ [']']) ++ '\n' :: (key ++ '=' :: value ++ ['\n'])).splitOn '\n'
      = ['[' :: (name ++ [']']), key ++ '=' :: value, []] := by
    rw [List.splitOn_append_cons_self, List.splitOn_append_cons_self,
      List.splitOn_eq_singleton hheading, List.splitOn_eq_singleton hsetting, List.splitOn_nil]
    rfl
  have hnone : groupName (key ++ '=' :: value) = none := by
    refine groupName_of_head_ne ?_
    rwa [List.head?_append_of_ne_nil _ hne]
  have hfirst : readLine [] ('[' :: (name ++ [']'])) = [⟨name, []⟩] := by
    rw [readLine, groupName_heading]
  rw [readSettings, hlines, List.foldl_cons, hfirst, List.foldl_cons, readLine, hnone,
    cutAt_singleton hequals]
  rfl

/-- The values of settings, and nothing else, are of account here. -/
def ValuesIn (groups : List SettingsGroup) (P : List Char → Prop) : Prop :=
  ∀ group ∈ groups, ∀ setting ∈ group.settings, P setting.2

/-- A character that is not in the line gets into no value by it. -/
theorem valuesIn_readLine {groups : List SettingsGroup} {line : List Char} {c : Char}
    (h : ValuesIn groups fun value => c ∉ value) (hline : c ∉ line) :
    ValuesIn (readLine groups line) fun value => c ∉ value := by
  rw [readLine]
  split
  · exact List.forall_mem_cons.mpr ⟨fun _ hsetting => (nomatch hsetting), h⟩
  · split
    · rename_i setting hcut
      cases groups with
      | nil => exact h
      | cons group others =>
        obtain ⟨hgroup, hothers⟩ := List.forall_mem_cons.mp h
        refine List.forall_mem_cons.mpr ⟨fun s hs => ?_, hothers⟩
        rcases List.mem_append.mp hs with hold | hnew
        · exact hgroup s hold
        · obtain rfl := List.mem_singleton.mp hnew
          intro hmem
          refine hline ?_
          rw [eq_of_cutAt hcut]
          exact List.mem_append_right _ (List.mem_append_right _ hmem)
    · exact h

/-- No value has a line feed in it. -/
theorem not_mem_value {content value : List Char} {group : SettingsGroup} {key : List Char}
    (hgroup : group ∈ readSettings content) (hsetting : (key, value) ∈ group.settings) :
    '\n' ∉ value := by
  have hfold : ∀ (lines : List (List Char)) (groups : List SettingsGroup),
      (∀ line ∈ lines, '\n' ∉ line) → ValuesIn groups (fun value => '\n' ∉ value) →
      ValuesIn (lines.foldl readLine groups) fun value => '\n' ∉ value := by
    intro lines
    induction lines with
    | nil => exact fun groups _ h => h
    | cons line lines ih =>
      intro groups hlines h
      obtain ⟨hline, hrest⟩ := List.forall_mem_cons.mp hlines
      exact ih _ hrest (valuesIn_readLine h hline)
  have hall := hfold (content.splitOn '\n') [] (fun _ => not_mem_of_mem_splitOn)
    fun _ hnone => nomatch hnone
  exact hall group (List.mem_reverse.mp hgroup) (key, value) hsetting

end HostServices.Lib
