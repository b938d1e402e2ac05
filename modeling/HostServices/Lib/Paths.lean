import HostServices.Lib.Text
import HostServices.Lib.Utf8
import Mathlib.Data.List.Lex
import Mathlib.Data.Prod.Lex
import Mathlib.Tactic.Common

/-!
# Paths

A path is a byte string, and stands for the components between its slashes. Paths are compared
by their components.

- `components`, `fileName`, `joinPath`: `Path::components`, `Path::file_name`, `Path::join`;
- `IsPlain`: a name that is one component, as the entries of a directory have it;
- `components_joinPath`: the entry of a directory is one component more.
-/

namespace HostServices.Lib

/-- A path, or a part of one, as the system has it. -/
abbrev OsString := List UInt8

/-- `/` -/
def slash : UInt8 := 0x2F

/-- `.` -/
def dot : OsString := [0x2E]

/-- `..` -/
def dotDot : OsString := [0x2E, 0x2E]

/-! ## Components -/

/-- `std::path::Component`, of a path without a prefix. -/
inductive Component
  | rootDir
  | curDir
  | parentDir
  | normal (name : OsString)
  deriving DecidableEq, Repr

/-- The kind comes first, then the bytes of the name. -/
def Component.rank : Component → Nat ×ₗ List Nat
  | rootDir => toLex (0, [])
  | curDir => toLex (1, [])
  | parentDir => toLex (2, [])
  | normal name => toLex (3, name.map UInt8.toNat)

theorem Component.rank_injective : Function.Injective rank := by
  intro c c' h
  have hpair := toLex.injective h
  cases c with
  | normal name =>
    cases c' with
    | normal name' =>
      have hmap := (Prod.mk.inj hpair).2
      rw [List.map_injective_iff.mpr (fun b b' hb => UInt8.toNat_inj.mp hb) hmap]
    | _ => cases (Prod.mk.inj hpair).1
  | _ =>
    cases c' with
    | normal name' => cases (Prod.mk.inj hpair).1
    | _ => first | rfl | cases (Prod.mk.inj hpair).1

instance : LinearOrder Component := LinearOrder.lift' Component.rank Component.rank_injective

/-- What a piece between slashes is. -/
def toComponent (piece : OsString) : Component :=
  if piece = dotDot then .parentDir else .normal piece

/-- `Path::components`: empty pieces and dots are left out, but for a dot at the beginning. -/
def components (path : OsString) : List Component :=
  let pieces := path.splitOn slash
  let front : List Component :=
    if path.head? = some slash then [.rootDir]
    else if pieces.head? = some dot then [.curDir]
    else []
  front ++ (pieces.filter fun piece => piece ≠ [] ∧ piece ≠ dot).map toComponent

/-- `Path::file_name` -/
def fileName (path : OsString) : Option OsString :=
  match (components path).getLast? with
  | some (.normal name) => some name
  | _ => none

/-- `Path::join`, for a relative path. -/
def joinPath (dir name : OsString) : OsString :=
  if dir = [] ∨ dir.getLast? = some slash then dir ++ name else dir ++ slash :: name

/-! ## Entries of a directory -/

/-- The name is one component, and not `.` or `..`. -/
structure IsPlain (name : OsString) : Prop where
  ne_nil : name ≠ []
  no_slash : slash ∉ name
  ne_dot : name ≠ dot
  ne_dotDot : name ≠ dotDot

variable {name : OsString}

theorem IsPlain.splitOn (h : IsPlain name) : name.splitOn slash = [name] :=
  List.splitOn_eq_singleton h.no_slash

/-- What the pieces of a path give, with those of a plain name at the end. -/
theorem IsPlain.map_filter_append (h : IsPlain name) (pieces : List OsString) :
    ((pieces ++ [name]).filter fun piece => piece ≠ [] ∧ piece ≠ dot).map toComponent
      = (pieces.filter fun piece => piece ≠ [] ∧ piece ≠ dot).map toComponent
        ++ [.normal name] := by
  rw [List.filter_append, List.map_append, List.filter_singleton,
    decide_eq_true (And.intro h.ne_nil h.ne_dot), cond_true, List.map_singleton, toComponent,
    if_neg h.ne_dotDot]

/-- A slash and a plain name behind a path. -/
theorem IsPlain.components_slash (h : IsPlain name) {dir : OsString} (hdir : dir ≠ []) :
    components (dir ++ slash :: name) = components dir ++ [.normal name] := by
  have hne := List.splitOn_ne_nil slash dir
  rw [components, components, List.splitOn_append_cons_self, h.splitOn, h.map_filter_append,
    List.head?_append_of_ne_nil _ hdir, List.head?_append_of_ne_nil _ hne, List.append_assoc]

/-- A plain name behind a path that ends with a slash. -/
theorem IsPlain.components_trailing (h : IsPlain name) (front : OsString) :
    components (front ++ [slash] ++ name) = components (front ++ [slash]) ++ [.normal name] := by
  have hne := List.splitOn_ne_nil slash front
  have hpath : (front ++ [slash] ++ name).splitOn slash = front.splitOn slash ++ [name] := by
    rw [List.append_assoc, List.singleton_append, List.splitOn_append_cons_self, h.splitOn]
  have hdir : (front ++ [slash]).splitOn slash = front.splitOn slash ++ [[]] := by
    rw [List.splitOn_append_cons_self, List.splitOn_nil]
  have hempty : (front.splitOn slash ++ [[]]).filter (fun piece => piece ≠ [] ∧ piece ≠ dot)
      = (front.splitOn slash).filter fun piece => piece ≠ [] ∧ piece ≠ dot := by
    rw [List.filter_append]
    exact List.append_nil _
  rw [components, components, hpath, hdir, h.map_filter_append, hempty,
    List.head?_append_of_ne_nil _ (List.concat_ne_nil slash front),
    List.head?_append_of_ne_nil _ hne, List.head?_append_of_ne_nil _ hne, List.append_assoc]

theorem IsPlain.components_self (h : IsPlain name) : components name = [.normal name] := by
  have hhead : name.head? ≠ some slash := fun hslash => h.no_slash (List.mem_of_mem_head? hslash)
  have hdot : some name ≠ some dot := fun hsome => h.ne_dot (Option.some_inj.mp hsome)
  have hpieces := h.map_filter_append []
  rw [List.nil_append] at hpieces
  rw [components, h.splitOn, if_neg hhead, List.head?_cons, if_neg hdot, hpieces]
  rfl

/-- A plain name is one more component. -/
theorem IsPlain.components_joinPath (h : IsPlain name) (dir : OsString) :
    components (joinPath dir name) = components dir ++ [.normal name] := by
  rw [joinPath]
  split_ifs with hjoin
  · rcases hjoin with rfl | hlast
    · exact h.components_self
    · obtain ⟨front, rfl⟩ := List.getLast?_eq_some_iff.mp hlast
      exact h.components_trailing front
  · exact h.components_slash fun hdir => hjoin (.inl hdir)

/-- The final component of an entry's path is the entry's name. -/
theorem IsPlain.fileName_joinPath (h : IsPlain name) (dir : OsString) :
    fileName (joinPath dir name) = some name := by
  rw [fileName, h.components_joinPath, List.getLast?_concat]

/-- A final component is a plain name. -/
theorem isPlain_of_fileName {path : OsString} (h : fileName path = some name) :
    IsPlain name := by
  rw [fileName] at h
  split at h
  · rename_i last hlast
    cases h
    have hmem := List.mem_of_getLast? hlast
    rw [components, List.mem_append] at hmem
    rcases hmem with hfront | hpieces
    · split_ifs at hfront
      · cases List.mem_singleton.mp hfront
      · cases List.mem_singleton.mp hfront
      · cases hfront
    · obtain ⟨piece, hpiece, hname⟩ := List.mem_map.mp hpieces
      obtain ⟨hsplit, hkept⟩ := List.mem_filter.mp hpiece
      obtain ⟨hne, hdot⟩ := of_decide_eq_true hkept
      rw [toComponent] at hname
      split_ifs at hname with hparent
      cases hname
      exact ⟨hne, not_mem_of_mem_splitOn hsplit, hdot, hparent⟩
  · cases h

end HostServices.Lib
