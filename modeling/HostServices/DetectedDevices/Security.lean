import HostServices.DetectedDevices.Wifi
import Mathlib.Data.List.Forall2
import Mathlib.Data.List.Induction

/-!
# The security verdict of a network and its standards

The verdict is written and overwritten as the elements of a block go by, and completed in a
pass at the end. It is the strongest mechanism of the block except for three things: a block
with nothing but `Privacy` is left open instead of being WEP, the suites of a WPA element
count like those of an RSN element, and the standards stand in the order of the elements.

- `Element`, `BssBlock`: a block as it is printed;
- `strongest`, `inOrder`: what the verdict and the standards are to be;
- `parseScan_blocks`: the networks of a scan, block by block;
- `verdict_iff`: the blocks for which both are so.
-/

namespace HostServices.DetectedDevices.Wifi

open HostServices.Lib

/-! ## Blocks -/

/-- What begins a line that the verdict or the standards come from, or another block. -/
def openings : List String :=
  ["BSS ", "RSN:", "WPA:", "* Authentication suites: ", "HT capabilities:", "VHT capabilities:",
    "HE capabilities:", "capability: "]

/-- The line opens nothing that the parser looks at. -/
def IsOtherLine (content : List Char) : Prop := ∀ front ∈ openings, ¬ front.toList <+: content

/-- A line in an RSN or WPA element. -/
inductive ElementLine
  | suites (suites : List Char)
  | other (content : List Char) (inner : IsOtherLine content)

/-- The text of the line. -/
def ElementLine.content : ElementLine → List Char
  | suites text => "* Authentication suites: ".toList ++ text
  | other content _ => content

/-- The suites have SAE among them. -/
def ElementLine.listsSae : ElementLine → Bool
  | suites text => (words text).contains "SAE".toList
  | other _ _ => false

/-- The families of capability elements. -/
inductive Family
  | ht
  | vht
  | he
  deriving DecidableEq, Repr

/-- What the family is called in the record. -/
def Family.name : Family → String
  | ht => "ht"
  | vht => "vht"
  | he => "he"

/-- The line with which the element of the family begins. -/
def Family.label : Family → String
  | ht => "HT capabilities:"
  | vht => "VHT capabilities:"
  | he => "HE capabilities:"

/-- An information element. `rest` is what stands behind its label. -/
inductive Element
  | capability (flags : List Char)
  | rsn (rest : List Char) (body : List ElementLine)
  | wpa (rest : List Char) (body : List ElementLine)
  | family (f : Family) (rest : List Char)
  | load (rest : List Char) (not_bssid : looksLikeBssid (bssidOf rest) = false)
  | other (content : List Char) (inner : IsOtherLine content)

namespace Element

/-- The lines of an element, without their indentation. -/
def contents : Element → List (List Char)
  | capability flags => ["capability: ".toList ++ flags]
  | rsn rest body => ("RSN:".toList ++ rest) :: body.map ElementLine.content
  | wpa rest body => ("WPA:".toList ++ rest) :: body.map ElementLine.content
  | family f rest => [f.label.toList ++ rest]
  | load rest _ => ["BSS ".toList ++ rest]
  | other content _ => [content]

/-- The element is an RSN element. -/
def isRsn : Element → Bool
  | rsn _ _ => true
  | _ => false

/-- The element is a WPA element. -/
def isWpa : Element → Bool
  | wpa _ _ => true
  | _ => false

/-- The capability line has Privacy among its flags. -/
def hasPrivacy : Element → Bool
  | capability flags => (words flags).contains "Privacy".toList
  | _ => false

/-- An RSN or WPA element whose suites list SAE. -/
def listsSae : Element → Bool
  | rsn _ body => body.any ElementLine.listsSae
  | wpa _ body => body.any ElementLine.listsSae
  | _ => false

/-- The family that the element stands for. -/
def family? : Element → Option Family
  | family f _ => some f
  | _ => none

end Element

/-- The block of a network, with one RSN element at most. -/
structure BssBlock where
  bssid : List Char
  annotation : List Char
  elements : List Element
  bssid_shape : looksLikeBssid bssid = true
  bssid_ends : ∀ c ∈ annotation.head?, c = '(' ∨ c = ' '
  rsn_once : elements.countP Element.isRsn ≤ 1

namespace BssBlock

/-- The lines of a block, without their indentation. -/
def contents (b : BssBlock) : List (List Char) :=
  ("BSS ".toList ++ (b.bssid ++ b.annotation)) :: b.elements.flatMap Element.contents

/-- Some element of the block is an RSN element. -/
def hasRsn (b : BssBlock) : Prop := ∃ e ∈ b.elements, e.isRsn = true

/-- Some element of the block is a WPA element. -/
def hasWpa (b : BssBlock) : Prop := ∃ e ∈ b.elements, e.isWpa = true

/-- Some capability line of the block has the privacy bit. -/
def hasPrivacy (b : BssBlock) : Prop := ∃ e ∈ b.elements, e.hasPrivacy = true

/-- Some RSN element of the block lists SAE. -/
def rsnListsSae (b : BssBlock) : Prop := ∃ e ∈ b.elements, e.isRsn = true ∧ e.listsSae = true

/-- The families that are present, in the order of their elements. -/
def families (b : BssBlock) : List Family := b.elements.filterMap Element.family?

end BssBlock

instance decidableHasRsn (b : BssBlock) : Decidable b.hasRsn :=
  inferInstanceAs (Decidable (∃ e ∈ b.elements, e.isRsn = true))

instance decidableHasWpa (b : BssBlock) : Decidable b.hasWpa :=
  inferInstanceAs (Decidable (∃ e ∈ b.elements, e.isWpa = true))

instance decidableHasPrivacy (b : BssBlock) : Decidable b.hasPrivacy :=
  inferInstanceAs (Decidable (∃ e ∈ b.elements, e.hasPrivacy = true))

instance decidableRsnListsSae (b : BssBlock) : Decidable b.rsnListsSae :=
  inferInstanceAs (Decidable (∃ e ∈ b.elements, e.isRsn = true ∧ e.listsSae = true))

/-- The strongest mechanism of a block. -/
def strongest (b : BssBlock) : String :=
  if b.rsnListsSae then "wpa3"
  else if b.hasRsn then "wpa2"
  else if b.hasWpa then "wpa"
  else if b.hasPrivacy then "wep"
  else "open"

/-- The families of a block, in the order ht, vht, he. -/
def inOrder (b : BssBlock) : List Family :=
  [Family.ht, .vht, .he].filter fun f => f ∈ b.families

/-! ## Lines -/

variable {F : Type} (parseF64 : String → Option F)

/-- The two fields that the elements decide. -/
def summary (bss : Bss F) : Option String × Option String := (bss.security, bss.standards)

/-- Other lines change neither the verdict nor the standards. -/
theorem IsOtherLine.summary_applyLine {content : List Char} (h : IsOtherLine content)
    (bss : Bss F) : summary (applyLine parseF64 bss content) = summary bss := by
  unfold IsOtherLine openings at h
  simp only [List.forall_mem_cons] at h
  obtain ⟨_, hrsn, hwpa, hsuites, hht, hvht, hhe, _⟩ := h
  rw [applyLine, startsWith_of_not_prefix hrsn, startsWith_of_not_prefix hwpa,
    labelled_of_not_prefix hsuites, startsWith_of_not_prefix hht, startsWith_of_not_prefix hvht,
    startsWith_of_not_prefix hhe]
  simp only [Bool.false_eq_true, if_false]
  repeat' split
  all_goals simp only [summary]

theorem applyLine_wpa (bss : Bss F) (rest : List Char) :
    applyLine parseF64 bss ("WPA:".toList ++ rest)
      = if bss.security.isNone then { bss with security := some "wpa" } else bss := rfl

theorem summary_wpa (bss : Bss F) (rest : List Char) :
    summary (applyLine parseF64 bss ("WPA:".toList ++ rest))
      = (bss.security.or (some "wpa"), bss.standards) := by
  rw [applyLine_wpa]
  cases hsecurity : bss.security with
  | none => rfl
  | some s =>
    rw [Option.some_or, ← hsecurity, hsecurity, if_neg (by simp)]
    exact Prod.ext hsecurity rfl

/-- A line of authentication suites makes it WPA3 if SAE is among them. -/
theorem summary_suites (bss : Bss F) (text : List Char) :
    summary (applyLine parseF64 bss ("* Authentication suites: ".toList ++ text))
      = (if (words text).contains "SAE".toList then some "wpa3" else bss.security,
          bss.standards) := rfl

/-- A line of capabilities adds its standard. -/
theorem applyLine_family (bss : Bss F) (f : Family) (rest : List Char) :
    applyLine parseF64 bss (f.label.toList ++ rest) = pushStandard bss f.name := by
  cases f <;> rfl

/-! ## Elements -/

/-- What an element does to the two fields. -/
def Element.effect (fields : Option String × Option String) :
    Element → Option String × Option String
  | rsn _ body => (if body.any ElementLine.listsSae then some "wpa3" else some "wpa2", fields.2)
  | wpa _ body =>
    (if body.any ElementLine.listsSae then some "wpa3" else fields.1.or (some "wpa"), fields.2)
  | family f _ => (fields.1, pushDistinct fields.2 f.name)
  | _ => fields

/-- A line that begins no other block goes to the last one. -/
theorem scanTrimmed_inner {content : List Char} (h : labelled "BSS " content = none)
    (bss : Bss F) (done : List (Bss F)) :
    scanTrimmed parseF64 (bss :: done) content = applyLine parseF64 bss content :: done := by
  rw [scanTrimmed, h]

theorem IsOtherLine.labelled_bss {content : List Char} (h : IsOtherLine content) :
    labelled "BSS " content = none :=
  labelled_of_not_prefix (h "BSS " List.mem_cons_self)

theorem ElementLine.labelled_bss (l : ElementLine) : labelled "BSS " l.content = none := by
  cases l with
  | suites text => rfl
  | other content inner => exact inner.labelled_bss

/-- What a line of an element does to the verdict. -/
theorem ElementLine.summary_applyLine (l : ElementLine) (bss : Bss F) :
    summary (applyLine parseF64 bss l.content)
      = (if l.listsSae then some "wpa3" else bss.security, bss.standards) := by
  cases l with
  | suites text => exact summary_suites parseF64 bss text
  | other content inner => exact inner.summary_applyLine parseF64 bss

/-- The lines of an RSN or WPA element behind the first. -/
theorem foldl_body (body : List ElementLine) (bss : Bss F) (done : List (Bss F)) :
    ∃ bss', (body.map ElementLine.content).foldl (scanTrimmed parseF64) (bss :: done)
        = bss' :: done ∧
      summary bss' = (if body.any ElementLine.listsSae then some "wpa3" else bss.security,
        bss.standards) := by
  induction body generalizing bss with
  | nil => exact ⟨bss, rfl, rfl⟩
  | cons l body ih =>
    obtain ⟨bss', hfold, hsummary⟩ := ih (applyLine parseF64 bss l.content)
    obtain ⟨hsecurity, hstandards⟩ := Prod.mk.inj (l.summary_applyLine parseF64 bss)
    refine ⟨bss', ?_, ?_⟩
    · rw [List.map_cons, List.foldl_cons, scanTrimmed_inner parseF64 l.labelled_bss]
      exact hfold
    · rw [hsummary, hsecurity, hstandards, List.any_cons]
      cases l.listsSae <;> cases body.any ElementLine.listsSae <;> rfl

/-- What an element does to the block that is read. -/
theorem foldl_element (e : Element) (bss : Bss F) (done : List (Bss F)) :
    ∃ bss', e.contents.foldl (scanTrimmed parseF64) (bss :: done) = bss' :: done ∧
      summary bss' = e.effect (summary bss) := by
  cases e with
  | capability flags => exact ⟨_, rfl, rfl⟩
  | rsn rest body =>
    obtain ⟨bss', hfold, hsummary⟩ :=
      foldl_body parseF64 body { bss with security := some "wpa2" } done
    exact ⟨bss', hfold, hsummary⟩
  | wpa rest body =>
    obtain ⟨bss', hfold, hsummary⟩ := foldl_body parseF64 body
      (applyLine parseF64 bss ("WPA:".toList ++ rest)) done
    obtain ⟨hsecurity, hstandards⟩ :=
      Prod.mk.inj (summary_wpa parseF64 bss rest)
    rw [hsecurity, hstandards] at hsummary
    exact ⟨bss', hfold, hsummary⟩
  | family f rest =>
    refine ⟨pushStandard bss f.name, ?_, rfl⟩
    have hbss : labelled "BSS " (f.label.toList ++ rest) = none := by cases f <;> rfl
    show [scanTrimmed parseF64 (bss :: done) (f.label.toList ++ rest)].head (by simp) = _
    rw [List.head_cons, scanTrimmed_inner parseF64 hbss, applyLine_family]
  | load rest not_bssid =>
    refine ⟨bss, ?_, rfl⟩
    show (if looksLikeBssid (bssidOf rest) then _ else bss :: done) = bss :: done
    rw [not_bssid, if_neg Bool.false_ne_true]
  | other content inner =>
    refine ⟨applyLine parseF64 bss content, ?_, inner.summary_applyLine parseF64 bss⟩
    exact scanTrimmed_inner parseF64 inner.labelled_bss bss done

/-- What the elements of a block do to it. -/
theorem foldl_elements (elements : List Element) (bss : Bss F) (done : List (Bss F)) :
    ∃ bss', (elements.flatMap Element.contents).foldl (scanTrimmed parseF64) (bss :: done)
        = bss' :: done ∧
      summary bss' = elements.foldl Element.effect (summary bss) := by
  induction elements generalizing bss with
  | nil => exact ⟨bss, rfl, rfl⟩
  | cons e elements ih =>
    obtain ⟨bss', hfirst, hsummary⟩ := foldl_element parseF64 e bss done
    obtain ⟨bss'', hrest, hsummary'⟩ := ih bss'
    refine ⟨bss'', ?_, ?_⟩
    · rw [List.flatMap_cons, List.foldl_append, hfirst, hrest]
    · rw [hsummary', hsummary, List.foldl_cons]

/-! ## Blocks of a scan -/

/-- Neither a bracket nor a blank is part of an address. -/
theorem bssid_plain {token : List Char} (h : looksLikeBssid token = true) :
    ∀ c ∈ token, (c ≠ '(' && c ≠ ' ') = true := by
  rw [looksLikeBssid, Bool.and_eq_true, List.all_eq_true] at h
  intro c hc
  have hjoined : [':'].intercalate (token.splitOn ':') = token := List.intercalate_splitOn ':'
  rw [← hjoined] at hc
  rcases mem_of_mem_intercalate hc with rfl | ⟨part, hpart, hmem⟩
  · decide
  · have hshape := h.1 part hpart
    rw [Bool.and_eq_true, List.all_eq_true] at hshape
    have hdigit := hshape.2 c hmem
    rw [Bool.and_eq_true, decide_eq_true_iff, decide_eq_true_iff]
    constructor
    · rintro rfl
      exact absurd hdigit (by decide)
    · rintro rfl
      exact absurd hdigit (by decide)

/-- The address of a block is read without its annotation. -/
theorem bssidOf_block (b : BssBlock) : bssidOf (b.bssid ++ b.annotation) = b.bssid := by
  rw [bssidOf, List.takeWhile_append_of_pos (bssid_plain b.bssid_shape)]
  cases hbehind : b.annotation with
  | nil => rw [List.takeWhile_nil, List.append_nil]
  | cons c rest =>
    have hend := b.bssid_ends c (by rw [hbehind]; rfl)
    rw [List.takeWhile_cons_of_neg (by rcases hend with rfl | rfl <;> simp), List.append_nil]

/-- A block is read as one access point. -/
theorem foldl_block (b : BssBlock) (out : List (Bss F)) :
    ∃ bss, b.contents.foldl (scanTrimmed parseF64) out = bss :: out ∧
      summary bss = b.elements.foldl Element.effect (none, none) := by
  have hfirst : scanTrimmed parseF64 out ("BSS ".toList ++ (b.bssid ++ b.annotation))
      = { bssid := String.ofList b.bssid,
          associated := (cutAt "-- associated".toList (b.bssid ++ b.annotation)).isSome }
        :: out := by
    have hrest : labelled "BSS " ("BSS ".toList ++ (b.bssid ++ b.annotation))
        = some (b.bssid ++ b.annotation) := stripPrefix_eq_some.mpr rfl
    unfold scanTrimmed
    rw [hrest]
    show (if looksLikeBssid (bssidOf (b.bssid ++ b.annotation)) then _ else out) = _
    rw [bssidOf_block, b.bssid_shape, if_pos rfl]
  rw [BssBlock.contents, List.foldl_cons, hfirst]
  exact foldl_elements parseF64 b.elements _ out

/-- Blocks are read one by one. -/
theorem foldl_blocks (blocks : List BssBlock) (out : List (Bss F)) :
    ∃ bsses : List (Bss F),
      (blocks.flatMap BssBlock.contents).foldl (scanTrimmed parseF64) out = bsses ++ out ∧
      List.Forall₂ (fun b bss => summary bss = b.elements.foldl Element.effect (none, none))
        blocks bsses.reverse := by
  induction blocks generalizing out with
  | nil => exact ⟨[], rfl, .nil⟩
  | cons b blocks ih =>
    obtain ⟨bss, hblock, hsummary⟩ := foldl_block parseF64 b out
    obtain ⟨bsses, hfold, hall⟩ := ih (bss :: out)
    refine ⟨bsses ++ [bss], ?_, ?_⟩
    · rw [List.flatMap_cons, List.foldl_append, hblock, hfold, List.append_assoc,
        List.singleton_append]
    · rw [List.reverse_append, List.reverse_singleton, List.singleton_append]
      exact .cons hsummary hall

/-- **The networks of a scan, block by block.** -/
theorem parseScan_blocks {text : String} {blocks : List BssBlock}
    (h : Prints text (blocks.flatMap BssBlock.contents)) :
    List.Forall₂ (fun b bss =>
        bss.security = some ((b.elements.foldl Element.effect (none, none)).1.getD "open") ∧
          bss.standards = (b.elements.foldl Element.effect (none, none)).2)
      blocks (parseScan parseF64 text) := by
  obtain ⟨bsses, hfold, hall⟩ := foldl_blocks parseF64 blocks []
  have hscan : parseScan parseF64 text = bsses.reverse.map closeSecurity := by
    rw [parseScan, ← List.foldl_map, show (lines text.toList).map trim = _ from h, hfold,
      List.append_nil]
  rw [hscan, List.forall₂_map_right_iff]
  refine hall.imp ?_
  intro b bss hsummary
  rw [← hsummary]
  cases hsecurity : bss.security with
  | none => simp [closeSecurity, summary, hsecurity]
  | some s => simp [closeSecurity, summary, hsecurity]

/-! ## The verdict -/

/-- The last RSN element is one whose suites list SAE, or such an element stands behind it. -/
def saeLast : List Element → Bool
  | [] => false
  | e :: elements => (e.listsSae && !elements.any Element.isRsn) || saeLast elements

theorem saeLast_concat (elements : List Element) (e : Element) :
    saeLast (elements ++ [e]) = (e.listsSae || (saeLast elements && !e.isRsn)) := by
  induction elements with
  | nil => simp [saeLast]
  | cons e' elements ih =>
    rw [List.cons_append, saeLast, saeLast, ih, List.any_append]
    cases e'.listsSae <;> cases elements.any Element.isRsn <;> cases e.listsSae <;>
      cases saeLast elements <;> cases hrsn : e.isRsn <;> simp [hrsn]

/-- What is written down when the elements have gone by. -/
theorem security_foldl (elements : List Element) :
    (elements.foldl Element.effect (none, none)).1
      = if saeLast elements then some "wpa3"
        else if elements.any Element.isRsn then some "wpa2"
        else if elements.any Element.isWpa then some "wpa"
        else none := by
  induction elements using List.reverseRecOn with
  | nil => rfl
  | append_singleton elements e ih =>
    rw [List.foldl_concat, saeLast_concat, List.any_append, List.any_append]
    cases e with
    | rsn rest body =>
      show (if body.any ElementLine.listsSae then some "wpa3" else some "wpa2") = _
      cases hsae : body.any ElementLine.listsSae <;>
        simp [Element.listsSae, Element.isRsn, hsae]
    | wpa rest body =>
      show (if body.any ElementLine.listsSae then some "wpa3"
        else (elements.foldl Element.effect (none, none)).1.or (some "wpa")) = _
      rw [ih]
      cases hsae : body.any ElementLine.listsSae <;>
        cases saeLast elements <;> cases elements.any Element.isRsn <;>
        cases elements.any Element.isWpa <;>
        simp [Element.listsSae, Element.isRsn, Element.isWpa, hsae]
    | capability _ | family _ _ | load _ _ | other _ _ =>
      show (elements.foldl Element.effect (none, none)).1 = _
      simp [ih, Element.listsSae, Element.isRsn, Element.isWpa]

/-- SAE in an RSN element is what the verdict ends with. -/
theorem saeLast_of_rsnListsSae (b : BssBlock) (h : b.rsnListsSae) :
    saeLast b.elements = true := by
  obtain ⟨e, hmem, hrsn, hsae⟩ := h
  obtain ⟨before, after, helements⟩ := List.append_of_mem hmem
  have honce := b.rsn_once
  rw [helements, List.countP_append, List.countP_cons, if_pos hrsn] at honce
  have hafter : after.any Element.isRsn = false := by
    rw [List.any_eq_false]
    intro e' he' hrsn'
    have hpos : 0 < after.countP Element.isRsn := List.countP_pos_iff.mpr ⟨e', he', hrsn'⟩
    omega
  have hsuffix : saeLast (e :: after) = true := by
    rw [saeLast, hsae, hafter]
    rfl
  rw [helements]
  clear helements honce
  induction before with
  | nil => exact hsuffix
  | cons e' before ih =>
    rw [List.cons_append, saeLast, ih, Bool.or_true]

/-- **The security of a block.** -/
theorem security_iff (b : BssBlock) :
    (b.elements.foldl Element.effect (none, none)).1.getD "open" = strongest b
      ↔ (saeLast b.elements = true → b.rsnListsSae) ∧
        (b.hasPrivacy → b.hasRsn ∨ b.hasWpa) := by
  have hrsn : b.elements.any Element.isRsn = true ↔ b.hasRsn := List.any_eq_true
  have hwpa : b.elements.any Element.isWpa = true ↔ b.hasWpa := List.any_eq_true
  have hrsn_of : b.rsnListsSae → b.hasRsn := fun ⟨e, hmem, he, _⟩ => ⟨e, hmem, he⟩
  rw [security_foldl, strongest]
  by_cases hlisted : b.rsnListsSae
  · rw [if_pos (saeLast_of_rsnListsSae b hlisted), if_pos hlisted]
    exact iff_of_true rfl ⟨fun _ => hlisted, fun _ => .inl (hrsn_of hlisted)⟩
  · rw [if_neg hlisted]
    by_cases hsae : saeLast b.elements = true
    · rw [if_pos hsae]
      refine iff_of_false ?_ fun h => hlisted (h.1 hsae)
      show ¬ "wpa3" = _
      split_ifs <;> decide
    · rw [if_neg hsae]
      have hfirst : saeLast b.elements = true → b.rsnListsSae := fun h => absurd h hsae
      by_cases h : b.hasRsn
      · rw [if_pos (hrsn.mpr h), if_pos h]
        exact iff_of_true rfl ⟨hfirst, fun _ => .inl h⟩
      · rw [if_neg (fun h' => h (hrsn.mp h')), if_neg h]
        by_cases h' : b.hasWpa
        · rw [if_pos (hwpa.mpr h'), if_pos h']
          exact iff_of_true rfl ⟨hfirst, fun _ => .inr h'⟩
        · rw [if_neg (fun h'' => h' (hwpa.mp h'')), if_neg h']
          by_cases hprivacy : b.hasPrivacy
          · rw [if_pos hprivacy]
            exact iff_of_false (by decide) fun hboth => (hboth.2 hprivacy).elim h h'
          · rw [if_neg hprivacy]
            exact iff_of_true rfl ⟨hfirst, fun hp => absurd hp hprivacy⟩

/-! ## The standards -/

/-- The place of a family in `ht`, `vht`, `he`. -/
def Family.rank : Family → Nat
  | ht => 0
  | vht => 1
  | he => 2

theorem Family.name_injective : Function.Injective Family.name := by
  intro f g h
  cases f <;> cases g <;> first | rfl | exact absurd h (by decide)

theorem Family.plain_name (f : Family) : Plain f.name := by
  rw [Plain]
  cases f <;> decide

theorem plain_names (families : List Family) : ∀ u ∈ families.map Family.name, Plain u := by
  intro u hu
  obtain ⟨f, _, rfl⟩ := List.mem_map.mp hu
  exact f.plain_name

theorem appendNew_map {α β : Type} [DecidableEq α] [DecidableEq β] {f : α → β}
    (hf : Function.Injective f) (l : List α) (a : α) :
    appendNew (l.map f) (f a) = (appendNew l a).map f := by
  rw [appendNew, appendNew]
  by_cases h : a ∈ l
  · rw [if_pos h, if_pos (List.mem_map_of_mem h)]
  · rw [if_neg h, if_neg (fun hmem => h ((List.mem_map_of_injective hf).mp hmem)), List.map_append,
      List.map_singleton]

/-- The standards are the families in the order in which they first appear. -/
theorem standards_foldl (elements : List Element) :
    (elements.foldl Element.effect (none, none)).2
      = joined ((elements.filterMap Element.family?).eraseDups.map Family.name) := by
  induction elements using List.reverseRecOn with
  | nil => rfl
  | append_singleton elements e ih =>
    rw [List.foldl_concat, List.filterMap_append]
    cases e with
    | family f rest =>
      show pushDistinct (elements.foldl Element.effect (none, none)).2 f.name = _
      rw [ih, pushDistinct_joined (plain_names _), appendNew_map Family.name_injective,
        ← eraseDups_concat]
      rfl
    | capability _ | rsn _ _ | wpa _ _ | load _ _ | other _ _ =>
      show (elements.foldl Element.effect (none, none)).2 = _
      rw [ih]
      exact (congrArg (fun l => joined (l.eraseDups.map Family.name)) (List.append_nil _)).symm

/-- The standards come in the order of their ranks. -/
theorem inOrder_pairwise (b : BssBlock) :
    (inOrder b).Pairwise fun f g => f.rank < g.rank :=
  List.Pairwise.filter _ (by decide)

theorem mem_inOrder {b : BssBlock} {f : Family} : f ∈ inOrder b ↔ f ∈ b.families := by
  rw [inOrder, List.mem_filter, decide_eq_true_iff]
  exact and_iff_right (by cases f <;> decide)

/-- **The order of the standards.** -/
theorem standards_iff (b : BssBlock) :
    (b.elements.foldl Element.effect (none, none)).2 = joined ((inOrder b).map Family.name)
      ↔ b.families.eraseDups.Pairwise fun f g => f.rank < g.rank := by
  have hlists : joined (b.families.eraseDups.map Family.name)
      = joined ((inOrder b).map Family.name) ↔ b.families.eraseDups = inOrder b := by
    constructor
    · intro h
      exact Family.name_injective.list_map (joined_inj (plain_names _) (plain_names _) h)
    · intro h
      rw [h]
  rw [standards_foldl]
  refine hlists.trans ⟨?_, ?_⟩
  · intro h
    rw [h]
    exact inOrder_pairwise b
  · intro h
    have hnodup : ∀ {l : List Family}, (l.Pairwise fun f g => f.rank < g.rank) → l.Nodup :=
      fun hl => hl.imp fun hlt heq => absurd (congrArg Family.rank heq) hlt.ne
    have hperm : b.families.eraseDups.Perm (inOrder b) :=
      (List.perm_ext_iff_of_nodup (hnodup h) (hnodup (inOrder_pairwise b))).mpr fun f => by
        rw [List.mem_eraseDups, mem_inOrder]
    exact hperm.eq_of_pairwise (fun f g _ _ hlt hgt => absurd hgt hlt.asymm) h (inOrder_pairwise b)

/-! ## Both -/

/-- The verdict is the strongest mechanism, and the standards stand in their order. -/
structure VerdictRight (b : BssBlock) (bss : Bss F) : Prop where
  security : bss.security = some (strongest b)
  standards : bss.standards = joined ((inOrder b).map Family.name)

/-- Where the parser gets both right. -/
structure Ordinary (b : BssBlock) : Prop where
  sae_is_rsn : saeLast b.elements = true → b.rsnListsSae
  not_wep : b.hasPrivacy → b.hasRsn ∨ b.hasWpa
  ascending : b.families.eraseDups.Pairwise fun f g => f.rank < g.rank

/-- **The verdict is the strongest mechanism of a block, and the standards stand in their
order, just where the block has Privacy only next to RSN or WPA, no WPA element behind RSN
lists SAE unless RSN does, and the families come in ascending order.** -/
theorem verdict_iff {text : String} {blocks : List BssBlock}
    (h : Prints text (blocks.flatMap BssBlock.contents)) :
    List.Forall₂ (fun b bss => VerdictRight b bss ↔ Ordinary b) blocks
      (parseScan parseF64 text) := by
  refine (parseScan_blocks parseF64 h).imp ?_
  rintro b bss ⟨hsecurity, hstandards⟩
  have hverdict := security_iff b
  have horder := standards_iff b
  rw [← hstandards] at horder
  constructor
  · intro hright
    have hstrongest := hright.security
    rw [hsecurity, Option.some_inj] at hstrongest
    exact ⟨(hverdict.mp hstrongest).1, (hverdict.mp hstrongest).2, horder.mp hright.standards⟩
  · intro hordinary
    refine ⟨?_, horder.mpr hordinary.ascending⟩
    rw [hsecurity, hverdict.mpr ⟨hordinary.sae_is_rsn, hordinary.not_wep⟩]

/-- A block with Privacy and no other sign of a mechanism. -/
def wepBlock : BssBlock where
  bssid := "08:3f:bc:ea:39:41".toList
  annotation := "(on wlan0)".toList
  elements := [.capability "ESS Privacy ShortSlotTime (0x0411)".toList]
  bssid_shape := by decide +kernel
  bssid_ends := by
    rintro c ⟨⟩
    decide
  rsn_once := Nat.zero_le 1

/-- The text of the block. -/
def wepScan : String := printed wepBlock.contents

theorem prints_wepScan : Prints wepScan ([wepBlock].flatMap BssBlock.contents) :=
  prints_printed (isTrimmedLine_of_all (by decide +kernel))

/-- A network with WEP is reported as open. -/
theorem verdict_wep :
    strongest wepBlock = "wep" ∧
      ((parseScan (fun _ => (none : Option Int)) wepScan).map Bss.security = [some "open"] ∧
        ¬ List.Forall₂ VerdictRight [wepBlock]
          (parseScan (fun _ => (none : Option Int)) wepScan)) := by
  have hblocks := parseScan_blocks (fun _ => (none : Option Int)) prints_wepScan
  obtain ⟨bss, rest, ⟨hsecurity, _⟩, hrest, hscan⟩ := List.forall₂_cons_left_iff.mp hblocks
  rw [List.forall₂_nil_left_iff.mp hrest] at hscan
  rw [hscan]
  refine ⟨by decide +kernel, congrArg (· :: []) hsecurity, fun h => ?_⟩
  have hright := (List.forall₂_cons.mp h).1.security
  rw [hsecurity] at hright
  revert hright
  decide +kernel

/-- The sample: a block with the privacy bit and nothing else. -/
theorem verdict_iff_wepScan :
    Prints wepScan ([wepBlock].flatMap BssBlock.contents) ∧
      List.Forall₂ (fun b bss => VerdictRight b bss ↔ Ordinary b) [wepBlock]
        (parseScan (fun _ => (none : Option Int)) wepScan) :=
  ⟨prints_wepScan, verdict_iff _ prints_wepScan⟩

end HostServices.DetectedDevices.Wifi
