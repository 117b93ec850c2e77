import Mathlib.Data.List.Basic
import TestLinker.OrderedMap.Lemmas
import TestLinker.Proofs.Scans
import TestLinker.Proofs.Tokens

/-! # The parents that are written on a page

The tokens of a delimited text stay apart from one another and from whatever is written
beside them, also when one of them is replaced by a delimited text. So a scan of a page
with delimited texts takes away the tokens of the parents that are ready and does nothing
else to the parents that are named (`Identifiers.Delimited.parents_scan`): no token is put
together from pieces, and none that names a missing parent is lost. The scans end, because
each of them leaves fewer tokens. Without delimitation nothing of this holds.
-/

namespace TestLinker

namespace Parent

/-- A text made of tokens and of parts in between, where no token starts in a part or
inside another token, whatever text comes after it. -/
inductive Delimited : List Char → Prop where
  | nil : Delimited []
  | part {part rest : List Char} (inert : Inert part) (further : Delimited rest) : Delimited (part ++ rest)
  | token {name rest : List Char} (isName : IsName name) (single : Inert (tokenTail name))
      (further : Delimited rest) : Delimited (tokenChars name ++ rest)

namespace Delimited

variable {text value rest : List Char}

theorem of_inert (inert : Inert text) : Delimited text := by
  have delimited := Delimited.part inert .nil
  rwa [List.append_nil] at delimited

theorem append (delimited : Delimited text) (further : Delimited rest) : Delimited (text ++ rest) := by
  induction delimited with
  | nil => exact further
  | part inert _ inductionHypothesis =>
    rw [List.append_assoc]
    exact .part inert inductionHypothesis
  | token isName single _ inductionHypothesis =>
    rw [List.append_assoc]
    exact .token isName single inductionHypothesis

theorem namesOf_append (delimited : Delimited text) (rest : List Char) :
    namesOf (text ++ rest) = namesOf text ++ namesOf rest := by
  induction delimited with
  | nil => rfl
  | part inert _ inductionHypothesis =>
    rw [List.append_assoc, inert.namesOf_append, inert.namesOf_append, inductionHypothesis]
  | token isName single _ inductionHypothesis =>
    rw [List.append_assoc, isName.namesOf_token single, isName.namesOf_token single, inductionHypothesis]
    rfl

/-- A token is replaced as a whole, so what is left is delimited again. -/
theorem replaceAll {name : List Char} (isName : IsName name) (delimited : Delimited text)
    (valueDelimited : Delimited value) : Delimited (Text.replaceAll (tokenChars name) value text) := by
  induction delimited with
  | nil => exact .nil
  | part inert _ inductionHypothesis =>
    rw [inert.replaceAll_append isName]
    exact .part inert inductionHypothesis
  | token otherIsName single _ inductionHypothesis =>
    rw [isName.replaceAll_token value otherIsName single]
    split
    · exact valueDelimited.append inductionHypothesis
    · exact .token otherIsName single inductionHypothesis

/-- Replacing a token by a text without tokens takes its name away, and no other one. -/
theorem namesOf_replaceAll {name : List Char} (isName : IsName name) (delimited : Delimited text)
    (valueDelimited : Delimited value) (closed : namesOf value = []) :
    namesOf (Text.replaceAll (tokenChars name) value text) = (namesOf text).filter (· ≠ name) := by
  induction delimited with
  | nil => rfl
  | part inert _ inductionHypothesis =>
    rw [inert.replaceAll_append isName, inert.namesOf_append, inert.namesOf_append, inductionHypothesis]
  | @token other _ otherIsName single _ inductionHypothesis =>
    rw [isName.replaceAll_token value otherIsName single, otherIsName.namesOf_token single]
    by_cases same : other = name
    · rw [if_pos same, valueDelimited.namesOf_append, closed, inductionHypothesis,
        List.filter_cons_of_neg (by simp [same])]
      rfl
    · rw [if_neg same, otherIsName.namesOf_token single, inductionHypothesis,
        List.filter_cons_of_pos (by simp [same])]

end Delimited

theorem names_substitute {name value text : String} (isName : IsName name.toList) (delimited : Delimited text.toList)
    (valueDelimited : Delimited value.toList) (closed : isExpanded value = true) :
    names (substitute name value text) = (names text).filter (· ≠ name) := by
  have noToken : namesOf value.toList = [] := by
    rw [isExpanded, List.isEmpty_iff, names, List.map_eq_nil_iff] at closed
    exact closed
  rw [names, names, substitute, String.toList_ofList, delimited.namesOf_replaceAll isName valueDelimited noToken,
    List.filter_map]
  congr 1
  apply List.filter_congr
  intro other _
  simp [← String.toList_inj]

end Parent

namespace Identifiers

variable {identifiers : Identifiers}

/-- The names that reading finds in the texts, in order and with repetitions. -/
def parents (identifiers : Identifiers) : List String := identifiers.values.flatMap Parent.names

/-- Whether a scan puts the text of the name in place of its tokens. -/
def isReady (identifiers : Identifiers) (name : String) : Bool := (identifiers.get? name).any Parent.isExpanded

theorem mem_keys_of_isReady {name : String} (ready : identifiers.isReady name = true) : name ∈ identifiers.keys := by
  rw [isReady] at ready
  cases declared : identifiers.get? name with
  | none => simp [declared] at ready
  | some text => exact OrderedMap.mem_keys_iff.mpr ⟨text, declared⟩

theorem substituteParent_of_not_isReady {name : String} (unready : ¬ identifiers.isReady name = true) (text : String) :
    identifiers.substituteParent text name = text := by
  unfold Identifiers.substituteParent
  cases declared : identifiers.get? name with
  | none => rfl
  | some value =>
    rw [isReady, declared] at unready
    exact if_neg unready

theorem substituteParents_of_not_isReady {text : String}
    (unready : ∀ parent ∈ Parent.names text, ¬ identifiers.isReady parent = true) :
    identifiers.substituteParents text = text := by
  rw [Identifiers.substituteParents]
  generalize Parent.names text = names at unready
  induction names with
  | nil => rfl
  | cons name rest inductionHypothesis =>
    obtain ⟨first, others⟩ := List.forall_mem_cons.mp unready
    rw [List.foldl_cons, substituteParent_of_not_isReady first, inductionHypothesis others]

theorem mem_parents_iff {parent : String} :
    parent ∈ identifiers.parents ↔ ∃ text ∈ identifiers.values, parent ∈ Parent.names text :=
  List.mem_flatMap

theorem firstParent?_eq_head? (identifiers : Identifiers) : identifiers.firstParent? = identifiers.parents.head? :=
  List.head?_flatMap.symm

theorem isExpanded_iff_parents_eq_nil : identifiers.isExpanded = true ↔ identifiers.parents = [] := by
  rw [← firstParent?_eq_none_iff, firstParent?_eq_head?, List.head?_eq_none_iff]

/-! ## One scan -/

def Delimited (identifiers : Identifiers) : Prop := ∀ text ∈ identifiers.values, Parent.Delimited text.toList

namespace Delimited

theorem substituteParent (delimited : identifiers.Delimited) {name text : String} (isName : Parent.IsName name.toList)
    (textDelimited : Parent.Delimited text.toList) :
    Parent.Delimited (identifiers.substituteParent text name).toList ∧
      Parent.names (identifiers.substituteParent text name) =
        (Parent.names text).filter fun other => ¬ (other = name ∧ identifiers.isReady name) := by
  have kept (unready : identifiers.isReady name = false) :
      Parent.names text = (Parent.names text).filter fun other => ¬ (other = name ∧ identifiers.isReady name) :=
    (List.filter_eq_self.mpr fun _ _ => by simp [unready]).symm
  unfold Identifiers.substituteParent
  cases declared : identifiers.get? name with
  | none => exact ⟨textDelimited, kept (by rw [isReady, declared]; rfl)⟩
  | some value =>
    dsimp only
    split
    · rename_i closed
      have ready : identifiers.isReady name = true := by rw [isReady, declared]; exact closed
      have valueDelimited := delimited value (OrderedMap.mem_values_iff.mpr ⟨name, declared⟩)
      constructor
      · rw [Parent.substitute, String.toList_ofList]
        exact textDelimited.replaceAll isName valueDelimited
      · rw [Parent.names_substitute isName textDelimited valueDelimited closed]
        simp [ready]
    · rename_i tokens
      exact ⟨textDelimited, kept (by rw [isReady, declared]; exact Bool.eq_false_iff.mpr tokens)⟩

theorem foldl_substituteParent (delimited : identifiers.Delimited) {names : List String} {text : String}
    (areNames : ∀ name ∈ names, Parent.IsName name.toList) (textDelimited : Parent.Delimited text.toList) :
    Parent.Delimited (names.foldl identifiers.substituteParent text).toList ∧
      Parent.names (names.foldl identifiers.substituteParent text) =
        (Parent.names text).filter fun other => ¬ (other ∈ names ∧ identifiers.isReady other) := by
  induction names generalizing text with
  | nil => exact ⟨textDelimited, (List.filter_eq_self.mpr fun _ _ => by simp).symm⟩
  | cons name rest inductionHypothesis =>
    obtain ⟨isName, restAreNames⟩ := List.forall_mem_cons.mp areNames
    obtain ⟨headDelimited, headNames⟩ := delimited.substituteParent isName textDelimited
    obtain ⟨restDelimited, restNames⟩ := inductionHypothesis restAreNames headDelimited
    refine ⟨restDelimited, ?_⟩
    rw [List.foldl_cons, restNames, headNames, List.filter_filter]
    apply List.filter_congr
    intro other _
    rw [Bool.eq_iff_iff]
    simp only [Bool.and_eq_true, decide_eq_true_eq, List.mem_cons]
    by_cases same : other = name
    · rw [same]
      tauto
    · tauto

theorem substituteParents (delimited : identifiers.Delimited) {text : String}
    (textDelimited : Parent.Delimited text.toList) :
    Parent.Delimited (identifiers.substituteParents text).toList ∧
      Parent.names (identifiers.substituteParents text) =
        (Parent.names text).filter fun parent => ¬ identifiers.isReady parent := by
  obtain ⟨resultDelimited, names⟩ :=
    delimited.foldl_substituteParent (fun _ => Parent.isName_of_mem_names) textDelimited
  refine ⟨resultDelimited, names.trans (List.filter_congr ?_)⟩
  intro parent member
  simp [member]

theorem scan (delimited : identifiers.Delimited) : identifiers.scan.Delimited := by
  intro text member
  rw [Identifiers.scan, OrderedMap.values_map] at member
  obtain ⟨former, formerMember, rfl⟩ := List.mem_map.mp member
  exact (delimited.substituteParents (delimited former formerMember)).1

/-- A scan takes away the parents that are ready. -/
theorem parents_scan (delimited : identifiers.Delimited) :
    identifiers.scan.parents = identifiers.parents.filter fun parent => ¬ identifiers.isReady parent := by
  rw [parents, Identifiers.scan, OrderedMap.values_map, List.flatMap_map, parents, List.filter_flatMap]
  apply List.flatMap_congr
  intro text member
  exact (delimited.substituteParents (delimited text member)).2

/-- A scan that changes a text takes a parent away. -/
theorem length_parents_scan_lt (delimited : identifiers.Delimited) (changes : identifiers.scan ≠ identifiers) :
    identifiers.scan.parents.length < identifiers.parents.length := by
  rw [delimited.parents_scan, List.length_filter_lt_length_iff_exists]
  by_contra allKept
  push Not at allKept
  refine changes (scan_eq_self_iff.mpr fun name text declared => substituteParents_of_not_isReady ?_)
  intro parent found ready
  have written := mem_parents_iff.mpr ⟨text, OrderedMap.mem_values_iff.mpr ⟨name, declared⟩, found⟩
  exact absurd ready (of_decide_eq_true (allKept parent written))

/-! ## All scans -/

theorem complete_of_length_parents_lt (delimited : identifiers.Delimited) {bound : Nat}
    (enough : identifiers.parents.length < bound) : (identifiers.scansWithin bound).complete = true := by
  induction bound generalizing identifiers with
  | zero => cases enough
  | succ bound inductionHypothesis =>
    by_cases ends : identifiers.EndsAfterScan
    · rw [scansWithin_of_ends ends]
    · rw [scansWithin_of_goesOn ends]
      have fewer := delimited.length_parents_scan_lt fun same => ends (.inr same)
      exact inductionHypothesis delimited.scan (by omega)

theorem ends (delimited : identifiers.Delimited) : identifiers.Ends :=
  ⟨_, delimited.complete_of_length_parents_lt (Nat.lt_succ_self _)⟩

end Delimited

/-- Scans lead from one page to a later one: it names no new parents, and it still names all
that are missing. -/
structure LeadsTo (written later : Identifiers) : Prop where
  delimited : later.Delimited
  keys : later.keys = written.keys
  parents : later.parents.Sublist written.parents
  missing : ∀ parent ∈ written.parents, parent ∉ written.keys → parent ∈ later.parents

namespace LeadsTo

variable {written later : Identifiers}

theorem refl (delimited : written.Delimited) : written.LeadsTo written where
  delimited := delimited
  keys := rfl
  parents := .refl _
  missing := fun _ member _ => member

theorem scan (leads : written.LeadsTo later) : written.LeadsTo later.scan where
  delimited := leads.delimited.scan
  keys := (keys_scan later).trans leads.keys
  parents := by
    rw [leads.delimited.parents_scan]
    exact List.filter_sublist.trans leads.parents
  missing := by
    intro parent member absent
    have unready : ¬ later.isReady parent := by
      intro ready
      have declared := mem_keys_of_isReady ready
      rw [leads.keys] at declared
      exact absent declared
    rw [leads.delimited.parents_scan]
    exact List.mem_filter.mpr ⟨leads.missing parent member absent, decide_eq_true unready⟩

end LeadsTo

theorem leadsTo_of_expansion? (delimited : identifiers.Delimited) {result : Identifiers}
    (returned : identifiers.expansion? = some result) : identifiers.LeadsTo result := by
  obtain ⟨count, rfl⟩ := exists_iterate_of_expansion? returned
  exact Function.Iterate.rec (fun later => identifiers.LeadsTo later) (.refl delimited)
    (fun _ leads => leads.scan) count

end Identifiers

/-- If the expansion of a delimited page succeeds, all parents that are written on it are
declared on it, and if it fails, it blames one that is written on it. -/
theorem Page.expand_blames_written {page : Page} (delimited : page.identifiers.Delimited) :
    (∀ answer, page.expand = .ok answer →
        ∀ text ∈ page.identifiers.values, ∀ parent ∈ Parent.names text, parent ∈ page.identifiers.keys) ∧
      (∀ error, page.expand = .error error →
        ∃ parent, error = .ofFault (.unknownPageElement page.importName parent) ∧
          ∃ text ∈ page.identifiers.values, parent ∈ Parent.names text) := by
  obtain ⟨bound, complete⟩ := delimited.ends
  have returned := Identifiers.expansion?_of_complete complete
  have leads := Identifiers.leadsTo_of_expansion? delimited returned
  by_cases expanded : (page.identifiers.scansWithin bound).identifiers.isExpanded = true
  · obtain ⟨answer, succeeds, _⟩ := expand_of_isExpanded returned expanded
    refine ⟨fun _ _ text member parent found => ?_, fun error fails => ?_⟩
    · by_contra absent
      have left := leads.missing parent (Identifiers.mem_parents_iff.mpr ⟨text, member, found⟩) absent
      rw [Identifiers.isExpanded_iff_parents_eq_nil.mp expanded] at left
      cases left
    · cases succeeds.symm.trans fails
  · obtain ⟨parent, first, fails⟩ := expand_of_not_isExpanded returned expanded
    refine ⟨fun answer succeeds => ?_, fun error failsWith => ?_⟩
    · cases fails.symm.trans succeeds
    · cases fails.symm.trans failsWith
      rw [Identifiers.firstParent?_eq_head?] at first
      have left := leads.parents.subset (List.mem_of_head? first)
      exact ⟨parent, rfl, Identifiers.mem_parents_iff.mp left⟩

namespace MenuExample

/-- An entry whose first braces open no token, because the name would hold a dollar sign. -/
def entry : String := "\x7b\x7b $1 >> \x7b\x7b menu \x7d\x7d \x7b\x7b note \x7d\x7d"

def incomplete : Page where
  importName := "menu"
  url := "http://menu.example/"
  identifiers := .ofList [("entry", entry), ("menu", "#menu")]

def complete : Page := { incomplete with identifiers := incomplete.identifiers.insert "note" "p" }

theorem entry_delimited : Parent.Delimited entry.toList := by
  have shape : entry.toList = ['{', '{', ' ', '$'] ++ ("1 >> ".toList ++ (Parent.tokenChars "menu".toList ++
      ([' '] ++ (Parent.tokenChars "note".toList ++ [])))) := by
    decide +kernel
  have dollar : Parent.Inert ['{', '{', ' ', '$'] :=
    .cons (fun _ => rfl) (.cons (fun _ => rfl) (.of_not_mem (by decide)))
  rw [shape]
  exact .part dollar <| .part (.of_not_mem (by decide)) <|
    .token ⟨by decide, by simp [Parent.isNameChar]⟩ (Parent.inert_tokenTail_of_not_mem (by decide)) <|
    .part (.of_not_mem (by decide)) <|
    .token ⟨by decide, by simp [Parent.isNameChar]⟩ (Parent.inert_tokenTail_of_not_mem (by decide)) .nil

end MenuExample

open MenuExample in
theorem Page.menu_expand_blames_written :
    incomplete.identifiers.Delimited ∧ complete.identifiers.Delimited ∧
      incomplete.expand = .error (.ofFault (.unknownPageElement "menu" "note")) ∧
      (∃ text ∈ incomplete.identifiers.values, "note" ∈ Parent.names text) ∧
      (∃ answer, complete.expand = .ok answer) ∧
      ∀ text ∈ complete.identifiers.values, ∀ parent ∈ Parent.names text, parent ∈ complete.identifiers.keys := by
  have menuDelimited : Parent.Delimited "#menu".toList := .of_inert (.of_not_mem (by decide))
  have noteDelimited : Parent.Delimited "p".toList := .of_inert (.of_not_mem (by decide))
  have incompleteDelimited : incomplete.identifiers.Delimited := by
    have values : incomplete.identifiers.values = [entry, "#menu"] := by rfl
    rw [Identifiers.Delimited, values]
    simp only [List.forall_mem_cons]
    exact ⟨entry_delimited, menuDelimited, nofun⟩
  have completeDelimited : complete.identifiers.Delimited := by
    have values : complete.identifiers.values = [entry, "#menu", "p"] := by rfl
    rw [Identifiers.Delimited, values]
    simp only [List.forall_mem_cons]
    exact ⟨entry_delimited, menuDelimited, noteDelimited, nofun⟩
  have blames : incomplete.expand = .error (.ofFault (.unknownPageElement "menu" "note")) := by decide +kernel
  have expands : complete.expand = .ok (some { complete with
      identifiers := .ofList [("entry", "\x7b\x7b $1 >> #menu p"), ("menu", "#menu"), ("note", "p")] }) := by
    decide +kernel
  obtain ⟨parent, same, written⟩ := (Page.expand_blames_written incompleteDelimited).2 _ blames
  cases same
  exact ⟨incompleteDelimited, completeDelimited, blames, written, ⟨_, expands⟩,
    (Page.expand_blames_written completeDelimited).1 _ expands⟩

namespace OverlapExample

/-- The token of `form` stands inside the token of a longer name. -/
def overlapping : Page where
  importName := "form"
  url := "http://form.example/"
  identifiers := .ofList [("form", "#form"), ("input", "\x7b\x7b label \x7b\x7b form \x7d\x7d input")]

/-- The text of `open` and what stands behind its token make up a token. -/
def assembled : Page where
  importName := "list"
  url := "http://list.example/"
  identifiers := .ofList [("open", "\x7b\x7b item"), ("closed", "\x7b\x7b open \x7d\x7d \x7d\x7d")]

end OverlapExample

open OverlapExample in
/-- A scan can put in the parent inside a longer name, so that a missing parent is overlooked,
and it can put a token together, so that a parent is blamed that nobody has written. -/
theorem Page.expand_overlooks_and_invents :
    (overlapping.identifiers.scans.complete = true ∧ (∃ answer, overlapping.expand = .ok answer) ∧
        ∃ text ∈ overlapping.identifiers.values, ∃ parent ∈ Parent.names text,
          parent ∉ overlapping.identifiers.keys) ∧
      assembled.identifiers.scans.complete = true ∧
        assembled.expand = .error (.ofFault (.unknownPageElement "list" "item")) ∧
        ∀ text ∈ assembled.identifiers.values, "item" ∉ Parent.names text := by
  have expands : overlapping.expand = .ok (some { overlapping with
      identifiers := .ofList [("form", "#form"), ("input", "\x7b\x7b label #form input")] }) := by
    decide +kernel
  refine ⟨⟨by decide +kernel, ⟨_, expands⟩, ?_⟩, by decide +kernel, by decide +kernel, by decide +kernel⟩
  refine ⟨"\x7b\x7b label \x7b\x7b form \x7d\x7d input", by decide +kernel, "label \x7b\x7b form", ?_, ?_⟩
  · decide +kernel
  · decide +kernel

end TestLinker
