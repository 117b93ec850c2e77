import TestLinker.Proofs.ParentGraph

/-! # The parent that a broken page blames

Scans erase tokens of names that can be resolved and keep the other ones in their order
(`exists_rewriting`). So when the scans have ended, the first identifier with a token is the
first one that cannot be resolved, and its first token is the first of its written tokens
that cannot be resolved.
-/

namespace TestLinker

namespace PlainIdentifiers

open Relation (TransGen ReflTransGen)

variable {source later : PlainIdentifiers} {rewrite : PlainText → PlainText} {erased : String → Bool}

/-- The first name of a list that cannot be resolved. -/
def FirstUnresolvable (source : PlainIdentifiers) (names : List String) (name : String) : Prop :=
  ∃ before after, names = before ++ name :: after ∧ (∀ earlier ∈ before, source.Resolvable earlier) ∧
    ¬ source.Resolvable name

/-- All texts have been rewritten alike, and of the tokens of a text those of some names have
been erased, all of which can be resolved. -/
structure Rewriting (source later : PlainIdentifiers) (rewrite : PlainText → PlainText) (erased : String → Bool) :
    Prop where
  reached : later = source.map fun _ => rewrite
  resolvable : ∀ name, erased name = true → source.Resolvable name
  names : ∀ text, (rewrite text).names = text.names.filter fun name => !erased name

namespace Rewriting

theorem refl (source : PlainIdentifiers) : Rewriting source source id fun _ => false where
  reached := (OrderedMap.map_eq_self_iff.mpr fun _ _ _ => rfl).symm
  resolvable := nofun
  names := fun _ => (List.filter_eq_self.mpr fun _ _ => rfl).symm

theorem scan (rewriting : Rewriting source later rewrite erased)
    (resolvable : ∀ name, later.Resolvable name → source.Resolvable name) :
    Rewriting source later.scan (fun text => (rewrite text).substitute later.ready)
      fun name => erased name || (later.ready name).isSome where
  reached := by
    refine (congrArg (OrderedMap.map fun _ text => text.substitute later.ready) rewriting.reached).trans ?_
    exact OrderedMap.map_map _ _ _
  resolvable := by
    intro name erasedNow
    rcases Bool.or_eq_true_iff.mp erasedNow with before | ready
    · exact rewriting.resolvable name before
    · obtain ⟨value, found⟩ := Option.isSome_iff_exists.mp ready
      exact resolvable name (resolvable_of_ready found)
  names := by
    intro text
    rw [names_substitute_ready, rewriting.names, List.filter_filter]
    apply List.filter_congr
    intro name _
    cases erased name <;> cases later.ready name <;> rfl

theorem get? (rewriting : Rewriting source later rewrite erased) {name : String} {text : PlainText}
    (declared : source.get? name = some text) : later.get? name = some (rewrite text) := by
  rw [rewriting.reached, OrderedMap.get?_map, declared]
  rfl

theorem resolvable_of_nil (rewriting : Rewriting source later rewrite erased) {text : PlainText}
    (nothingLeft : (rewrite text).names = []) : ∀ parent ∈ text.names, source.Resolvable parent := by
  rw [rewriting.names, List.filter_eq_nil_iff] at nothingLeft
  exact fun parent member => rewriting.resolvable parent (by simpa using nothingLeft parent member)

theorem firstUnresolvable_of_cons (rewriting : Rewriting source later rewrite erased) {text : PlainText}
    {parent : String} {others : List String} (left : (rewrite text).names = parent :: others)
    (unresolvable : ¬ source.Resolvable parent) : source.FirstUnresolvable text.names parent := by
  rw [rewriting.names] at left
  obtain ⟨before, after, written, erasedBefore, _, _⟩ := List.filter_eq_cons_iff.mp left
  exact ⟨before, after, written,
    fun name member => rewriting.resolvable name (by simpa using erasedBefore name member), unresolvable⟩

end Rewriting

theorem exists_rewriting (source : PlainIdentifiers) (count : Nat) :
    ∃ rewrite erased, Rewriting source (scan^[count] source) rewrite erased := by
  induction count with
  | zero => exact ⟨_, _, .refl source⟩
  | succ count inductionHypothesis =>
    obtain ⟨rewrite, erased, rewriting⟩ := inductionHypothesis
    have same := source.sameExpansion_iterate_scan count
    rw [Function.iterate_succ_apply']
    exact ⟨_, _, rewriting.scan fun name => (same.resolvable name).mp⟩

theorem Stuck.not_resolvable (stuck : source.Stuck) {name parent : String} {text : PlainText}
    (declared : source.get? name = some text) (member : parent ∈ text.names) : ¬ source.Resolvable parent := by
  intro resolvable
  obtain ⟨value, valueDeclared, closed⟩ := stuck.names_eq_nil resolvable
  exact ready_eq_none_iff.mp (stuck name text declared parent member) value valueDeclared closed

/-- The first parent that is left by the expansion, read off the texts as they were written. -/
theorem firstUnresolvable_of_firstParent? {result : Identifiers} {parent : String}
    (returned : source.texts.expansion? = some result) (blamed : result.firstParent? = some parent) :
    ∃ name text, source.FirstUnresolvable source.keys name ∧ source.get? name = some text ∧
      source.FirstUnresolvable text.names parent := by
  obtain ⟨count, stuck, texts⟩ := source.expansion?_texts
  obtain ⟨rewrite, erased, rewriting⟩ := source.exists_rewriting count
  have same := source.sameExpansion_iterate_scan count
  cases texts.symm.trans returned
  generalize scan^[count] source = final at stuck rewriting same blamed
  have values : final.texts.values = source.entries.map fun entry => (rewrite entry.2).text := by
    simp [rewriting.reached, PlainIdentifiers.texts, OrderedMap.values, OrderedMap.map]
  rw [Identifiers.firstParent?, values, List.findSome?_map, List.findSome?_eq_some_iff] at blamed
  obtain ⟨before, ⟨name, text⟩, after, split, first, expanded⟩ := blamed
  simp only [Function.comp_apply, Parent.firstName?, PlainText.names_text] at first expanded
  have declared (entry : String × PlainText) (member : entry ∈ before ++ (name, text) :: after) :
      source.get? entry.1 = some entry.2 :=
    OrderedMap.get?_eq_some_iff.mpr (split ▸ member)
  have textDeclared : source.get? name = some text := declared (name, text) (by simp)
  -- nothing that can be resolved is left in any text, so the blamed parent cannot
  obtain ⟨others, left⟩ := List.head?_eq_some_iff.mp first
  have unresolvable : ¬ source.Resolvable parent := by
    rw [← same.resolvable]
    exact stuck.not_resolvable (rewriting.get? textDeclared) (by simp [left])
  have firstParent := rewriting.firstUnresolvable_of_cons left unresolvable
  refine ⟨name, text, ⟨before.map Prod.fst, after.map Prod.fst, ?_, ?_, ?_⟩, textDeclared, firstParent⟩
  · rw [OrderedMap.keys, split, List.map_append, List.map_cons]
  · intro key inBefore
    obtain ⟨entry, member, rfl⟩ := List.mem_map.mp inBefore
    have nothingLeft := List.head?_eq_none_iff.mp (expanded entry member)
    exact .intro (declared entry (by simp [member])) (rewriting.resolvable_of_nil nothingLeft)
  · intro resolvable
    obtain ⟨_, _, written, _⟩ := firstParent
    exact unresolvable (resolvable.of_refers ⟨text, textDeclared, by simp [written]⟩)

end PlainIdentifiers

open Relation in
/-- The expansion of a plain page on which some name cannot be resolved fails, and it blames
the first such parent of the first identifier that cannot be resolved. This parent is missing
from the page, or on a circle, or it depends on such a name. -/
theorem Page.expand_blames_first {page : Page} {source : PlainIdentifiers} (plain : page.identifiers = source.texts)
    (broken : ∃ name ∈ source.keys, ¬ source.Resolvable name) :
    ∃ name text parent, source.FirstUnresolvable source.keys name ∧ source.get? name = some text ∧
      source.FirstUnresolvable text.names parent ∧
      page.expand = .error (.ofFault (.unknownPageElement page.importName parent)) ∧
      ∃ ancestor, ReflTransGen source.Refers parent ancestor ∧
        (ancestor ∉ source.keys ∨ TransGen source.Refers ancestor ancestor) := by
  obtain ⟨_, _, returned⟩ := source.expansion?_texts
  have unexpanded := mt (PlainIdentifiers.isExpanded_iff_of_expansion? returned).mp (by push Not; exact broken)
  obtain ⟨parent, blamed, fails⟩ := expand_of_not_isExpanded ((congrArg _ plain).trans returned) unexpanded
  obtain ⟨name, text, firstName, declared, firstParent⟩ :=
    PlainIdentifiers.firstUnresolvable_of_firstParent? returned blamed
  have unresolvable : ¬ source.Resolvable parent := by
    obtain ⟨_, _, _, _, unresolvable⟩ := firstParent
    exact unresolvable
  exact ⟨name, text, parent, firstName, declared, firstParent, fails,
    PlainIdentifiers.not_resolvable_iff.mp unresolvable⟩

namespace FrameExample

def frame : PlainName := ⟨"frame", by decide, by simp⟩

def left : PlainName := ⟨"left", by decide, by simp⟩

def right : PlainName := ⟨"right", by decide, by simp⟩

def footer : PlainName := ⟨"footer", by decide, by simp⟩

theorem plain_hash : '#' ≠ '{' ∧ '#' ≠ '}' := by decide

theorem plain_angle : '>' ≠ '{' ∧ '>' ≠ '}' := by decide

/-- Two names on a circle come before one with a parent that is missing. -/
def source : PlainIdentifiers := .ofList
  [("frame", [.char '#' plain_hash]), ("left", [.token frame, .char '>' plain_angle, .token right]),
    ("note", [.token footer]), ("right", [.token left])]

def page : Page where
  importName := "frames"
  url := "http://frames.example/"
  identifiers := .ofList [("frame", "#"), ("left", "\x7b\x7b frame \x7d\x7d>\x7b\x7b right \x7d\x7d"),
    ("note", "\x7b\x7b footer \x7d\x7d"), ("right", "\x7b\x7b left \x7d\x7d")]

end FrameExample

open FrameExample in
/-- The parent before the blamed one has been put in. -/
theorem Page.frames_expand_blames_first :
    page.identifiers = source.texts ∧ ¬ source.Resolvable "note" ∧
      page.expand = .error (.ofFault (.unknownPageElement "frames" "right")) ∧
      ∃ name text, source.FirstUnresolvable source.keys name ∧ source.get? name = some text ∧
        source.FirstUnresolvable text.names "right" := by
  have plain : page.identifiers = source.texts := by decide +kernel
  have broken : ¬ source.Resolvable "note" := by
    refine PlainIdentifiers.not_resolvable_iff.mpr ⟨"footer", .single ⟨[.token footer], by rfl, ?_⟩, .inl ?_⟩
    · exact List.mem_singleton.mpr rfl
    · decide +kernel
  have blames : page.expand = .error (.ofFault (.unknownPageElement "frames" "right")) := by decide +kernel
  obtain ⟨name, text, parent, firstName, declared, firstParent, fails, _⟩ :=
    Page.expand_blames_first plain ⟨"note", by decide +kernel, broken⟩
  cases blames.symm.trans fails
  exact ⟨plain, broken, blames, name, text, firstName, declared, firstParent⟩

end TestLinker
