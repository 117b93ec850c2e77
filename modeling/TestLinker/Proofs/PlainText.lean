import Mathlib.Data.List.Basic
import TestLinker.Proofs.Tokens

/-! # Plain texts

A plain text is a list of pieces: characters that are no braces, and tokens whose names
hold neither braces nor dollar signs. `Parent` works on the characters of a text. On those
of a plain text it finds the tokens of the pieces and nothing else (`names_text`), and to
replace a token in the characters is to substitute it in the pieces (`substitute_text`).
-/

namespace TestLinker

/-- The name in a token of a plain text. -/
structure PlainName where
  text : String
  nonempty : text ≠ ""
  plain : ∀ c ∈ text.toList, c ≠ '{' ∧ c ≠ '}' ∧ c ≠ '$'

theorem PlainName.isName (name : PlainName) : Parent.IsName name.text.toList where
  nonempty := by simp [name.nonempty]
  chars := by
    intro c member
    obtain ⟨_, noClosing, noDollar⟩ := name.plain c member
    simp [Parent.isNameChar, noClosing, noDollar]

theorem PlainName.inert_tokenTail (name : PlainName) : Parent.Inert (Parent.tokenTail name.text.toList) :=
  Parent.inert_tokenTail_of_not_mem fun member => (name.plain '{' member).1 rfl

inductive Piece where
  | char (c : Char) (plain : c ≠ '{' ∧ c ≠ '}')
  | token (name : PlainName)

/-- A text without braces other than those of its tokens. -/
abbrev PlainText := List Piece

namespace Piece

def chars : Piece → List Char
  | char c _ => [c]
  | token name => Parent.tokenChars name.text.toList

def names : Piece → List String
  | char _ _ => []
  | token name => [name.text]

/-- A token becomes the text that its name has, if it has one. -/
def substitute (values : String → Option PlainText) : Piece → PlainText
  | char c plain => [char c plain]
  | token name => (values name.text).getD [token name]

def evaluate (values : String → String) : Piece → List Char
  | char c _ => [c]
  | token name => (values name.text).toList

end Piece

namespace PlainText

def chars (text : PlainText) : List Char := text.flatMap Piece.chars

/-- The text as it is written on a page. -/
def text (text : PlainText) : String := String.ofList text.chars

/-- The names of the tokens, in order and with repetitions. -/
def names (text : PlainText) : List String := text.flatMap Piece.names

/-- The text with those tokens replaced whose names have a value. -/
def substitute (values : String → Option PlainText) (text : PlainText) : PlainText :=
  text.flatMap (Piece.substitute values)

/-- The text with every token replaced by the value of its name. -/
def evaluate (values : String → String) (text : PlainText) : String :=
  String.ofList (text.flatMap (Piece.evaluate values))

/-! ## Substitution -/

theorem name_mem {name : PlainName} {text : PlainText} (member : .token name ∈ text) :
    name.text ∈ text.names :=
  List.mem_flatMap.mpr ⟨.token name, member, List.mem_singleton.mpr rfl⟩

theorem substitute_congr {first second : String → Option PlainText} {text : PlainText}
    (agree : ∀ name ∈ text.names, first name = second name) :
    text.substitute first = text.substitute second := by
  apply List.flatMap_congr
  intro piece member
  cases piece with
  | char c plain => rfl
  | token name => rw [Piece.substitute, Piece.substitute, agree name.text (name_mem member)]

theorem substitute_eq_self {values : String → Option PlainText} {text : PlainText}
    (unknown : ∀ name ∈ text.names, values name = none) : text.substitute values = text := by
  have kept : ∀ piece ∈ text, piece.substitute values = [piece] := by
    intro piece member
    cases piece with
    | char c plain => rfl
    | token name => rw [Piece.substitute, unknown name.text (name_mem member), Option.getD_none]
  rw [substitute, List.flatMap_congr kept, List.flatMap_singleton']

/-- Values without tokens are not changed by a second substitution. -/
theorem substitute_substitute {first second : String → Option PlainText} (text : PlainText)
    (closed : ∀ name value, first name = some value → value.names = []) :
    (text.substitute first).substitute second = text.substitute fun name => (first name).or (second name) := by
  rw [substitute, substitute, List.flatMap_assoc]
  apply List.flatMap_congr
  intro piece member
  cases piece with
  | char c plain => rfl
  | token name =>
    simp only [Piece.substitute]
    cases known : first name.text with
    | none => exact List.flatMap_singleton ..
    | some value =>
      -- the value has no token that the second substitution could replace
      have noToken := closed name.text value known
      exact substitute_eq_self (by simp [noToken])

/-- The tokens that are left are those without a value. -/
theorem names_substitute {values : String → Option PlainText} (text : PlainText)
    (closed : ∀ name value, values name = some value → value.names = []) :
    (text.substitute values).names = text.names.filter fun name => (values name).isNone := by
  rw [names, substitute, names, List.flatMap_assoc, List.filter_flatMap]
  apply List.flatMap_congr
  intro piece member
  cases piece with
  | char c plain => rfl
  | token name =>
    simp only [Piece.substitute, Piece.names]
    cases known : values name.text with
    | none => simp [known, Piece.names]
    | some value =>
      have noToken : value.flatMap Piece.names = [] := closed name.text value known
      rw [Option.getD_some, noToken]
      simp [known]

theorem evaluate_substitute {values : String → Option PlainText} {assigned : String → String}
    (text : PlainText) (agree : ∀ name value, values name = some value → value.evaluate assigned = assigned name) :
    (text.substitute values).evaluate assigned = text.evaluate assigned := by
  rw [evaluate, substitute, evaluate, List.flatMap_assoc]
  congr 1
  apply List.flatMap_congr
  intro piece member
  cases piece with
  | char c plain => rfl
  | token name =>
    simp only [Piece.substitute, Piece.evaluate]
    cases known : values name.text with
    | none => exact List.flatMap_singleton ..
    | some value =>
      have same := agree name.text value known
      rw [Option.getD_some, ← same, evaluate, String.toList_ofList]

theorem evaluate_eq_text {assigned : String → String} {text : PlainText} (closed : text.names = []) :
    text.evaluate assigned = text.text := by
  rw [evaluate, PlainText.text, chars]
  congr 1
  apply List.flatMap_congr
  intro piece member
  cases piece with
  | char c plain => rfl
  | token name =>
    have found := name_mem member
    rw [closed] at found
    cases found

/-! ## The characters of a plain text -/

theorem inert_of_plain {c : Char} (plain : c ≠ '{' ∧ c ≠ '}') : Parent.Inert [c] :=
  .of_not_mem (by simp [Ne.symm plain.1])

theorem namesOf_chars (text : PlainText) : Parent.namesOf text.chars = text.names.map String.toList := by
  induction text with
  | nil => rfl
  | cons piece rest inductionHypothesis =>
    cases piece with
    | char c plain =>
      exact ((inert_of_plain plain).namesOf_append (chars rest)).trans inductionHypothesis
    | token name =>
      exact (name.isName.namesOf_token name.inert_tokenTail (chars rest)).trans (congrArg _ inductionHypothesis)

/-- Reading a plain text finds the names of its tokens. -/
theorem names_text (text : PlainText) : Parent.names text.text = text.names := by
  rw [Parent.names, PlainText.text, String.toList_ofList, namesOf_chars, List.map_map]
  simp [Function.comp_def]

def only (wanted : String) (value : PlainText) (name : String) : Option PlainText :=
  if name = wanted then some value else none

theorem replaceAll_chars {wanted : String} (isName : Parent.IsName wanted.toList) (value text : PlainText) :
    Text.replaceAll (Parent.tokenChars wanted.toList) value.chars text.chars =
      (text.substitute (only wanted value)).chars := by
  induction text with
  | nil => rfl
  | cons piece rest inductionHypothesis =>
    cases piece with
    | char c plain =>
      exact ((inert_of_plain plain).replaceAll_append isName _ (chars rest)).trans (congrArg _ inductionHypothesis)
    | token name =>
      refine (isName.replaceAll_token value.chars name.isName name.inert_tokenTail (chars rest)).trans ?_
      rw [inductionHypothesis]
      change _ = ((Piece.token name).substitute (only wanted value) ++ substitute _ rest).flatMap Piece.chars
      rw [List.flatMap_append]
      congr 1
      by_cases same : name.text = wanted
      · simp [Piece.substitute, only, same, chars]
      · have differ : name.text.toList ≠ wanted.toList := fun equal => same (String.toList_inj.mp equal)
        simp [Piece.substitute, only, same, differ, Piece.chars]

theorem substitute_text {wanted : String} (isName : Parent.IsName wanted.toList) (value text : PlainText) :
    Parent.substitute wanted value.text text.text = (text.substitute (only wanted value)).text := by
  rw [Parent.substitute, PlainText.text, PlainText.text, PlainText.text, String.toList_ofList, String.toList_ofList,
    replaceAll_chars isName]

end PlainText

end TestLinker
