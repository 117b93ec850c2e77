import TestLinker.Text.Replace

/-! # Parent tokens

An identifier of a page may be written in terms of its siblings: the token made of two
opening braces, a space, a name, a space and two closing braces stands for the text of
the sibling of that name, its *parent*. A name is not empty and holds neither `}` nor
`$`; it may hold spaces and even opening braces, so that tokens can start inside a name.

* `names` lists the name of every token of a text, by the position at which it starts.
* `token` writes the token of a name, and `substitute` puts a text in place of it.
-/

namespace TestLinker.Parent

def isNameChar (c : Char) : Bool := c != '}' && c != '$'

def tokenChars (name : List Char) : List Char :=
  ['{', '{', ' '] ++ name ++ [' ', '}', '}']

/-- The name of a token whose opening has been read. The characters that a name may
hold must end in a space and be followed by two closing braces. -/
def nameAfterOpening? (text : List Char) : Option (List Char) :=
  match (text.takeWhile isNameChar).reverse, text.dropWhile isNameChar with
  | ' ' :: c :: reversed, '}' :: '}' :: _ => some (c :: reversed).reverse
  | _, _ => none

def nameAtStart? : List Char → Option (List Char)
  | '{' :: '{' :: ' ' :: rest => nameAfterOpening? rest
  | _ => none

def namesOf : List Char → List (List Char)
  | [] => []
  | c :: rest =>
    match nameAtStart? (c :: rest) with
    | some name => name :: namesOf rest
    | none => namesOf rest

def token (name : String) : String := String.ofList (tokenChars name.toList)

def names (text : String) : List String := (namesOf text.toList).map String.ofList

def firstName? (text : String) : Option String := (names text).head?

/-- Whether a text refers to no parent. -/
def isExpanded (text : String) : Bool := (names text).isEmpty

def substitute (name value text : String) : String :=
  String.ofList (Text.replaceAll (tokenChars name.toList) value.toList text.toList)

end TestLinker.Parent
