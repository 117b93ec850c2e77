/-! # References inside string values

A string value of a test is a reference if it has one of five forms, and a literal
otherwise:

* `$elements.<name>` and `$elements.<name>.<attribute>` name an identifier of the step,
* `$<page>.elements.<name>` and `$<page>.elements.<name>.<attribute>` name an identifier
  of an imported page,
* `$<page>.url` names the address of an imported page.

Every part is a *segment*: one or more ASCII letters, digits, `_` or `-`. The forms of
the step are read before the forms of a page, so `$elements.elements.x` asks for the
attribute `x` of `elements`, and `$elements.url` for the element `url`.

`Reference.ofString?` reads a value and `Reference.render` writes a reference.
-/

namespace TestLinker

def isSegmentChar (c : Char) : Bool := c.isAlphanum || c == '_' || c == '-'

def isSegment (text : List Char) : Bool := !text.isEmpty && text.all isSegmentChar

/-- What a string value of a test refers to. The last part of a reference to an element
asks for an attribute of it. -/
inductive Reference where
  | element (name : String) (attr : Option String)
  | pageElement (page name : String) (attr : Option String)
  | pageUrl (page : String)
deriving DecidableEq, Repr

namespace Reference

def segments : Reference → List String
  | element name attr => "elements" :: name :: attr.toList
  | pageElement page name attr => page :: "elements" :: name :: attr.toList
  | pageUrl page => [page, "url"]

def render (reference : Reference) : String := "$" ++ ".".intercalate reference.segments

def ofSegments? : List String → Option Reference
  | ["elements", name] => some (element name none)
  | ["elements", name, attr] => some (element name (some attr))
  | [page, "elements", name] => some (pageElement page name none)
  | [page, "elements", name, attr] => some (pageElement page name (some attr))
  | [page, "url"] => some (pageUrl page)
  | _ => none

/-- Reads a value as a reference; `none` means that the value is a literal. -/
def ofString? (value : String) : Option Reference :=
  match value.toList with
  | '$' :: body =>
    let parts := body.splitOn '.'
    if parts.all isSegment then ofSegments? (parts.map String.ofList) else none
  | _ => none

def isLiteral (value : String) : Bool := (ofString? value).isNone

end Reference

/-- Whether a value names a property of the page under test. Such a value is never
taken for the address of an imported page. -/
def isPageProperty (value : String) : Bool := value == "$page.url" || value == "$page.title"

/-- The page whose address a start URL stands for. A start URL may be written without
the dollar sign: `<page>.url` and `$<page>.url` both name the page. -/
def startPage? (url : String) : Option String :=
  let body := match url.toList with
    | '$' :: rest => rest
    | chars => chars
  let page := body.takeWhile (· != '.')
  if body.dropWhile (· != '.') = ['.', 'u', 'r', 'l'] ∧ isSegment page then
    some (String.ofList page)
  else none

end TestLinker
