import TestLinker.Page.Expansion
import TestLinker.Reference

/-! # Linking a component

A component of a statement is linked by replacing the reference that it is by what the
reference names. References to elements are looked up among the identifiers of the step
or on a page whose parents have been expanded; references to the address of a page give
the address. An attribute is kept: it is appended to the text that was found.

`linkElement`, `linkPageElement` and `linkPageUrl` answer `none` for a value that is not
a reference of their kind. A *component linker* answers `none` for a component that it
leaves as it is; `elementComponent` and `urlComponent` are the two that tests are linked
with.
-/

namespace TestLinker

def withAttribute (text : String) : Option String → String
  | none => text
  | some attr => text ++ "." ++ attr

def Identifiers.elementText (identifiers : Identifiers) (name : String) (attr : Option String) :
    Except LinkError String :=
  match identifiers.find name with
  | .ok text => .ok (withAttribute text attr)
  | .error _ => .error (.ofFault (.unknownElement name))

def Pages.expanded (pages : Pages) (name : String) : Except LinkError Page := do
  let page ← (pages.find name).mapError .ofUnknownItem
  return (← page.expand).getD page

/-- The text of an element of an imported page. A fault about the element names the page
as the reference does. -/
def Pages.elementText (pages : Pages) (page name : String) (attr : Option String) :
    Except LinkError String := do
  let expanded ← pages.expanded page
  match expanded.identifiers.get? name with
  | some text => return withAttribute text attr
  | none => throw (.ofFault (.unknownPageElement page name))

def Pages.url (pages : Pages) (name : String) : Except LinkError String := do
  let page ← (pages.find name).mapError .ofUnknownItem
  return page.url

def linkPageElement (value : String) (pages : Pages) : Except LinkError (Option String) :=
  match Reference.ofString? value with
  | some (.pageElement page name attr) => some <$> pages.elementText page name attr
  | _ => .ok none

def linkElement (value : String) (pages : Pages) (identifiers : Identifiers) :
    Except LinkError (Option String) :=
  match Reference.ofString? value with
  | some (.element name attr) => some <$> identifiers.elementText name attr
  | some (.pageElement page name attr) => some <$> pages.elementText page name attr
  | _ => .ok none

def linkPageUrl (value : String) (pages : Pages) : Except LinkError (Option String) :=
  match Reference.ofString? value with
  | some (.pageUrl page) => some <$> pages.url page
  | _ => .ok none

/-! ## Component linkers -/

/-- Links a component of a statement; `none` leaves the component as it is. -/
abbrev ComponentLinker := String → Pages → Identifiers → Except LinkError (Option String)

/-- The linked text, unless it is the component itself. -/
def changedFrom (component : String) (text : Option String) : Option String :=
  text.filter (· != component)

def elementComponent : ComponentLinker := fun component pages identifiers =>
  changedFrom component <$> linkElement component pages identifiers

/-- Links references to the address of a page, which becomes a text in double quotes. The
properties of the page under test are left as they are. -/
def urlComponent : ComponentLinker := fun component pages _ =>
  if isPageProperty component then .ok none
  else (Option.map Text.quoted ∘ changedFrom component) <$> linkPageUrl component pages

end TestLinker
