import TestLinker.Page.Basic
import TestLinker.Page.Parent

/-! # Expanding the parents of a page

The identifiers of a page are expanded by scans over all of them. A scan reads the texts
as they were before it and puts into each text those of its parents whose own text has
no token. The scans end when no token is left or when a scan has changed nothing, so the
order of declaration does not matter. Tokens that are left then name a parent that the
page lacks, or one on a cycle, or one that depends on such a parent.

A page whose names and pieces of text are free of braces needs at most as many scans as
it has identifiers. Other pages can need more: a scan may put a token together that was
not there before. On some pages the scans never end, because each of them leaves a token
and changes a text. Such a page has an outcome of its own, `Fault.endlessScans`.
-/

namespace TestLinker

namespace Identifiers

def isExpanded (identifiers : Identifiers) : Bool :=
  identifiers.values.all Parent.isExpanded

/-- Puts the text of the parent called `name` into `text`, if the parent is declared and
its own text has no token. -/
def substituteParent (identifiers : Identifiers) (text name : String) : String :=
  match identifiers.get? name with
  | some value => if Parent.isExpanded value then Parent.substitute name value text else text
  | none => text

def substituteParents (identifiers : Identifiers) (text : String) : String :=
  (Parent.names text).foldl identifiers.substituteParent text

def scan (identifiers : Identifiers) : Identifiers :=
  identifiers.map fun _ text => identifiers.substituteParents text

theorem keys_scan (identifiers : Identifiers) : identifiers.scan.keys = identifiers.keys :=
  OrderedMap.keys_map _ identifiers

theorem get?_scan (identifiers : Identifiers) (name : String) :
    identifiers.scan.get? name = (identifiers.get? name).map identifiers.substituteParents :=
  OrderedMap.get?_map _ identifiers name

end Identifiers

/-- The identifiers after a number of scans, and whether the scans ended by themselves and
not at a bound. -/
structure Scans where
  identifiers : Identifiers
  count : Nat
  complete : Bool
deriving DecidableEq

def Identifiers.scansWithin (identifiers : Identifiers) : Nat → Scans
  | 0 => ⟨identifiers, 0, false⟩
  | bound + 1 =>
    let scanned := identifiers.scan
    -- the texts after this scan count, also if it has changed nothing
    if scanned.isExpanded ∨ scanned = identifiers then ⟨scanned, 1, true⟩
    else
      let further := scanned.scansWithin bound
      { further with count := further.count + 1 }

def Identifiers.scans (identifiers : Identifiers) : Scans :=
  identifiers.scansWithin identifiers.size

/-- Scans until no token is left or nothing changes, without a bound; `none` if the scans
never end. -/
def Identifiers.scanOn (identifiers : Identifiers) : Option Identifiers :=
  let scanned := identifiers.scan
  if scanned.isExpanded ∨ scanned = identifiers then some scanned
  else by
    -- a call by `apply` leaves no mark of its position in the term
    apply scanOn
    exact scanned
partial_fixpoint

/-- The identifiers after the last scan; `none` if there is no last scan. The scans within
the usual number come first, because their recursion is one that proofs can evaluate. This
makes no difference to the result (`Identifiers.expansion?_eq_scanOn`). -/
def Identifiers.expansion? (identifiers : Identifiers) : Option Identifiers :=
  let scans := identifiers.scans
  if scans.complete then some scans.identifiers else scans.identifiers.scanOn

def Identifiers.firstParent? (identifiers : Identifiers) : Option String :=
  identifiers.values.findSome? Parent.firstName?

namespace Page

/-- Expands the parents of all identifiers of a page; `none` means that no identifier has
a token. The scans end where no token is left or where a scan changes nothing, however many
they are. If a token is left then, the fault names the page and the first parent that is
left. A page whose scans never end has no answer and blames no parent: `endlessScans` is its
outcome. So an answer implies that the scans have ended (`Page.ends_of_expand_eq_ok`). -/
def expand (page : Page) : Except LinkError (Option Page) :=
  if page.identifiers.isExpanded then .ok none
  else
    match page.identifiers.expansion? with
    | none => .error (.ofFault (.endlessScans page.importName))
    | some expanded =>
      match expanded.firstParent? with
      | some parent => .error (.ofFault (.unknownPageElement page.importName parent))
      | none => .ok (some { page with identifiers := expanded })

end Page

end TestLinker
