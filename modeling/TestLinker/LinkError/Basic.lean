import TestLinker.LinkError.Location
import TestLinker.Text.Quoted

/-! # What can go wrong while linking

A `Fault` says what is wrong, a `LinkError` adds where. The fault and its message
never change once it is raised; only the location grows on the way out.
-/

namespace TestLinker

inductive ItemKind where
  | page
  | step
  | dataSet
  | identifier
deriving DecidableEq, Repr

def ItemKind.label : ItemKind → String
  | .page => "page"
  | .step => "step"
  | .dataSet => "data set"
  | .identifier => "identifier"

structure UnknownItem where
  kind : ItemKind
  name : String
deriving DecidableEq, Repr

def UnknownItem.message (item : UnknownItem) : String :=
  "Unknown " ++ item.kind.label ++ " " ++ Text.quoted item.name

/-- The reasons for which a test cannot be linked, and one for which linking does not end. -/
inductive Fault where
  | unknownElement (element : String)
  /-- A reference names an element that the page does not declare, or an identifier of
  the page has a parent that cannot be expanded. -/
  | unknownPageElement (page element : String)
  | unknownItem (item : UnknownItem)
  | circularStepImport (name : String)
  /-- The scans of a page never end. This stands for an outcome that is never reached: no
  error is reported, because the run goes on scanning the page. -/
  | endlessScans (page : String)
deriving DecidableEq, Repr

def Fault.message : Fault → String
  | .unknownElement element => "Unknown element " ++ Text.quoted element
  | .unknownPageElement page element =>
    "Unknown page element " ++ Text.quoted element ++ " in page " ++ Text.quoted page
  | .unknownItem item => item.message
  | .circularStepImport name => "Circular step import " ++ Text.quoted name
  | .endlessScans page => "Endless scans of page " ++ Text.quoted page

structure LinkError where
  fault : Fault
  location : Location
deriving DecidableEq

namespace LinkError

/-- The error of a fault about which no layer has said anything yet. -/
def ofFault (fault : Fault) : LinkError := ⟨fault, .empty⟩

def ofUnknownItem (item : UnknownItem) : LinkError := ofFault (.unknownItem item)

/-- Adds a scope to the location unless it is known. -/
def attach (scope : Scope) (text : String) (error : LinkError) : LinkError :=
  { error with location := error.location.attach scope text }

def message (error : LinkError) : String := error.fault.message

/-- The message with the location in front, outermost scope first. -/
def report (error : LinkError) : String := error.location.report error.message

@[simp] theorem fault_attach (scope : Scope) (text : String) (error : LinkError) :
    (error.attach scope text).fault = error.fault := rfl

@[simp] theorem location_attach (scope : Scope) (text : String) (error : LinkError) :
    (error.attach scope text).location = error.location.attach scope text := rfl

end LinkError

end TestLinker
