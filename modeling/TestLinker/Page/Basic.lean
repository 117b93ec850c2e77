import TestLinker.Catalog

/-! # Pages

A page of the application under test: its address and the identifiers of its elements.
-/

namespace TestLinker

structure Page where
  /-- The name by which the page calls itself in messages. -/
  importName : String
  url : String
  identifiers : Identifiers
deriving DecidableEq

abbrev Pages := Catalog Page

def Pages.find (pages : Pages) (name : String) : Except UnknownItem Page :=
  Catalog.find .page pages name

end TestLinker
