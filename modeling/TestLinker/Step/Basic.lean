import TestLinker.DataSet
import TestLinker.Statement.Basic

/-! # Steps

A step is a list of actions followed by a list of assertions. It may inherit the
statements of a reusable step, its *step import*, and it may be run with a stored data
collection, its *data import*. A step that still names one of the two is *pending*: its
references are not linked before its imports are expanded.
-/

namespace TestLinker

structure Step where
  actions : List Statement
  assertions : List Statement
  /-- The reusable step whose statements come before the step's own. -/
  importName : Option String
  dataImportName : Option String
  identifiers : Identifiers
  /-- The data that the step is run with, once it is known. -/
  data : Option DataCollection
deriving DecidableEq

abbrev Steps := Catalog Step

def Steps.find (steps : Steps) (name : String) : Except UnknownItem Step :=
  Catalog.find .step steps name

namespace Step

def empty : Step := ⟨[], [], none, none, .empty, none⟩

instance : Inhabited Step := ⟨empty⟩

def isPending (step : Step) : Bool := step.importName.isSome || step.dataImportName.isSome

def prependActions (step : Step) (actions : List Statement) : Step :=
  { step with actions := actions ++ step.actions }

def prependAssertions (step : Step) (assertions : List Statement) : Step :=
  { step with assertions := assertions ++ step.assertions }

end Step

end TestLinker
