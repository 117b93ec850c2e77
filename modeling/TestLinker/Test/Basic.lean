import TestLinker.Step.Basic

/-! # Tests

A test opens a start URL in some browsers and goes through its steps in order.
-/

namespace TestLinker

structure Configuration where
  browsers : List String
  /-- The start URL, or a reference to the page it belongs to. -/
  url : String
deriving DecidableEq

structure Test where
  name : String
  configuration : Configuration
  steps : OrderedMap String Step
deriving DecidableEq

def Test.empty : Test := ⟨"", ⟨[], ""⟩, .empty⟩

instance : Inhabited Test := ⟨.empty⟩

end TestLinker
