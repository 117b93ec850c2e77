import TestLinker.Page.Basic
import TestLinker.Step.Basic

/-! # Workspaces

What the tests of an application share: its pages, reusable steps and data collections.
-/

namespace TestLinker

structure Workspace where
  pages : Pages
  steps : Steps
  dataSets : DataSets
deriving DecidableEq

def Workspace.empty : Workspace := ⟨.empty, .empty, .empty⟩

instance : Inhabited Workspace := ⟨.empty⟩

end TestLinker
