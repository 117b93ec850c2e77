import TestLinker.Pass
import TestLinker.Statement.Linking
import TestLinker.Step.Basic

/-! # Linking a step

The identifiers that a step declares may refer to pages, so they are linked first, and
against pages only. The actions and then the assertions are linked against the pages and
the linked identifiers. The first error ends the pass; one that a statement raises tells
the source text of the statement.
-/

namespace TestLinker

/-- Links the texts of declared identifiers, which may refer to pages and not to one
another. -/
def Identifiers.link (identifiers : Identifiers) (pages : Pages) :
    Except LinkError (Option Identifiers) :=
  Pass.eachValue (fun text => linkElement text pages .empty) identifiers

def StatementLinker.linkLocated (linker : StatementLinker) (pages : Pages)
    (identifiers : Identifiers) (statement : Statement) : Except LinkError (Option Statement) :=
  (linker.link statement pages identifiers).mapError (.attach .content statement.source)

def StatementLinker.linkAll (linker : StatementLinker) (pages : Pages)
    (identifiers : Identifiers) (statements : List Statement) :
    Except LinkError (Option (List Statement)) :=
  Pass.each (linker.linkLocated pages identifiers) statements

namespace Step

/-- Links the references of a step. The answer is `none` for a pending step and for one
without anything to link. -/
def link (step : Step) (linker : StatementLinker) (pages : Pages) :
    Except LinkError (Option Step) :=
  if step.isPending then .ok none
  else do
    let identifiers ← step.identifiers.link pages
    -- statements see the linked identifiers, or the written ones if none has changed
    let known := identifiers.getD step.identifiers
    let actions ← linker.linkAll pages known step.actions
    let assertions ← linker.linkAll pages known step.assertions
    if identifiers.isNone && actions.isNone && assertions.isNone then return none
    return some { step with
      identifiers := known
      actions := actions.getD step.actions
      assertions := assertions.getD step.assertions }

end Step

end TestLinker
