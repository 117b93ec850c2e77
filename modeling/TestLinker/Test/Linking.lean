import TestLinker.Step.Import
import TestLinker.Step.Linking
import TestLinker.Test.Basic
import TestLinker.Workspace

/-! # Linking a test

The start URL is linked first. Then each step, in order, has its step import expanded,
its data import attached and its references linked; its identifiers have done their work
after that and are dropped. The first error ends the pass. An error of the configuration
tells the name of the test, and one of a step tells the names of the step and of the
test.
-/

namespace TestLinker

/-- Links the start URL; `none` means that it is no reference. The browsers are kept. -/
def Configuration.link (configuration : Configuration) (pages : Pages) :
    Except LinkError (Option Configuration) :=
  match startPage? configuration.url with
  | none => .ok none
  | some page => do
    let url ← pages.url page
    return some { configuration with url := url }

/-- Expands both imports of a step and links it. Nothing is left of its identifiers. -/
def Step.linkFully (step : Step) (linker : StatementLinker) (workspace : Workspace) :
    Except LinkError Step := do
  let imported := (← step.expandImport workspace.steps).getD step
  let supplied := (← imported.attachData workspace.dataSets).getD imported
  -- both imports are gone, so the step is not pending
  let linked := (← supplied.link linker workspace.pages).getD supplied
  return { linked with identifiers := .empty }

namespace Test

def link (test : Test) (linker : StatementLinker) (workspace : Workspace) :
    Except LinkError Test := do
  let configuration ← (test.configuration.link workspace.pages).mapError (.attach .test test.name)
  let steps ← test.steps.mapM fun name step =>
    (step.linkFully linker workspace).mapError fun error =>
      (error.attach .step name).attach .test test.name
  return { test with
    configuration := configuration.getD test.configuration
    steps := steps }

end Test

end TestLinker
