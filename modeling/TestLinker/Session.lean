import TestLinker.Test.Linking

/-! # Sessions

A session is a workspace that grows while tests are linked against it. It remembers the
last test, so that the test can be linked again after the workspace has changed, and so
that a step of a linked test can be stored as a reusable step.
-/

namespace TestLinker

structure Session where
  workspace : Workspace
  /-- The outcome of the last linking, or the test itself if that failed. -/
  lastTest : Option Test
deriving DecidableEq

namespace Session

def empty : Session := ⟨.empty, none⟩

instance : Inhabited Session := ⟨empty⟩

def putPage (session : Session) (name : String) (page : Page) : Session :=
  { session with workspace.pages := session.workspace.pages.insert name page }

def putStep (session : Session) (name : String) (step : Step) : Session :=
  { session with workspace.steps := session.workspace.steps.insert name step }

def putDataSet (session : Session) (name : String) (collection : DataCollection) : Session :=
  { session with workspace.dataSets := session.workspace.dataSets.insert name collection }

/-- Links a test. The outcome becomes the last test; after a failure it is the test that
was tried. -/
def link (session : Session) (linker : StatementLinker) (test : Test) :
    Except LinkError Test × Session :=
  let outcome := test.link linker session.workspace
  (outcome, { session with lastTest := some (outcome.toOption.getD test) })

/-- The test that is linked again: the last one, or the empty test if there was none. -/
def current (session : Session) : Test := session.lastTest.getD .empty

/-- Stores a step of the last test as a reusable step; `none` if there is no such step. -/
def promoteStep? (session : Session) (stepName name : String) : Option Session := do
  let test ← session.lastTest
  let step ← test.steps.get? stepName
  return session.putStep name step

/-! ## Operations -/

inductive Operation where
  | putPage (name : String) (page : Page)
  | putStep (name : String) (step : Step)
  | putDataSet (name : String) (collection : DataCollection)
  | link (linker : StatementLinker) (test : Test)
  | linkAgain (linker : StatementLinker)
  | promoteStep (stepName name : String)

/-- The session after an operation. A step that the last test does not have is not stored. -/
def perform (session : Session) : Operation → Session
  | .putPage name page => session.putPage name page
  | .putStep name step => session.putStep name step
  | .putDataSet name collection => session.putDataSet name collection
  | .link linker test => (session.link linker test).2
  | .linkAgain linker => (session.link linker session.current).2
  | .promoteStep stepName name => (session.promoteStep? stepName name).getD session

def run (session : Session) (operations : List Operation) : Session := operations.foldl perform session

end Session

end TestLinker
