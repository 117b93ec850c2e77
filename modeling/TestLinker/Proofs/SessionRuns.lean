import TestLinker.Proofs.Enlargement
import TestLinker.Session

/-! # Runs of a session

An operation on a session stores an item or links a test. Linking leaves the workspace alone,
and storing appends a name or replaces the item of a known one, so that no name is lost and
all names keep their order (`grows_run`). As long as no item is replaced, a later workspace
has all items of an earlier one (`within_run`), and a test that missed no item then is linked
to the same result now (`link_survives_run`).

The last test is the outcome of the last linking, whatever has been stored since. A test that
could not be linked is remembered as it was written, so linking it again is another attempt
against the workspace that is there by now (`current_run`).
-/

namespace TestLinker

/-! ## Workspaces that grow -/

/-- The larger workspace has the names of the smaller one, in the same order, before any other. -/
structure Workspace.Grows (workspace larger : Workspace) : Prop where
  pages : workspace.pages.keys <+: larger.pages.keys
  steps : workspace.steps.keys <+: larger.steps.keys
  dataSets : workspace.dataSets.keys <+: larger.dataSets.keys

namespace Workspace

variable {workspace larger largest : Workspace}

theorem Grows.refl (workspace : Workspace) : workspace.Grows workspace :=
  ⟨List.prefix_rfl, List.prefix_rfl, List.prefix_rfl⟩

theorem Grows.trans (first : workspace.Grows larger) (second : larger.Grows largest) : workspace.Grows largest :=
  ⟨first.pages.trans second.pages, first.steps.trans second.steps, first.dataSets.trans second.dataSets⟩

theorem Within.refl (workspace : Workspace) : workspace.Within workspace :=
  ⟨fun _ _ => id, fun _ _ => id, fun _ _ => id⟩

theorem Within.trans (first : workspace.Within larger) (second : larger.Within largest) : workspace.Within largest where
  pages name item stored := second.pages name item (first.pages name item stored)
  steps name item stored := second.steps name item (first.steps name item stored)
  dataSets name item stored := second.dataSets name item (first.dataSets name item stored)

end Workspace

theorem Catalog.within_insert {α : Type} {items : Catalog α} {name : String} (fresh : name ∉ items.keys) (item : α) :
    items.Within (items.insert name item) := by
  intro other stored found
  have different : name ≠ other := by
    rintro rfl
    exact fresh (OrderedMap.mem_keys_iff.mpr ⟨stored, found⟩)
  rw [OrderedMap.get?_insert, if_neg different, found]

namespace Session

variable {session : Session}

/-! ## One operation -/

theorem perform_promoteStep (session : Session) (stepName name : String) :
    session.perform (.promoteStep stepName name) = session ∨
      ∃ step, session.perform (.promoteStep stepName name) = session.putStep name step := by
  rw [perform]
  cases promoted : session.promoteStep? stepName name with
  | none => exact .inl rfl
  | some result =>
    obtain ⟨_, _, continues⟩ := Option.bind_eq_some_iff.mp promoted
    obtain ⟨step, _, stores⟩ := Option.bind_eq_some_iff.mp continues
    cases stores
    exact .inr ⟨step, rfl⟩

theorem grows_perform (session : Session) (operation : Operation) :
    session.workspace.Grows (session.perform operation).workspace := by
  have stepStored (name : String) (step : Step) : session.workspace.Grows (session.putStep name step).workspace :=
    ⟨List.prefix_rfl, OrderedMap.keys_prefix_insert _ _ _, List.prefix_rfl⟩
  cases operation with
  | putPage name page => exact ⟨OrderedMap.keys_prefix_insert _ _ _, List.prefix_rfl, List.prefix_rfl⟩
  | putStep name step => exact stepStored name step
  | putDataSet name collection => exact ⟨List.prefix_rfl, List.prefix_rfl, OrderedMap.keys_prefix_insert _ _ _⟩
  | link linker test => exact .refl _
  | linkAgain linker => exact .refl _
  | promoteStep stepName name =>
    -- nothing is stored, or a step is stored as by `putStep`
    rcases session.perform_promoteStep stepName name with same | ⟨step, stores⟩
    · rw [same]
      exact .refl _
    · rw [stores]
      exact stepStored name step

/-- The operation replaces no item. -/
def Keeps (session : Session) : Operation → Prop
  | .putPage name _ => name ∉ session.workspace.pages.keys
  | .putStep name _ => name ∉ session.workspace.steps.keys
  | .putDataSet name _ => name ∉ session.workspace.dataSets.keys
  | .link _ _ => True
  | .linkAgain _ => True
  | .promoteStep _ name => name ∉ session.workspace.steps.keys

theorem within_perform {operation : Operation} (keeps : session.Keeps operation) :
    session.workspace.Within (session.perform operation).workspace := by
  have unchanged := Workspace.Within.refl session.workspace
  have stepStored {name : String} (fresh : name ∉ session.workspace.steps.keys) (step : Step) :
      session.workspace.Within (session.putStep name step).workspace :=
    { unchanged with steps := Catalog.within_insert fresh step }
  cases operation with
  | putPage name page => exact { unchanged with pages := Catalog.within_insert keeps page }
  | putStep name step => exact stepStored keeps step
  | putDataSet name collection => exact { unchanged with dataSets := Catalog.within_insert keeps collection }
  | link linker test => exact unchanged
  | linkAgain linker => exact unchanged
  | promoteStep stepName name =>
    rcases session.perform_promoteStep stepName name with same | ⟨step, stores⟩
    · rwa [same]
    · rw [stores]
      exact stepStored keeps step

def Operation.links : Operation → Bool
  | .link _ _ | .linkAgain _ => true
  | .putPage _ _ | .putStep _ _ | .putDataSet _ _ | .promoteStep _ _ => false

theorem lastTest_perform {operation : Operation} (stores : operation.links = false) :
    (session.perform operation).lastTest = session.lastTest := by
  cases operation with
  | putPage name page => rfl
  | putStep name step => rfl
  | putDataSet name collection => rfl
  | link linker test => cases stores
  | linkAgain linker => cases stores
  | promoteStep stepName name =>
    rcases session.perform_promoteStep stepName name with same | ⟨step, promotes⟩
    · rw [same]
    · rw [promotes]
      rfl

/-! ## Runs of operations -/

theorem grows_run (session : Session) (operations : List Operation) :
    session.workspace.Grows (session.run operations).workspace := by
  induction operations generalizing session with
  | nil => exact .refl _
  | cons operation rest inductionHypothesis =>
    exact (session.grows_perform operation).trans (inductionHypothesis (session.perform operation))

/-- No operation of the run replaces an item that is stored when its turn comes. -/
inductive KeepsAll : Session → List Operation → Prop where
  | nil {session : Session} : KeepsAll session []
  | cons {session : Session} {operation : Operation} {rest : List Operation} (first : session.Keeps operation)
      (others : KeepsAll (session.perform operation) rest) : KeepsAll session (operation :: rest)

theorem within_run {operations : List Operation} (keeps : session.KeepsAll operations) :
    session.workspace.Within (session.run operations).workspace := by
  induction keeps with
  | nil => exact .refl _
  | cons first _ inductionHypothesis => exact (within_perform first).trans inductionHypothesis

/-- An outcome that no missing item is to blame for is the same at any later time, as long as
nothing is replaced. -/
theorem link_survives_run {operations : List Operation} (keeps : session.KeepsAll operations) (test : Test) :
    Survives (session.link .standard test).1 ((session.run operations).link .standard test).1 :=
  Survives.linkTest (within_run keeps) test

theorem lastTest_run {operations : List Operation} (store : ∀ operation ∈ operations, operation.links = false) :
    (session.run operations).lastTest = session.lastTest := by
  induction operations generalizing session with
  | nil => rfl
  | cons operation rest inductionHypothesis =>
    obtain ⟨first, others⟩ := List.forall_mem_cons.mp store
    exact (inductionHypothesis others).trans (lastTest_perform first)

/-- What is linked again is the outcome of the last linking or, if that failed, the test that
was tried. -/
theorem current_run {operations : List Operation} (store : ∀ operation ∈ operations, operation.links = false)
    (linker : StatementLinker) (test : Test) :
    ((session.perform (.link linker test)).run operations).current =
      (test.link linker session.workspace).toOption.getD test := by
  rw [current, lastTest_run store]
  rfl

end Session

end TestLinker
