import TestLinker.Proofs.Attachment
import TestLinker.Proofs.Linkage
import TestLinker.Proofs.Origin

/-! # The first failure of a test

A test is linked item by item: its configuration, and then of each step the import, the
data import, the identifiers and the statements that it has after its import is expanded.
`Test.checks` lists the items in this order, each with its place and with the outcome of
linking it on its own. Linking a test fails as the first of these checks that fails, and
the error is located by the place of that check.
-/

namespace TestLinker

open Outcome (verdict)

/-- What a pass leaves of a value, or the value itself if the pass fails. -/
def Pass.result {α : Type} (pass : Pass α) (value : α) : α := (pass value).toOption.join.getD value

theorem Pass.Leaves.eq_result {α : Type} {pass : Pass α} {value result : α}
    (leaves : pass.Leaves value result) : result = pass.result value := by
  obtain ⟨answer, succeeds, rfl⟩ := leaves
  rw [Pass.result, succeeds]
  rfl

/-- The identifiers with each text linked on its own. -/
def Identifiers.known (identifiers : Identifiers) (pages : Pages) : Identifiers :=
  identifiers.map fun _ => Pass.result fun text => linkElement text pages .empty

def Step.imported (step : Step) (steps : Steps) : Step := Pass.result (expandImport · steps) step

/-- An item of a test: the scopes around it, innermost first, and what comes of linking it
on its own. -/
structure Check where
  place : List (Scope × String)
  outcome : Except LinkError Unit

def LinkError.attachAll (place : List (Scope × String)) (error : LinkError) : LinkError :=
  { error with location := error.location.attachAll place }

def Check.run (check : Check) : Except LinkError Unit := check.outcome.mapError (.attachAll check.place)

/-- The items of a step in the order in which they are linked: the import, the data import,
the identifiers, and the actions and assertions of the step after its import is expanded. -/
def Step.checks (step : Step) (linker : StatementLinker) (workspace : Workspace)
    (place : List (Scope × String)) : List Check :=
  ⟨place, verdict (step.expandImport workspace.steps)⟩ ::
  ⟨place, verdict (step.attachData workspace.dataSets)⟩ ::
  (step.identifiers.values.map (fun text => ⟨place, verdict (linkElement text workspace.pages .empty)⟩) ++
    (step.imported workspace.steps).statements.map fun statement =>
      ⟨(.content, statement.source) :: place,
        verdict (linker.link statement workspace.pages (step.identifiers.known workspace.pages))⟩)

/-- The items of a test in the order in which they are linked. -/
def Test.checks (test : Test) (linker : StatementLinker) (workspace : Workspace) : List Check :=
  ⟨[(.test, test.name)], verdict (test.configuration.link workspace.pages)⟩ ::
    test.steps.entries.flatMap fun entry =>
      entry.2.checks linker workspace [(.step, entry.1), (.test, test.name)]

/-! ## Linking is running the checks -/

theorem Identifiers.known_of_link_eq_ok {identifiers : Identifiers} {pages : Pages}
    {answer : Option Identifiers} (succeeds : identifiers.link pages = .ok answer) :
    answer.getD identifiers = identifiers.known pages := by
  have leaves := Pass.entriesRelated_of_eachValue_eq_ok succeeds
  apply OrderedMap.ext_entries
  rw [known, OrderedMap.map, ← List.forall₂_eq_eq_eq, List.forall₂_map_right_iff]
  exact leaves.flip.imp fun image entry related => Prod.ext related.1 related.2.eq_result

theorem Identifiers.verdict_link (identifiers : Identifiers) (pages : Pages) :
    verdict (identifiers.link pages) =
      forM identifiers.values fun text => verdict (linkElement text pages .empty) :=
  (Outcome.verdict_map _ _).trans (Pass.verdict_each _ _)

theorem Step.verdict_link {step : Step} (ready : step.isPending = false) (linker : StatementLinker)
    (pages : Pages) :
    verdict (step.link linker pages) =
      (forM step.identifiers.values fun text => verdict (linkElement text pages .empty)) >>= fun _ =>
        forM step.statements fun statement =>
          verdict (linker.linkLocated pages (step.identifiers.known pages) statement) := by
  rw [link, if_neg (by simp [ready]), ← Identifiers.verdict_link]
  apply Outcome.verdict_bind
  intro identifiers identifiersLinked
  rw [Identifiers.known_of_link_eq_ok identifiersLinked, statements, List.forM_append]
  rw [← Pass.verdict_each, ← Pass.verdict_each]
  apply Outcome.verdict_bind
  intro actions _
  change verdict (Pass.each _ _ >>= _) = verdict (Pass.each _ _)
  cases Pass.each (linker.linkLocated pages (step.identifiers.known pages)) step.assertions with
  | error error => rfl
  | ok assertions => cases identifiers <;> cases actions <;> cases assertions <;> rfl

theorem Step.imported_of_expandImport_eq_ok {step : Step} {steps : Steps} {answer : Option Step}
    (succeeds : step.expandImport steps = .ok answer) : answer.getD step = step.imported steps := by
  rw [imported, Pass.result, succeeds]
  rfl

/-- Whether data can be attached depends on the name under which it is imported only. -/
theorem Step.verdict_attachData_congr {first second : Step}
    (sameImport : first.dataImportName = second.dataImportName) (dataSets : DataSets) :
    verdict (first.attachData dataSets) = verdict (second.attachData dataSets) := by
  unfold attachData
  rw [sameImport]
  cases second.dataImportName with
  | none => rfl
  | some name => exact (Outcome.verdict_map _ _).trans (Outcome.verdict_map _ _).symm

theorem Step.verdict_linkFully (step : Step) (linker : StatementLinker) (workspace : Workspace) :
    verdict (step.linkFully linker workspace) =
      verdict (step.expandImport workspace.steps) >>= fun _ =>
        verdict (step.attachData workspace.dataSets) >>= fun _ =>
          (forM step.identifiers.values fun text => verdict (linkElement text workspace.pages .empty)) >>=
            fun _ => forM (step.imported workspace.steps).statements fun statement =>
              verdict (linker.linkLocated workspace.pages (step.identifiers.known workspace.pages) statement) := by
  apply Outcome.verdict_bind
  intro answer expands
  -- neither import changes the identifiers, and the step is not pending after them
  obtain ⟨lineage, _, expansion⟩ := expandImport_eq_ok expands
  have sameImport : step.dataImportName = (answer.getD step).dataImportName := by rw [expansion]; rfl
  rw [verdict_attachData_congr sameImport]
  apply Outcome.verdict_bind
  intro supplied attaches
  obtain ⟨data, _, attached⟩ := attachData_eq_ok attaches
  refine (Outcome.verdict_map _ _).trans ?_
  rw [← imported_of_expandImport_eq_ok expands, attached, expansion]
  exact verdict_link (by rfl) linker workspace.pages

/-- The layers around a step add its place to whatever error it ends with. -/
theorem Step.run_checks (step : Step) (linker : StatementLinker) (workspace : Workspace)
    (place : List (Scope × String)) :
    forM (step.checks linker workspace place) Check.run =
      (verdict (step.linkFully linker workspace)).mapError (.attachAll place) := by
  have statementRun (statement : Statement) (known : Identifiers) :
      Check.run ⟨(.content, statement.source) :: place, verdict (linker.link statement workspace.pages known)⟩ =
        (verdict (linker.linkLocated workspace.pages known statement)).mapError (.attachAll place) := by
    rw [StatementLinker.linkLocated, Outcome.verdict_mapError]
    cases verdict (linker.link statement workspace.pages known) <;> rfl
  rw [verdict_linkFully, checks, List.forM_cons, List.forM_cons, List.forM_append, List.forM_map, List.forM_map]
  simp only [statementRun, Outcome.mapError_bind, Outcome.mapError_forM]
  rfl

/-- Linking a test succeeds, or fails, as its checks do when they are run in order. -/
theorem Test.verdict_link (test : Test) (linker : StatementLinker) (workspace : Workspace) :
    verdict (test.link linker workspace) = forM (test.checks linker workspace) Check.run := by
  rw [checks, List.forM_cons, Outcome.forM_flatMap]
  have configurationRun : Check.run
      ⟨[(.test, test.name)], verdict (test.configuration.link workspace.pages)⟩ =
        verdict ((test.configuration.link workspace.pages).mapError (.attach .test test.name)) :=
    (Outcome.verdict_mapError _ _).symm
  rw [configurationRun]
  apply Outcome.verdict_bind
  intro configuration _
  refine (Outcome.verdict_map _ _).trans ((Outcome.verdict_map _ _).trans ?_)
  rw [Outcome.verdict_mapM]
  simp only [Step.run_checks, Outcome.verdict_mapError]
  rfl

/-! ## The error of the first check that fails -/

namespace Check

theorem run_eq_ok_iff {check : Check} : check.run = .ok () ↔ check.outcome = .ok () :=
  Outcome.mapError_eq_ok_iff

theorem run_eq_error_iff {check : Check} {error : LinkError} :
    check.run = .error error ↔
      ∃ raised, check.outcome = .error raised ∧ raised.attachAll check.place = error := by
  rw [run]
  cases check.outcome <;> simp [Except.mapError]

/-- Nothing is known of the errors of a check, and no scope occurs twice in its place. -/
structure Locates (check : Check) : Prop where
  bare : RaisesBare check.outcome
  distinct : (check.place.map Prod.fst).Nodup

theorem Locates.entries_attachAll {check : Check} (locates : check.Locates) {raised : LinkError}
    (fails : check.outcome = .error raised) :
    (raised.attachAll check.place).location.entries = check.place := by
  have unlocated := (locates.bare raised fails).unlocated
  have distinct : ((raised.location.entries ++ check.place).map Prod.fst).Nodup := by
    rw [unlocated]
    exact locates.distinct
  refine (Location.entries_attachAll distinct).trans ?_
  rw [unlocated]
  rfl

end Check

theorem Test.link_eq_error_iff {test : Test} {linker : StatementLinker} {workspace : Workspace}
    {error : LinkError} :
    test.link linker workspace = .error error ↔
      ∃ before check after raised, test.checks linker workspace = before ++ check :: after ∧
        (∀ earlier ∈ before, earlier.outcome = .ok ()) ∧ check.outcome = .error raised ∧
        raised.attachAll check.place = error := by
  rw [← Outcome.verdict_eq_error_iff, verdict_link, Outcome.forM_eq_error_iff]
  simp only [Check.run_eq_ok_iff, Check.run_eq_error_iff]
  constructor
  · rintro ⟨before, check, after, split, earlier, raised, fails, located⟩
    exact ⟨before, check, after, raised, split, earlier, fails, located⟩
  · rintro ⟨before, check, after, raised, split, earlier, fails, located⟩
    exact ⟨before, check, after, split, earlier, raised, fails, located⟩

end TestLinker
