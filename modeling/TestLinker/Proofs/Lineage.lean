import TestLinker.Step.Import

/-! # The lineage of a step

The import of a step names a reusable step, which may have an import of its own, and so
on. `HasLineage` holds of a step and the list that starts with it and follows its
imports up to a step without import. No step has two lineages, and none if the imports
run in a circle or name a step that is not stored.

The expansion of a step is read off its lineage (`expandWithin_eq_ok`): the statements of
the oldest ancestor come first and the step's own come last.
-/

namespace TestLinker.Step

/-- The step, the reusable step it imports, the one which that imports, and so on. -/
inductive HasLineage (steps : Steps) : Step → List Step → Prop where
  | root {step : Step} (rootless : step.importName = none) : HasLineage steps step [step]
  | heir {step parent : Step} {name : String} {ancestors : List Step}
      (imports : step.importName = some name) (stored : steps.get? name = some parent)
      (ancestry : HasLineage steps parent ancestors) :
      HasLineage steps step (step :: ancestors)

theorem HasLineage.unique {steps : Steps} {step : Step} {left right : List Step}
    (first : step.HasLineage steps left) (second : step.HasLineage steps right) :
    left = right := by
  induction first generalizing right with
  | root rootless =>
    cases second with
    | root _ => rfl
    | heir imports _ _ => cases rootless.symm.trans imports
  | heir imports stored _ inductionHypothesis =>
    cases second with
    | root rootless => cases rootless.symm.trans imports
    | heir otherImports otherStored otherAncestry =>
      cases imports.symm.trans otherImports
      cases stored.symm.trans otherStored
      rw [inductionHypothesis otherAncestry]

/-- The step with all statements of a lineage, oldest ancestor first, in place of its own. -/
def expandedBy (step : Step) (lineage : List Step) : Step :=
  { step with
    actions := lineage.reverse.flatMap actions
    assertions := lineage.reverse.flatMap assertions
    importName := none }

theorem expandedBy_self {step : Step} (rootless : step.importName = none) :
    step.expandedBy [step] = step := by
  cases step
  cases rootless
  simp [expandedBy]

theorem inherit_expandedBy (step parent : Step) (ancestors : List Step) :
    step.inherit (parent.expandedBy ancestors) = step.expandedBy (step :: ancestors) := by
  simp [inherit, expandedBy, prependActions, prependAssertions]

theorem importName_of_not_isPending {step : Step} (ready : ¬ step.isPending = true) : step.importName = none := by
  simp only [isPending, Bool.or_eq_true, not_or, Option.not_isSome_iff_eq_none] at ready
  exact ready.1

/-- An expansion that succeeds has followed the lineage to its end, and takes back from
the stack what it has put there. -/
theorem expandWithin_eq_ok {steps : Steps} {stack left : ImportStack} {step : Step}
    {answer : Option Step} (succeeds : expandWithin steps stack step = .ok (answer, left)) :
    left = stack ∧ ∃ lineage, step.HasLineage steps lineage ∧
      answer.getD step = step.expandedBy lineage := by
  fun_induction expandWithin steps stack step generalizing answer left with
  | case1 stack step rootless =>
    cases succeeds
    exact ⟨rfl, [step], .root rootless, (expandedBy_self rootless).symm⟩
  | case2 | case3 | case4 => cases succeeds
  | case5 stack step name imports fresh parent found pending expanded remaining inner inductionHypothesis =>
    cases succeeds
    -- the nested call has left the stack as it was, with the name on top
    obtain ⟨rfl, ancestors, ancestry, expansion⟩ := inductionHypothesis inner
    refine ⟨rfl, step :: ancestors, .heir imports (Catalog.find_eq_ok_iff.mp found) ancestry, ?_⟩
    rw [← inherit_expandedBy, ← expansion]
    rfl
  | case6 stack step name imports fresh parent found ready =>
    cases succeeds
    -- a parent that is not pending has no import, so the lineage ends with it
    have rootless := importName_of_not_isPending ready
    refine ⟨rfl, [step, parent], .heir imports (Catalog.find_eq_ok_iff.mp found) (.root rootless), ?_⟩
    rw [← inherit_expandedBy, expandedBy_self rootless]
    rfl

theorem expandImport_eq_ok {steps : Steps} {step : Step} {answer : Option Step}
    (succeeds : step.expandImport steps = .ok answer) :
    ∃ lineage, step.HasLineage steps lineage ∧ answer.getD step = step.expandedBy lineage := by
  unfold expandImport at succeeds
  cases outcome : expandWithin steps [] step with
  | error error => rw [outcome] at succeeds; cases succeeds
  | ok result =>
    rw [outcome] at succeeds
    cases succeeds
    exact (expandWithin_eq_ok outcome).2

end TestLinker.Step
