import TestLinker.Proofs.ImportChain
import TestLinker.Test.Linking

/-! # Storing an expanded step

A reusable step whose import can be expanded may be stored as it is after the expansion. The
steps that import it do not notice: a chain that comes by this step has an end, and it now
ends there with the statements of all the steps that came behind; any other chain does not
depend on what is stored under the name.
-/

namespace TestLinker

namespace Step

section

variable {steps : Steps} {step stored : Step} {name : String} {heirs : List Step}

/-! ## Lineages and the chains that end -/

theorem HasLineage.exists_chainEnds {lineage : List Step} (ancestry : step.HasLineage steps lineage) :
    ∃ ancestors, lineage = step :: ancestors ∧ step.ChainEnds steps [] (.root ancestors) := by
  induction ancestry with
  | root rootless => exact ⟨[], rfl, chainEnds_of_rootless steps [] rootless⟩
  | heir imports isStored _ inductionHypothesis =>
    obtain ⟨ancestors, rfl, ends⟩ := inductionHypothesis
    exact ⟨_, rfl, ends.above_root imports isStored⟩

theorem HasLineage.expandImport_eq {lineage : List Step} (ancestry : step.HasLineage steps lineage) :
    step.expandImport steps = .ok (step.importName.map fun _ => step.expandedBy lineage) := by
  obtain ⟨ancestors, rfl, ends⟩ := ancestry.exists_chainEnds
  rw [expandImport_eq_outcome ends]
  cases ancestry with
  | root rootless => rw [rootless]; rfl
  | heir imports _ ancestry =>
    -- the ancestors of an heir start with its parent, so the outcome is a new step
    obtain ⟨others, rfl, _⟩ := ancestry.exists_chainEnds
    rw [imports]
    rfl

theorem ChainEnds.exists_hasLineage {ancestors : List Step} (ends : step.ChainEnds steps [] (.root ancestors)) :
    ∃ lineage, step.HasLineage steps lineage := by
  have succeeds : ∃ answer, step.expandImport steps = .ok answer := by
    rw [expandImport_eq_outcome ends]
    cases ancestors <;> exact ⟨_, rfl⟩
  obtain ⟨answer, expands⟩ := succeeds
  obtain ⟨lineage, ancestry, _⟩ := expandImport_eq_ok expands
  exact ⟨lineage, ancestry⟩

/-- A chain that comes by a step with a lineage ends where that lineage ends. -/
theorem exists_hasLineage_of_chainName {place : Nat} (passes : step.chainName steps place = some name)
    (isStored : steps.get? name = some stored) (ancestry : stored.HasLineage steps heirs) :
    ∃ lineage, step.HasLineage steps lineage := by
  induction place generalizing name stored heirs with
  | zero => exact ⟨step :: heirs, .heir passes isStored ancestry⟩
  | succ place inductionHypothesis =>
    obtain ⟨before, passedBefore, leadsOn⟩ := Option.bind_eq_some_iff.mp passes
    obtain ⟨importing, isStoredBefore, imports⟩ := Option.bind_eq_some_iff.mp leadsOn
    exact inductionHypothesis passedBefore isStoredBefore (.heir imports isStored ancestry)

/-! ## Chains that avoid a name -/

section

variable (avoids : ∀ place, step.chainName steps place ≠ some name) (other : Step)

include avoids

theorem chainName_insert : step.chainName (steps.insert name other) = step.chainName steps := by
  funext place
  induction place with
  | zero => rfl
  | succ place inductionHypothesis =>
    rw [chainName, inductionHypothesis, chainName]
    cases found : step.chainName steps place with
    | none => rfl
    | some passed =>
      have different : name ≠ passed := fun same => avoids place (same ▸ found)
      rw [Option.bind_some, Option.bind_some, OrderedMap.get?_insert, if_neg different]

theorem ChainEnds.insert_of_missing {lost : String} (ends : step.ChainEnds steps [] (.missing lost)) :
    step.ChainEnds (steps.insert name other) [] (.missing lost) := by
  obtain ⟨place, found, absent⟩ := ends
  have different : name ≠ lost := fun same => avoids place (same ▸ found)
  exact ⟨place, by rwa [chainName_insert avoids], by rwa [OrderedMap.get?_insert, if_neg different]⟩

theorem ChainEnds.insert_of_circle {visited : String} (ends : step.ChainEnds steps [] (.circle visited)) :
    step.ChainEnds (steps.insert name other) [] (.circle visited) := by
  simpa only [ChainEnds, Revisits, chainName_insert avoids] using ends

end

/-! ## Chains that come by the stored step -/

/-- Storing a step as its lineage has expanded it cuts the lineages that run through it short, but
no statement is lost. -/
theorem HasLineage.insert_expandedBy {lineage : List Step} (ancestry : step.HasLineage steps lineage)
    (isStored : steps.get? name = some stored) (storedAncestry : stored.HasLineage steps heirs) :
    ∃ shortened, step.HasLineage (steps.insert name (stored.expandedBy heirs)) shortened ∧
      step.expandedBy shortened = step.expandedBy lineage := by
  induction ancestry with
  | root rootless => exact ⟨_, .root rootless, rfl⟩
  | @heir step parent imported ancestors imports parentStored parentAncestry inductionHypothesis =>
    by_cases same : name = imported
    · subst same
      cases isStored.symm.trans parentStored
      cases storedAncestry.unique parentAncestry
      -- the lineage ends with the expanded step, which has no import any more
      refine ⟨[step, stored.expandedBy heirs], .heir imports ?_ (.root rfl), ?_⟩
      · rw [OrderedMap.get?_insert, if_pos rfl]
      · rw [← inherit_expandedBy, expandedBy_self rfl, inherit_expandedBy]
    · obtain ⟨shortened, shortenedAncestry, sameStatements⟩ := inductionHypothesis
      refine ⟨step :: shortened, .heir imports ?_ shortenedAncestry, ?_⟩
      · rwa [OrderedMap.get?_insert, if_neg same]
      · rw [← inherit_expandedBy, sameStatements, inherit_expandedBy]

theorem expandImport_insert_expandedBy (isStored : steps.get? name = some stored)
    (storedAncestry : stored.HasLineage steps heirs) (step : Step) :
    step.expandImport (steps.insert name (stored.expandedBy heirs)) = step.expandImport steps := by
  by_cases inherits : ∃ lineage, step.HasLineage steps lineage
  · obtain ⟨lineage, ancestry⟩ := inherits
    obtain ⟨shortened, shortenedAncestry, sameStatements⟩ := ancestry.insert_expandedBy isStored storedAncestry
    rw [shortenedAncestry.expandImport_eq, ancestry.expandImport_eq, sameStatements]
  · have avoids (place : Nat) : step.chainName steps place ≠ some name := fun passes =>
      inherits (exists_hasLineage_of_chainName passes isStored storedAncestry)
    obtain ⟨ending, ends, _⟩ := expandWithin_ends steps [] step
    cases ending with
    | root ancestors => exact absurd ends.exists_hasLineage inherits
    | missing lost => rw [expandImport_eq_outcome ends, expandImport_eq_outcome (ends.insert_of_missing avoids _)]
    | circle visited => rw [expandImport_eq_outcome ends, expandImport_eq_outcome (ends.insert_of_circle avoids _)]

end

end Step

/-- A reusable step may be stored as its expansion leaves it. Every step that is expanded then
becomes the same step, or fails with the same error, and so does every test that is linked. -/
theorem Steps.storing_expanded {steps : Steps} {name : String} {stored : Step} {answer : Option Step}
    (isStored : steps.get? name = some stored) (expands : stored.expandImport steps = .ok answer) :
    (∀ step : Step, step.expandImport (steps.insert name (answer.getD stored)) = step.expandImport steps) ∧
      ∀ (test : Test) (linker : StatementLinker) (pages : Pages) (dataSets : DataSets),
        test.link linker ⟨pages, steps.insert name (answer.getD stored), dataSets⟩ =
          test.link linker ⟨pages, steps, dataSets⟩ := by
  obtain ⟨lineage, ancestry, expansion⟩ := Step.expandImport_eq_ok expands
  rw [expansion]
  have sameExpansion := Step.expandImport_insert_expandedBy isStored ancestry
  refine ⟨sameExpansion, fun test linker pages dataSets => ?_⟩
  have sameStep (step : Step) :
      step.linkFully linker ⟨pages, steps.insert name (stored.expandedBy lineage), dataSets⟩ =
        step.linkFully linker ⟨pages, steps, dataSets⟩ := by
    rw [Step.linkFully, Step.linkFully, sameExpansion]
  simp only [Test.link, sameStep]

namespace SignInExample

def click (identifier : String) : Statement := .action ("Click on " ++ identifier) (.interaction "click" identifier)

def importing (name : String) (actions : List Statement) : Step :=
  { Step.empty with actions := actions, importName := some name }

/-- Imports a step and data. -/
def signIn : Step := { importing "open" [click "#sign-in"] with dataImportName := some "users" }

def steps : Steps := .ofList
  [("open", { Step.empty with actions := [click "#menu"] }), ("sign in", signIn),
    ("pay", importing "sign in" [click "#pay"]), ("refund", importing "refund" [])]

def expanded : Step := { signIn with actions := [click "#menu", click "#sign-in"], importName := none }

end SignInExample

open SignInExample in
/-- The expanded step is still pending. One of the importing steps comes by it, and the other one
runs in a circle elsewhere. -/
theorem Steps.storing_expanded_sign_in :
    steps.get? "sign in" = some signIn ∧ signIn.expandImport steps = .ok (some expanded) ∧ expanded.isPending = true ∧
      (importing "pay" [click "#ok"]).expandImport (steps.insert "sign in" expanded) =
        .ok (some { Step.empty with actions := [click "#menu", click "#sign-in", click "#pay", click "#ok"] }) ∧
      (importing "refund" []).expandImport (steps.insert "sign in" expanded) =
        .error (.ofFault (.circularStepImport "refund")) := by
  have isStored : steps.get? "sign in" = some signIn := by decide +kernel
  have expands : signIn.expandImport steps = .ok (some expanded) := by decide +kernel
  obtain ⟨sameExpansion, _⟩ := Steps.storing_expanded isStored expands
  refine ⟨isStored, expands, rfl, (sameExpansion _).trans ?_, (sameExpansion _).trans ?_⟩
  · decide +kernel
  · decide +kernel

end TestLinker
