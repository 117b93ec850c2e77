import TestLinker.Proofs.Components
import TestLinker.Proofs.FirstFailure

/-! # Linking a step part by part

The pass over a step does not copy what it leaves alone: identifiers, actions and assertions
of which nothing has changed are answered with `none`, and the step's own take their place.
Whichever of the three have changed, the outcome is the step with each identifier and each
statement linked on its own, `Step.mapped`, and the pass succeeds exactly if it does so on
each of them (`Step.link_maps`). Nothing of a pending step is linked.
-/

namespace TestLinker

theorem Pass.eachValue_eq_ok_none_iff {κ α : Type} {pass : Pass α} {m : OrderedMap κ α} :
    eachValue pass m = .ok none ↔ ∀ value ∈ m.values, pass value = .ok none := by
  rw [← each_eq_ok_none_iff, eachValue, Outcome.map_eq_ok_iff]
  simp only [Option.map_eq_none_iff, exists_eq_right]

namespace StatementLinker

variable {linker : StatementLinker} {pages : Pages} {identifiers : Identifiers} {statements : List Statement}

/-- What is left of a statement that is linked on its own. -/
def result (linker : StatementLinker) (pages : Pages) (identifiers : Identifiers) : Statement → Statement :=
  Pass.result fun statement => linker.link statement pages identifiers

theorem linkAll_eq_ok_none_iff :
    linker.linkAll pages identifiers statements = .ok none ↔
      ∀ statement ∈ statements, linker.link statement pages identifiers = .ok none := by
  simp only [linkAll, Pass.each_eq_ok_none_iff, linkLocated, Outcome.mapError_eq_ok_iff]

theorem getD_of_linkAll_eq_ok {answer : Option (List Statement)}
    (succeeds : linker.linkAll pages identifiers statements = .ok answer) :
    answer.getD statements = statements.map (linker.result pages identifiers) := by
  rw [← List.forall₂_eq_eq_eq, List.forall₂_map_right_iff]
  exact (forall₂_of_linkAll_eq_ok succeeds).flip.imp fun _ _ leaves => Pass.Leaves.eq_result leaves

end StatementLinker

namespace Step

variable {step : Step} {linker : StatementLinker} {pages : Pages}

/-- The step with its identifiers and statements linked each on its own, the statements with the
linked identifiers. -/
def mapped (step : Step) (linker : StatementLinker) (pages : Pages) : Step :=
  { step with
    identifiers := step.identifiers.known pages
    actions := step.actions.map (linker.result pages (step.identifiers.known pages))
    assertions := step.assertions.map (linker.result pages (step.identifiers.known pages)) }

theorem link_of_pending (pending : step.isPending = true) (linker : StatementLinker) (pages : Pages) :
    step.link linker pages = .ok none := by
  rw [link, if_pos pending]

theorem getD_of_link_eq_ok (ready : step.isPending = false) {answer : Option Step}
    (succeeds : step.link linker pages = .ok answer) : answer.getD step = step.mapped linker pages := by
  obtain ⟨identifiers, actions, assertions, identifiersLinked, actionsLinked, assertionsLinked, result⟩ :=
    link_eq_ok ready succeeds
  rw [result, StatementLinker.getD_of_linkAll_eq_ok actionsLinked,
    StatementLinker.getD_of_linkAll_eq_ok assertionsLinked, Identifiers.known_of_link_eq_ok identifiersLinked]
  rfl

theorem link_succeeds_iff (ready : step.isPending = false) :
    (∃ answer, step.link linker pages = .ok answer) ↔
      (∀ text ∈ step.identifiers.values, ∃ answer, linkElement text pages .empty = .ok answer) ∧
        ∀ statement ∈ step.statements, ∃ answer,
          linker.link statement pages (step.identifiers.known pages) = .ok answer := by
  rw [← Outcome.verdict_eq_ok_iff, verdict_link ready, Outcome.then_eq_ok_iff]
  simp only [Outcome.forM_eq_ok_iff, Outcome.verdict_eq_ok_iff, StatementLinker.linkLocated, Outcome.mapError_eq_ok_iff]

/-- The outcome does not depend on which of the three parts have changed. -/
theorem link_of_parts (ready : step.isPending = false) {identifiers : Option Identifiers}
    {actions assertions : Option (List Statement)} (identifiersLinked : step.identifiers.link pages = .ok identifiers)
    (actionsLinked : linker.linkAll pages (step.identifiers.known pages) step.actions = .ok actions)
    (assertionsLinked : linker.linkAll pages (step.identifiers.known pages) step.assertions = .ok assertions) :
    step.link linker pages = .ok (if identifiers.isNone && actions.isNone && assertions.isNone then none
      else some (step.mapped linker pages)) := by
  have known := Identifiers.known_of_link_eq_ok identifiersLinked
  -- each part of the mapped step is what its pass leaves, or the part itself if it leaves it alone
  rw [mapped, ← StatementLinker.getD_of_linkAll_eq_ok actionsLinked,
    ← StatementLinker.getD_of_linkAll_eq_ok assertionsLinked, ← known]
  rw [← known] at actionsLinked assertionsLinked
  simp only [link, ready, Bool.false_eq_true, if_false, identifiersLinked, actionsLinked, assertionsLinked, bind,
    Except.bind, pure, Except.pure]
  split <;> rfl

theorem link_eq_none_iff (ready : step.isPending = false) :
    step.link linker pages = .ok none ↔
      (∀ text ∈ step.identifiers.values, linkElement text pages .empty = .ok none) ∧
        ∀ statement ∈ step.statements, linker.link statement pages (step.identifiers.known pages) = .ok none := by
  rw [statements, List.forall_mem_append, ← Pass.eachValue_eq_ok_none_iff, ← StatementLinker.linkAll_eq_ok_none_iff,
    ← StatementLinker.linkAll_eq_ok_none_iff]
  change _ ↔ step.identifiers.link pages = .ok none ∧ _
  constructor
  · intro leavesAlone
    obtain ⟨identifiers, actions, assertions, identifiersLinked, actionsLinked, assertionsLinked, _⟩ :=
      link_eq_ok ready leavesAlone
    rw [Identifiers.known_of_link_eq_ok identifiersLinked] at actionsLinked assertionsLinked
    rw [link_of_parts ready identifiersLinked actionsLinked assertionsLinked] at leavesAlone
    split at leavesAlone
    -- there is no new step only if all three parts are left alone
    · rename_i unchanged
      simp only [Bool.and_eq_true, Option.isNone_iff_eq_none] at unchanged
      obtain ⟨⟨rfl, rfl⟩, rfl⟩ := unchanged
      exact ⟨identifiersLinked, actionsLinked, assertionsLinked⟩
    · cases leavesAlone
  · rintro ⟨identifiersLinked, actionsLinked, assertionsLinked⟩
    exact link_of_parts ready identifiersLinked actionsLinked assertionsLinked

/-- A pending step is left alone. Any other one is linked if each identifier and each statement
can be linked on its own, and becomes the step with all of them linked. It is left alone exactly
if no identifier refers to an element and every statement is left alone. -/
theorem link_maps (step : Step) (linker : StatementLinker) (pages : Pages) :
    (step.isPending = true → step.link linker pages = .ok none) ∧
      (step.isPending = false →
        ((∃ answer, step.link linker pages = .ok answer) ↔
          (∀ text ∈ step.identifiers.values, ∃ answer, linkElement text pages .empty = .ok answer) ∧
            ∀ statement ∈ step.statements, ∃ answer,
              linker.link statement pages (step.identifiers.known pages) = .ok answer) ∧
        (∀ answer, step.link linker pages = .ok answer → answer.getD step = step.mapped linker pages) ∧
        (step.link linker pages = .ok none ↔
          (∀ text ∈ step.identifiers.values, (∀ name attr, Reference.ofString? text ≠ some (.element name attr)) ∧
              ∀ page name attr, Reference.ofString? text ≠ some (.pageElement page name attr)) ∧
            ∀ statement ∈ step.statements,
              linker.link statement pages (step.identifiers.known pages) = .ok none) ∧
        (step.link linker pages = .ok none → step.mapped linker pages = step)) ∧
      (step.mapped linker pages).identifiers.keys = step.identifiers.keys := by
  refine ⟨fun pending => link_of_pending pending linker pages, fun ready => ?_, OrderedMap.keys_map _ _⟩
  refine ⟨link_succeeds_iff ready, fun _ => getD_of_link_eq_ok ready, ?_, ?_⟩
  · rw [link_eq_none_iff ready]
    simp only [linkElement_eq_none_iff]
  · exact fun leavesAlone => (getD_of_link_eq_ok ready leavesAlone).symm

end Step

namespace SearchExample

def pages : Pages := .ofList [("home", ⟨"home", "http://example.com/", .ofList [("bar", "#bar")]⟩)]

def clickOnBar : Statement := .action "Click on $elements.bar" (.interaction "click" "$elements.bar")

def clickOnLogo : Statement := .action "Click on #logo" (.interaction "click" "#logo")

def barIsThere : Statement := .assertion "#bar exists" (.existence "#bar" false)

def step (actions : List Statement) (bar : String) : Step :=
  { Step.empty with
    actions := actions
    assertions := [barIsThere]
    identifiers := .ofList [("logo", "#logo"), ("bar", bar)] }

def written (bar : String) : Step := step [clickOnLogo, clickOnBar] bar

def pending : Step := { written "$home.elements.tab" with dataImportName := some "words" }

/-- Of the identifiers and of the actions one is changed, of the assertions none. -/
def linked : Step := step [clickOnLogo, .linked clickOnBar (some "#bar") none] "#bar"

end SearchExample

open SearchExample in
/-- An identifier that refers to nothing is an error, unless the step still has a data import. -/
theorem Step.search_maps :
    (written "$home.elements.bar").link .standard pages = .ok (some linked) ∧
      (written "$home.elements.bar").mapped .standard pages = linked ∧
      (¬ ∃ answer, (written "$home.elements.tab").link .standard pages = .ok answer) ∧
      pending.link .standard pages = .ok none := by
  have links : (written "$home.elements.bar").link .standard pages = .ok (some linked) := by decide +kernel
  have missing : (linkElement "$home.elements.tab" pages .empty).toOption = none := by decide +kernel
  obtain ⟨_, ready, _⟩ := Step.link_maps (written "$home.elements.bar") .standard pages
  obtain ⟨_, result, _⟩ := ready rfl
  obtain ⟨_, dangling, _⟩ := Step.link_maps (written "$home.elements.tab") .standard pages
  obtain ⟨succeeds, _⟩ := dangling rfl
  obtain ⟨alone, _⟩ := Step.link_maps pending .standard pages
  refine ⟨links, (result _ links).symm, fun success => ?_, alone rfl⟩
  obtain ⟨answer, found⟩ := (succeeds.mp success).1 "$home.elements.tab" (by decide +kernel)
  rw [found] at missing
  cases missing

end TestLinker
