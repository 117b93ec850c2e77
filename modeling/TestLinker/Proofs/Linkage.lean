import TestLinker.Proofs.Outcome
import TestLinker.Proofs.Lineage
import TestLinker.Test.Linking

/-! # What linking makes of a step and of a test

A `Linkage` relates a step to the linked step: it follows the lineage of the step, links
its identifiers one by one, and links the statements of the lineage one by one with the
linked identifiers. `Step.linkFully_eq_ok` finds the linkage of every step that is linked,
and `Test.link_eq_ok` the steps and the configuration of a linked test.

Passes that leave a list alone answer `none`; here both answers are read as the list that
is left, so that nothing below depends on which parts of a step have changed.
-/

namespace TestLinker

/-- What is left of a statement after linking. -/
abbrev StatementLinker.Leaves (linker : StatementLinker) (pages : Pages)
    (identifiers : Identifiers) : Statement → Statement → Prop :=
  Pass.Leaves fun statement => linker.link statement pages identifiers

/-- The identifiers whose texts are left by linking the given ones, each on its own. -/
abbrev Identifiers.Leaves (identifiers : Identifiers) (pages : Pages) : Identifiers → Prop :=
  identifiers.EntriesRelated fun _ => Pass.Leaves fun text => linkElement text pages .empty

theorem StatementLinker.forall₂_of_linkAll_eq_ok {linker : StatementLinker} {pages : Pages}
    {identifiers : Identifiers} {statements : List Statement} {answer : Option (List Statement)}
    (succeeds : linker.linkAll pages identifiers statements = .ok answer) :
    List.Forall₂ (linker.Leaves pages identifiers) statements (answer.getD statements) := by
  refine (Pass.forall₂_of_each_eq_ok succeeds).imp ?_
  rintro statement result ⟨answered, located, left⟩
  exact ⟨answered, Outcome.mapError_eq_ok_iff.mp located, left⟩

namespace Step

def statements (step : Step) : List Statement := step.actions ++ step.assertions

/-- Where the data of a step comes from: the collection it imports, or else the step. -/
def HasData (dataSets : DataSets) (step : Step) (data : Option DataCollection) : Prop :=
  match step.dataImportName with
  | none => data = step.data
  | some name => ∃ collection, dataSets.get? name = some collection ∧ data = some collection

/-- How a linked step comes from a step: through its lineage and its linked identifiers. -/
structure Linkage (linker : StatementLinker) (workspace : Workspace) (step linked : Step)
    (lineage : List Step) (known : Identifiers) : Prop where
  ancestry : step.HasLineage workspace.steps lineage
  knows : step.identifiers.Leaves workspace.pages known
  actions : List.Forall₂ (linker.Leaves workspace.pages known)
    (lineage.reverse.flatMap Step.actions) linked.actions
  assertions : List.Forall₂ (linker.Leaves workspace.pages known)
    (lineage.reverse.flatMap Step.assertions) linked.assertions
  importName : linked.importName = none
  dataImportName : linked.dataImportName = none
  identifiers : linked.identifiers = .empty
  data : step.HasData workspace.dataSets linked.data

theorem attachData_eq_ok {step : Step} {dataSets : DataSets} {answer : Option Step}
    (succeeds : step.attachData dataSets = .ok answer) :
    ∃ data, step.HasData dataSets data ∧
      answer.getD step = { step with data := data, dataImportName := none } := by
  unfold attachData at succeeds
  cases imports : step.dataImportName with
  | none =>
    rw [imports] at succeeds
    cases succeeds
    refine ⟨step.data, by simp [HasData, imports], ?_⟩
    cases step
    cases imports
    rfl
  | some name =>
    simp only [imports] at succeeds
    obtain ⟨collection, found, attached⟩ := Outcome.bind_eq_ok_iff.mp succeeds
    cases attached
    have stored := Catalog.find_eq_ok_iff.mp (Outcome.mapError_eq_ok_iff.mp found)
    exact ⟨some collection, by simp [HasData, imports, stored], rfl⟩

theorem link_eq_ok {step : Step} {linker : StatementLinker} {pages : Pages}
    {answer : Option Step} (ready : step.isPending = false)
    (succeeds : step.link linker pages = .ok answer) :
    ∃ identifiers actions assertions,
      step.identifiers.link pages = .ok identifiers ∧
      linker.linkAll pages (identifiers.getD step.identifiers) step.actions = .ok actions ∧
      linker.linkAll pages (identifiers.getD step.identifiers) step.assertions = .ok assertions ∧
      answer.getD step = { step with
        identifiers := identifiers.getD step.identifiers
        actions := actions.getD step.actions
        assertions := assertions.getD step.assertions } := by
  simp only [link, ready, Bool.false_eq_true, if_false] at succeeds
  obtain ⟨identifiers, identifiersLinked, linksActions⟩ := Outcome.bind_eq_ok_iff.mp succeeds
  obtain ⟨actions, actionsLinked, linksAssertions⟩ := Outcome.bind_eq_ok_iff.mp linksActions
  obtain ⟨assertions, assertionsLinked, answers⟩ := Outcome.bind_eq_ok_iff.mp linksAssertions
  refine ⟨identifiers, actions, assertions, identifiersLinked, actionsLinked, assertionsLinked, ?_⟩
  -- without changes the step itself is left, and all three answers are `none`
  split at answers
  · rename_i unchanged
    simp only [Bool.and_eq_true, Option.isNone_iff_eq_none] at unchanged
    obtain ⟨⟨rfl, rfl⟩, rfl⟩ := unchanged
    cases answers
    rfl
  · cases answers
    rfl

theorem linkFully_eq_ok {step linked : Step} {linker : StatementLinker} {workspace : Workspace}
    (succeeds : step.linkFully linker workspace = .ok linked) :
    ∃ lineage known, Linkage linker workspace step linked lineage known := by
  unfold linkFully at succeeds
  obtain ⟨imported, expands, attachesAndLinks⟩ := Outcome.bind_eq_ok_iff.mp succeeds
  obtain ⟨supplied, attaches, linksSupplied⟩ := Outcome.bind_eq_ok_iff.mp attachesAndLinks
  obtain ⟨answer, links, drops⟩ := Outcome.bind_eq_ok_iff.mp linksSupplied
  obtain ⟨lineage, ancestry, expansion⟩ := expandImport_eq_ok expands
  obtain ⟨data, supply, attached⟩ := attachData_eq_ok attaches
  rw [expansion] at attached supply
  rw [expansion, attached] at links drops
  -- both imports are gone, so the pass does not stop at a pending step
  obtain ⟨identifiers, actions, assertions, identifiersLinked, actionsLinked, assertionsLinked, result⟩ :=
    link_eq_ok (by rfl) links
  rw [result] at drops
  cases drops
  exact ⟨lineage, identifiers.getD step.identifiers, {
    ancestry := ancestry
    knows := Pass.entriesRelated_of_eachValue_eq_ok identifiersLinked
    actions := StatementLinker.forall₂_of_linkAll_eq_ok actionsLinked
    assertions := StatementLinker.forall₂_of_linkAll_eq_ok assertionsLinked
    importName := rfl
    dataImportName := rfl
    identifiers := rfl
    data := supply }⟩

end Step

theorem Pages.url_eq_ok {pages : Pages} {name url : String} (looksUp : pages.url name = .ok url) :
    ∃ page, pages.get? name = some page ∧ url = page.url := by
  obtain ⟨page, found, address⟩ := Outcome.bind_eq_ok_iff.mp looksUp
  cases address
  exact ⟨page, Catalog.find_eq_ok_iff.mp (Outcome.mapError_eq_ok_iff.mp found), rfl⟩

/-- A linked start URL is the address of the page it names; any other one is kept. -/
theorem Configuration.link_eq_ok {configuration : Configuration} {pages : Pages}
    {answer : Option Configuration} (succeeds : configuration.link pages = .ok answer) :
    (startPage? configuration.url = none ∧ answer.getD configuration = configuration) ∨
      ∃ name page, startPage? configuration.url = some name ∧ pages.get? name = some page ∧
        answer.getD configuration = { configuration with url := page.url } := by
  unfold link at succeeds
  cases names : startPage? configuration.url with
  | none =>
    rw [names] at succeeds
    cases succeeds
    exact .inl ⟨rfl, rfl⟩
  | some name =>
    simp only [names] at succeeds
    obtain ⟨url, looksUp, answers⟩ := Outcome.bind_eq_ok_iff.mp succeeds
    obtain ⟨page, stored, rfl⟩ := Pages.url_eq_ok looksUp
    cases answers
    exact .inr ⟨name, page, rfl, stored, rfl⟩

theorem Test.link_eq_ok {test linked : Test} {linker : StatementLinker} {workspace : Workspace}
    (succeeds : test.link linker workspace = .ok linked) :
    ∃ configuration, test.configuration.link workspace.pages = .ok configuration ∧
      linked.name = test.name ∧ linked.configuration = configuration.getD test.configuration ∧
      test.steps.EntriesRelated (fun _ step result => step.linkFully linker workspace = .ok result)
        linked.steps := by
  obtain ⟨configuration, configurationLinked, linksSteps⟩ := Outcome.bind_eq_ok_iff.mp succeeds
  obtain ⟨steps, stepsLinked, answers⟩ := Outcome.bind_eq_ok_iff.mp linksSteps
  cases answers
  refine ⟨configuration, Outcome.mapError_eq_ok_iff.mp configurationLinked, rfl, rfl, ?_⟩
  refine (OrderedMap.entriesRelated_of_mapM_eq_ok stepsLinked).imp ?_
  rintro entry image ⟨sameName, links⟩
  exact ⟨sameName, Outcome.mapError_eq_ok_iff.mp links⟩

end TestLinker
