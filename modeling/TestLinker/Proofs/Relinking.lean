import TestLinker.Proofs.Settled
import TestLinker.Proofs.StepMapping

/-! # Linking a linked test

Where nothing is left to look up, linking looks nothing up: a settled component is left
alone by both component linkers, and a step without imports and identifiers whose
components are settled is linked to itself. A linked test has only such steps, if its
components are settled, so it is linked to itself in every workspace.
-/

namespace TestLinker

/-! ## Settled components -/

section

variable {component : String}

theorem IsSettled.elementComponent (settled : IsSettled component) (pages : Pages) (identifiers : Identifiers) :
    elementComponent component pages identifiers = .ok none := by
  have reference : Reference.ofString? component = none ∨ Reference.ofString? component = some (.pageUrl "page") :=
    settled.elim (fun literal => .inl (Reference.isLiteral_iff.mp literal))
      Reference.ofString?_of_isPageProperty
  rcases reference with reference | reference <;>
    exact elementComponent_eq_none (by simp [reference]) (by simp [reference])

theorem IsSettled.urlComponent (settled : IsSettled component) (pages : Pages) (identifiers : Identifiers) :
    urlComponent component pages identifiers = .ok none := by
  unfold TestLinker.urlComponent
  split
  · rfl
  · rename_i imported
    have literal := settled.resolve_right imported
    rw [linkPageUrl, Reference.isLiteral_iff.mp literal]
    rfl

end

/-! ## Statements that are left alone -/

namespace StatementLinker

theorem standard_link_eq_none {statement : Statement} (pages : Pages) (identifiers : Identifiers)
    (settled : ∀ component ∈ statement.components, IsSettled component) :
    standard.link statement pages identifiers = .ok none := by
  refine link_eq_none_iff.mpr fun linker member text inStatement => ?_
  rcases mem_standard_iff.mp member with rfl | rfl
  · exact (settled text inStatement).elementComponent pages identifiers
  · exact (settled text inStatement).urlComponent pages identifiers

end StatementLinker

/-! ## Steps and tests that are left alone -/

namespace Step

theorem expandImport_of_no_import {step : Step} (rootless : step.importName = none) (steps : Steps) :
    step.expandImport steps = .ok none := by
  rw [expandImport, expandWithin_of_no_import rootless]
  rfl

theorem attachData_of_no_import {step : Step} (dataless : step.dataImportName = none) (dataSets : DataSets) :
    step.attachData dataSets = .ok none := by
  rw [attachData, dataless]

theorem link_eq_none {step : Step} {linker : StatementLinker} {pages : Pages}
    (undeclared : step.identifiers = .empty)
    (alone : ∀ statement ∈ step.statements, linker.link statement pages .empty = .ok none) :
    step.link linker pages = .ok none := by
  cases pending : step.isPending with
  | true => exact link_of_pending pending linker pages
  | false =>
    have known : step.identifiers.known pages = .empty := by
      rw [undeclared]
      rfl
    rw [link_eq_none_iff pending, known, undeclared]
    exact ⟨List.forall_mem_nil _, alone⟩

theorem linkFully_eq_self {step : Step} {linker : StatementLinker} {workspace : Workspace}
    (rootless : step.importName = none) (dataless : step.dataImportName = none)
    (undeclared : step.identifiers = .empty)
    (alone : ∀ statement ∈ step.statements, linker.link statement workspace.pages .empty = .ok none) :
    step.linkFully linker workspace = .ok step := by
  rw [linkFully, expandImport_of_no_import rootless]
  change (step.attachData workspace.dataSets >>= fun _ => _) = _
  rw [attachData_of_no_import dataless]
  change (step.link linker workspace.pages >>= fun _ => _) = _
  rw [link_eq_none undeclared alone]
  change Except.ok { step with identifiers := .empty } = _
  rw [← undeclared]

end Step

/-- A linked test in which nothing is left to look up is linked to itself, in any workspace
and without a change to its statements. -/
theorem Test.link_linked {test once : Test} {workspace : Workspace}
    (succeeds : test.link .standard workspace = .ok once)
    (settled : ∀ name step, once.steps.get? name = some step → step.IsSettled)
    (plain : startPage? once.configuration.url = none) (other : Workspace) :
    once.link .standard other = .ok once ∧
      ∀ name step, once.steps.get? name = some step → ∀ statement ∈ step.statements, ∀ identifiers,
        StatementLinker.standard.link statement other.pages identifiers = .ok none := by
  have alone (name : String) (step : Step) (declared : once.steps.get? name = some step) (statement : Statement)
      (member : statement ∈ step.statements) (identifiers : Identifiers) :
      StatementLinker.standard.link statement other.pages identifiers = .ok none :=
    StatementLinker.standard_link_eq_none other.pages identifiers (settled name step declared statement member)
  refine ⟨?_, alone⟩
  obtain ⟨_, _, _, _, stepsLinked⟩ := link_eq_ok succeeds
  have stepsAlone (name : String) (step : Step) (declared : once.steps.get? name = some step) :
      step.linkFully .standard other = .ok step := by
    obtain ⟨_, _, stepLinked⟩ := stepsLinked.get?_of_image declared
    obtain ⟨_, _, linkage⟩ := Step.linkFully_eq_ok stepLinked
    exact Step.linkFully_eq_self linkage.importName linkage.dataImportName linkage.identifiers
      fun statement member => alone name step declared statement member .empty
  have configuration : once.configuration.link other.pages = .ok none := by
    rw [Configuration.link, plain]
  have steps : (once.steps.mapM fun name step => (step.linkFully .standard other).mapError fun error =>
      (error.attach .step name).attach .test once.name) = .ok once.steps := by
    apply OrderedMap.mapM_eq_self
    intro name step declared
    rw [stepsAlone name step declared]
    rfl
  unfold link
  rw [configuration, steps]
  rfl

open LoginExample in
/-- A linked test needs no pages, not even for the page property that it compares with. -/
theorem Test.login_link_linked :
    (test "$login.elements.form").link .standard workspace = .ok (linkedTest ".form") ∧
      (linkedTest ".form").link .standard .empty = .ok (linkedTest ".form") ∧
      StatementLinker.standard.link (.linked staysOnPage (some "$page.url") (some "\"http://example.com/\""))
        .empty .empty = .ok none := by
  have links : (test "$login.elements.form").link .standard workspace = .ok (linkedTest ".form") := by
    decide +kernel
  have settled (name : String) (step : Step) (declared : (linkedTest ".form").steps.get? name = some step) :
      step.IsSettled := by
    have member := OrderedMap.get?_eq_some_iff.mp declared
    cases (Prod.mk.inj (List.mem_singleton.mp member)).2
    unfold Step.IsSettled
    decide +kernel
  obtain ⟨again, alone⟩ := Test.link_linked links settled (by decide +kernel) .empty
  exact ⟨links, again, alone "login" (linkedStep ".form") (by rfl) _
    (by simp [Step.statements, linkedStep]) .empty⟩

end TestLinker
