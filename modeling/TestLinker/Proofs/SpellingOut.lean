import TestLinker.Proofs.Pipeline
import TestLinker.Proofs.StepMapping

/-! # Spelling out the elements of a page

A step may declare an identifier that refers to an element of a page, and its statements may then
use the short name. They may as well spell out the reference to the page: linking looks the element
up when it links the identifiers, or once for each statement, and the attribute is put behind the
text in the same way. So the errors are the same, and so are the texts of all components.
-/

namespace TestLinker

/-! ## Statements with other components -/

namespace Action

def mapComponents (f : String → String) : Action → Action
  | interaction verb identifier => interaction verb (f identifier)
  | input identifier value => input (f identifier) (f value)
  | wait duration => wait (f duration)
  | noArguments verb => noArguments verb

end Action

namespace Assertion

def mapComponents (f : String → String) : Assertion → Assertion
  | existence identifier negated => existence (f identifier) negated
  | comparison identifier operator value => comparison (f identifier) operator (f value)

end Assertion

namespace Statement

/-- The statement with `f` applied to each of its components. The source text is kept. -/
def mapComponents (f : String → String) : Statement → Statement
  | action source kind => action source (kind.mapComponents f)
  | assertion source kind => assertion source (kind.mapComponents f)
  | linked written identifier value => linked written (identifier.map f) (value.map f)

/-- The texts of the components that a statement carries. -/
def texts (statement : Statement) : Option String × Option String :=
  (statement.identifier?, statement.value?)

variable (f : String → String) (statement : Statement)

@[simp] theorem source_mapComponents : (statement.mapComponents f).source = statement.source := by
  cases statement <;> rfl

@[simp] theorem identifier?_mapComponents : (statement.mapComponents f).identifier? = statement.identifier?.map f := by
  cases statement with
  | action source kind => cases kind <;> rfl
  | assertion source kind => cases kind <;> rfl
  | linked written identifier value => rfl

@[simp] theorem value?_mapComponents : (statement.mapComponents f).value? = statement.value?.map f := by
  cases statement with
  | action source kind => cases kind <;> rfl
  | assertion source kind => cases kind <;> rfl
  | linked written identifier value => rfl

theorem components_mapComponents : (statement.mapComponents f).components = statement.components.map f := by
  simp [components, Option.toList_map]

end Statement

/-- The step with `f` applied to each component of its statements. The identifiers are kept. -/
def Step.mapComponents (f : String → String) (step : Step) : Step :=
  { step with
    actions := step.actions.map (Statement.mapComponents f)
    assertions := step.assertions.map (Statement.mapComponents f) }

/-! ## Spelling out a name -/

/-- What a component asks for of the element that the step calls `name`: `none` if it is not about
the element, else the attribute, if there is one. The component is compared as a text. -/
def attrOf? (name component : String) : Option (Option String) :=
  if component = Reference.render (.element name none) then some none
  else do
    let attr ← component.toList.dropPrefix? ((Reference.render (.element name none)).toList ++ ['.'])
    if isSegment attr then some (some (String.ofList attr)) else none

/-- Writes the reference to an element of a page in place of the name that the step has for it. -/
def spelledOut (name page element component : String) : String :=
  match attrOf? name component with
  | some attr => Reference.render (.pageElement page element attr)
  | none => component

def Step.spelledOut (step : Step) (name page element : String) : Step :=
  step.mapComponents (TestLinker.spelledOut name page element)

theorem render_element_some (name suffix : String) :
    (Reference.render (.element name (some suffix))).toList =
      ((Reference.render (.element name none)).toList ++ ['.']) ++ suffix.toList := by
  simp [Reference.toList_render, Reference.segments, List.intercalate_cons_cons]

/-- The components that are spelled out are the element itself and the element with an attribute. -/
theorem attrOf?_eq_some_iff {name component : String} {attr : Option String} :
    attrOf? name component = some attr ↔
      component = Reference.render (.element name attr) ∧ ∀ suffix ∈ attr, isSegment suffix.toList = true := by
  unfold attrOf?
  constructor
  · intro asks
    split at asks
    · rename_i isElement
      cases asks
      exact ⟨isElement, by simp⟩
    · obtain ⟨suffix, behind, valid⟩ := Option.bind_eq_some_iff.mp asks
      split at valid
      · rename_i segment
        cases valid
        obtain ⟨front, characters, sameFront⟩ := List.dropPrefix?_eq_some_iff.mp behind
        refine ⟨String.toList_inj.mp ?_, by simpa using segment⟩
        rw [characters, eq_of_beq sameFront, render_element_some, String.toList_ofList]
      · cases valid
  · rintro ⟨rfl, valid⟩
    cases attr with
    | none => exact if_pos rfl
    | some suffix =>
      have longer : Reference.render (.element name (some suffix)) ≠ Reference.render (.element name none) := by
        intro same
        simpa using congrArg List.length ((render_element_some name suffix).symm.trans (congrArg String.toList same))
      have behind := List.dropPrefix?_eq_some_iff.mpr ⟨_, render_element_some name suffix, beq_self_eq_true _⟩
      rw [if_neg longer, behind]
      exact (if_pos (valid suffix rfl)).trans (by rw [String.ofList_toList])

/-! ## One component -/

theorem Pages.elementText_attr (pages : Pages) (page element : String) (attr : Option String) :
    pages.elementText page element attr = (withAttribute · attr) <$> pages.elementText page element none := by
  unfold Pages.elementText
  cases pages.expanded page with
  | error error => rfl
  | ok expanded =>
    simp only [bind, Except.bind]
    cases expanded.identifiers.get? element <;> rfl

/-- A name among the linked identifiers of a step that has the text of an element of a page. -/
structure StandsFor (pages : Pages) (known : Identifiers) (name page element : String) : Prop where
  isName : isSegment name.toList = true
  isPage : isSegment page.toList = true
  isElement : isSegment element.toList = true
  imported : page ≠ "elements"
  sameText : ∃ text, known.get? name = some text ∧ pages.elementText page element none = .ok text

namespace StandsFor

variable {pages : Pages} {known : Identifiers} {name page element : String}

theorem componentText_of_asks (standsFor : StandsFor pages known name page element) {component : String}
    {attr : Option String} (asks : attrOf? name component = some attr) :
    ∃ text, componentText pages known component = .ok text ∧
      componentText pages known (Reference.render (.pageElement page element attr)) = .ok text := by
  obtain ⟨rfl, valid⟩ := attrOf?_eq_some_iff.mp asks
  obtain ⟨text, found, looksUp⟩ := standsFor.sameText
  have short := Reference.ofString?_element standsFor.isName valid
  have long := Reference.ofString?_pageElement standsFor.isPage standsFor.imported standsFor.isElement valid
  refine ⟨withAttribute text attr, ?_, ?_⟩
  · rw [componentText, short]
    dsimp only [Identifiers.elementText]
    rw [Identifiers.find, Catalog.find_eq_ok_iff.mpr found]
  · rw [componentText, long]
    dsimp only
    rw [Pages.elementText_attr, looksUp]
    rfl

theorem componentText_spelledOut (standsFor : StandsFor pages known name page element) (component : String) :
    componentText pages known (spelledOut name page element component) = componentText pages known component := by
  unfold spelledOut
  cases asks : attrOf? name component with
  | none => rfl
  | some attr =>
    obtain ⟨text, short, long⟩ := standsFor.componentText_of_asks asks
    rw [short]
    exact long

/-- No component linker fails on one of the two spellings only. -/
theorem verdict_spelledOut (standsFor : StandsFor pages known name page element) {linker : ComponentLinker}
    (member : linker ∈ StatementLinker.standard.components) (component : String) :
    Outcome.verdict (linker (spelledOut name page element component) pages known) =
      Outcome.verdict (linker component pages known) := by
  have succeeds {written text : String} (links : componentText pages known written = .ok text) :
      Outcome.verdict (linker written pages known) = .ok () :=
    Outcome.verdict_eq_ok_iff.mpr (StatementLinker.componentText_succeeds_iff.mp ⟨text, links⟩ linker member)
  unfold spelledOut
  cases asks : attrOf? name component with
  | none => rfl
  | some attr =>
    obtain ⟨text, short, long⟩ := standsFor.componentText_of_asks asks
    exact (succeeds long).trans (succeeds short).symm

end StandsFor

/-! ## Statements and steps -/

namespace StatementLinker

variable {linker : StatementLinker} {pages : Pages} {known : Identifiers} {f : String → String} {statement : Statement}

theorem verdict_link_mapComponents (statement : Statement)
    (agree : ∀ component ∈ linker.components, ∀ text,
      Outcome.verdict (component (f text) pages known) = Outcome.verdict (component text pages known)) :
    Outcome.verdict (linker.link (statement.mapComponents f) pages known) =
      Outcome.verdict (linker.link statement pages known) := by
  have callsMapped : linker.calls (statement.mapComponents f) =
      (linker.calls statement).map (Prod.map id f) := by
    rw [calls, calls, Statement.components_mapComponents]
    simp [SProd.sprod, List.product, List.map_flatMap, Function.comp_def]
  rw [verdict_link, verdict_link, callsMapped, List.forM_map]
  exact Outcome.forM_congr fun call member => agree call.1 (List.mem_product.mp member).1 call.2

/-- A statement that is linked with other components has the same texts if they are linked to the
same texts. -/
theorem texts_result_mapComponents (agree : ∀ text, componentText pages known (f text) = componentText pages known text)
    (links : ∃ answer, standard.link statement pages known = .ok answer)
    (linksMapped : ∃ answer, standard.link (statement.mapComponents f) pages known = .ok answer) :
    (standard.result pages known (statement.mapComponents f)).texts = (standard.result pages known statement).texts := by
  have mapM_map (component : Option String) :
      (component.map f).mapM (componentText pages known) = component.mapM (componentText pages known) := by
    cases component with
    | none => rfl
    | some text => exact congrArg (some <$> ·) (agree text)
  have leaves {written : Statement} (links : ∃ answer, standard.link written pages known = .ok answer) :
      standard.Leaves pages known written (standard.result pages known written) := by
    obtain ⟨answer, succeeds⟩ := links
    exact ⟨answer, succeeds, by rw [result, Pass.result, succeeds]; rfl⟩
  obtain ⟨identifier, value⟩ := standard_leaves (leaves links)
  obtain ⟨identifierMapped, valueMapped⟩ := standard_leaves (leaves linksMapped)
  rw [Statement.identifier?_mapComponents, mapM_map, identifier] at identifierMapped
  rw [Statement.value?_mapComponents, mapM_map, value] at valueMapped
  exact Prod.ext (Except.ok.inj identifierMapped).symm (Except.ok.inj valueMapped).symm

end StatementLinker

namespace Step

/-- Both steps fail with the same error, or both are linked, with the same identifiers and with the
same texts of statements. -/
def LinksAlike (pages : Pages) (step other : Step) : Prop :=
  (∃ error, step.link .standard pages = .error error ∧ other.link .standard pages = .error error) ∨
    ∃ answer otherAnswer, step.link .standard pages = .ok answer ∧ other.link .standard pages = .ok otherAnswer ∧
      (otherAnswer.getD other).identifiers = (answer.getD step).identifiers ∧
      (otherAnswer.getD other).actions.map Statement.texts = (answer.getD step).actions.map Statement.texts ∧
      (otherAnswer.getD other).assertions.map Statement.texts = (answer.getD step).assertions.map Statement.texts

variable {step : Step} {pages : Pages} {name page element : String}

theorem statements_mapComponents (f : String → String) (step : Step) :
    (step.mapComponents f).statements = step.statements.map (Statement.mapComponents f) :=
  List.map_append.symm

section

variable (isName : isSegment name.toList = true) (isPage : isSegment page.toList = true)
  (isElement : isSegment element.toList = true) (imported : page ≠ "elements")
  (declared : step.identifiers.get? name = some (Reference.render (.pageElement page element none)))

include isName isPage isElement imported declared

theorem standsFor (linked : ∀ text ∈ step.identifiers.values, ∃ answer, linkElement text pages .empty = .ok answer) :
    StandsFor pages (step.identifiers.known pages) name page element := by
  obtain ⟨answer, links⟩ := linked _ (OrderedMap.mem_values_iff.mpr ⟨name, declared⟩)
  have reference : Reference.ofString? (Reference.render (.pageElement page element none)) =
      some (.pageElement page element none) :=
    Reference.ofString?_pageElement isPage imported isElement (by simp)
  have known : (step.identifiers.known pages).get? name =
      some (answer.getD (Reference.render (.pageElement page element none))) := by
    rw [Identifiers.known, OrderedMap.get?_map, declared, Option.map_some, Pass.result, links]
    rfl
  simp only [linkElement, reference] at links
  obtain ⟨text, looksUp, rfl⟩ := Outcome.map_eq_ok_iff.mp links
  exact ⟨isName, isPage, isElement, imported, text, known, looksUp⟩

theorem verdict_link_spelledOut (ready : step.isPending = false) :
    Outcome.verdict ((step.spelledOut name page element).link .standard pages) =
      Outcome.verdict (step.link .standard pages) := by
  have readySpelledOut : (step.spelledOut name page element).isPending = false := ready
  rw [verdict_link readySpelledOut, verdict_link ready]
  change (forM step.identifiers.values _ >>= fun _ => _) = _
  cases outcome : forM step.identifiers.values fun text => Outcome.verdict (linkElement text pages .empty) with
  | error error => rfl
  | ok done =>
    cases done
    simp only [Outcome.forM_eq_ok_iff, Outcome.verdict_eq_ok_iff] at outcome
    have standsFor := standsFor isName isPage isElement imported declared outcome
    change forM (step.spelledOut name page element).statements _ = (forM step.statements _ : Except LinkError Unit)
    rw [spelledOut, statements_mapComponents, List.forM_map]
    refine Outcome.forM_congr fun statement _ => ?_
    rw [StatementLinker.linkLocated, StatementLinker.linkLocated, Outcome.verdict_mapError, Outcome.verdict_mapError,
      Statement.source_mapComponents]
    congr 1
    exact StatementLinker.verdict_link_mapComponents statement fun linker member => standsFor.verdict_spelledOut member

theorem texts_mapped_spelledOut (ready : step.isPending = false)
    (links : ∃ answer, step.link .standard pages = .ok answer)
    (linksSpelledOut : ∃ answer, (step.spelledOut name page element).link .standard pages = .ok answer)
    {statements : List Statement} (carried : statements ⊆ step.statements) :
    ((statements.map (Statement.mapComponents (TestLinker.spelledOut name page element))).map
        (StatementLinker.standard.result pages (step.identifiers.known pages))).map Statement.texts =
      (statements.map (StatementLinker.standard.result pages (step.identifiers.known pages))).map Statement.texts := by
  obtain ⟨identifiersLinked, statementsLinked⟩ := (link_succeeds_iff ready).mp links
  have readySpelledOut : (step.spelledOut name page element).isPending = false := ready
  obtain ⟨_, spelledOutLinked⟩ := (link_succeeds_iff readySpelledOut).mp linksSpelledOut
  have standsFor := standsFor isName isPage isElement imported declared identifiersLinked
  rw [List.map_map, List.map_map, List.map_map]
  refine List.map_congr_left fun statement member => ?_
  refine StatementLinker.texts_result_mapComponents standsFor.componentText_spelledOut
    (statementsLinked statement (carried member)) (spelledOutLinked _ ?_)
  rw [spelledOut, statements_mapComponents]
  exact List.mem_map_of_mem (carried member)

end

/-- A step may spell out the elements of pages that it has declared under names of its own. Whether
it does so or not, it is linked with the same error, or to the same texts, or it is kept for ever
by the same page. -/
theorem link_spelledOut (ready : step.isPending = false) (isName : isSegment name.toList = true)
    (isPage : isSegment page.toList = true) (isElement : isSegment element.toList = true)
    (imported : page ≠ "elements")
    (declared : step.identifiers.get? name = some (Reference.render (.pageElement page element none))) :
    step.LinksAlike pages (step.spelledOut name page element) := by
  have readySpelledOut : (step.spelledOut name page element).isPending = false := ready
  have sameVerdict : Outcome.verdict ((step.spelledOut name page element).link .standard pages) =
      Outcome.verdict (step.link .standard pages) :=
    verdict_link_spelledOut isName isPage isElement imported declared ready
  cases links : step.link .standard pages with
  | error error =>
    have fails := sameVerdict.trans (Outcome.verdict_eq_error_iff.mpr links)
    exact .inl ⟨error, links, Outcome.verdict_eq_error_iff.mp fails⟩
  | ok answer =>
    have succeeds := sameVerdict.trans (Outcome.verdict_eq_ok_iff.mpr ⟨answer, links⟩)
    obtain ⟨otherAnswer, otherLinks⟩ := Outcome.verdict_eq_ok_iff.mp succeeds
    have sameTexts {statements : List Statement} (carried : statements ⊆ step.statements) :=
      texts_mapped_spelledOut isName isPage isElement imported declared ready ⟨answer, links⟩
        ⟨otherAnswer, otherLinks⟩ carried
    refine .inr ⟨answer, otherAnswer, links, otherLinks, ?_⟩
    rw [getD_of_link_eq_ok ready links, getD_of_link_eq_ok readySpelledOut otherLinks]
    exact ⟨rfl, sameTexts (List.subset_append_left _ _), sameTexts (List.subset_append_right _ _)⟩

end Step

namespace SubmitExample

def pages : Pages :=
  .ofList [("login", ⟨"login", "http://example.com/", .ofList [("form", "#form"), ("submit", "{{ form }} .submit")]⟩)]

def click (identifier : String) : Statement := .action "Submit the form" (.interaction "click" identifier)

def isLabelled (identifier value : String) : Statement :=
  .assertion "The button has a label" (.comparison identifier "is" value)

/-- Declares a name for the button of the login page, and uses it with and without an attribute. -/
def step (name element label : String) : Step :=
  { Step.empty with
    actions := [click element]
    assertions := [isLabelled label "$elements.title"]
    identifiers := .ofList [(name, "$login.elements.submit"), ("title", "Log in")] }

end SubmitExample

open SubmitExample in
/-- The second step uses a name that it has not declared, so it fails, and so does what it spells out. -/
theorem Step.button_spelledOut :
    (step "button" "$elements.button" "$elements.button.label").spelledOut "button" "login" "submit" =
        step "button" "$login.elements.submit" "$login.elements.submit.label" ∧
      (step "button" "$elements.button" "$elements.button.label").LinksAlike pages
        (step "button" "$login.elements.submit" "$login.elements.submit.label") ∧
      (step "button" "$elements.buttons" "$elements.button").LinksAlike pages
        (step "button" "$elements.buttons" "$login.elements.submit") := by
  have spelledOut : (step "button" "$elements.button" "$elements.button.label").spelledOut "button" "login" "submit" =
      step "button" "$login.elements.submit" "$login.elements.submit.label" := by
    decide +kernel
  have spelledOutFailing : (step "button" "$elements.buttons" "$elements.button").spelledOut "button" "login" "submit" =
      step "button" "$elements.buttons" "$login.elements.submit" := by
    decide +kernel
  rw [← spelledOut, ← spelledOutFailing]
  refine ⟨rfl, ?_, ?_⟩
  · exact Step.link_spelledOut rfl (by decide +kernel) (by decide +kernel) (by decide +kernel) (by decide +kernel)
      (by decide +kernel)
  · exact Step.link_spelledOut rfl (by decide +kernel) (by decide +kernel) (by decide +kernel) (by decide +kernel)
      (by decide +kernel)

namespace SubmitExample

/-- Names the button with a space. -/
def spaced : Step := step "submit button" "$elements.submit button" "#label"

end SubmitExample

open SubmitExample in
/-- A name with a space is no segment, so what looks like a reference to it is a literal, which is
left alone. Spelled out it becomes a reference. -/
theorem Step.spelling_out_changes_literal :
    spaced.isPending = false ∧ isSegment "login".toList = true ∧ isSegment "submit".toList = true ∧
      "login" ≠ "elements" ∧
      spaced.identifiers.get? "submit button" = some (Reference.render (.pageElement "login" "submit" none)) ∧
      spaced.spelledOut "submit button" "login" "submit" = step "submit button" "$login.elements.submit" "#label" ∧
      ¬ spaced.LinksAlike pages (spaced.spelledOut "submit button" "login" "submit") := by
  have keeps : (fun answer => (answer.getD spaced).actions.map Statement.texts) <$> spaced.link .standard pages =
      .ok [(some "$elements.submit button", none)] := by
    decide +kernel
  have spelledOut : spaced.spelledOut "submit button" "login" "submit" =
      step "submit button" "$login.elements.submit" "#label" := by
    decide +kernel
  have looksUp : (fun answer => (answer.getD (step "submit button" "$login.elements.submit" "#label")).actions.map
        Statement.texts) <$> (step "submit button" "$login.elements.submit" "#label").link .standard pages =
      .ok [(some "#form .submit", none)] := by
    decide +kernel
  refine ⟨rfl, by decide +kernel, by decide +kernel, by decide +kernel, by decide +kernel, spelledOut, ?_⟩
  rw [spelledOut]
  rintro (⟨error, fails, _⟩ | ⟨answer, otherAnswer, links, otherLinks, _, sameActions, _⟩)
  · rw [fails] at keeps
    cases keeps
  · rw [links] at keeps
    rw [otherLinks] at looksUp
    have sameTexts : [(some "#form .submit", none)] = [(some "$elements.submit button", none)] :=
      (Except.ok.inj looksUp).symm.trans (sameActions.trans (Except.ok.inj keeps))
    exact absurd sameTexts (by decide)

end TestLinker
