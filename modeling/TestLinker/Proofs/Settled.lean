import TestLinker.Proofs.Components

/-! # References that survive linking

A component is settled if nothing is left to look up in it: it is a literal, or a property
of the page under test. If the pages of a workspace hold only literals, then a linked test
is settled except where a step hands a reference on: the text that it declares for an
element is not looked at again after it has taken the place of `$elements.<name>`, and
neither is what it becomes together with an attribute. `Identifiers.Leaks` says when this
happens, and `Test.link_settles_iff` that it is the only way.
-/

namespace TestLinker

/-- A component in which nothing is left to look up. -/
def IsSettled (component : String) : Prop :=
  Reference.isLiteral component = true ∨ isPageProperty component = true

instance (component : String) : Decidable (IsSettled component) := by
  unfold IsSettled; infer_instance

/-- A literal that no attribute turns into a reference. -/
structure StaysLiteral (text : String) : Prop where
  literal : Reference.isLiteral text = true
  extended : ∀ attr, isSegment attr.toList = true → Reference.isLiteral (text ++ "." ++ attr) = true

/-- Pages whose addresses and expanded texts are no references. -/
structure Pages.HoldLiterals (pages : Pages) : Prop where
  url : ∀ name page, pages.get? name = some page →
    Reference.isLiteral page.url = true ∧ startPage? page.url = none
  text : ∀ name page answer element text, pages.get? name = some page → page.expand = .ok answer →
    (answer.getD page).identifiers.get? element = some text → StaysLiteral text

/-- Every component of the step is settled. -/
def Step.IsSettled (step : Step) : Prop :=
  ∀ statement ∈ step.statements, ∀ component ∈ statement.components, TestLinker.IsSettled component

/-- A component that is replaced by a reference: it names an element whose declared text is
not looked up on a page and, with the attribute asked for, is not settled. -/
def Identifiers.Leaks (identifiers : Identifiers) (component : String) : Prop :=
  ∃ name attr text, Reference.ofString? component = some (.element name attr) ∧
    identifiers.get? name = some text ∧
    (∀ page element suffix, Reference.ofString? text ≠ some (.pageElement page element suffix)) ∧
    ¬ IsSettled (withAttribute text attr)

/-! ## Texts of pages -/

theorem StaysLiteral.withAttribute {text : String} (stays : StaysLiteral text) {attr : Option String}
    (segment : ∀ suffix, attr = some suffix → isSegment suffix.toList = true) :
    StaysLiteral (TestLinker.withAttribute text attr) := by
  cases attr with
  | none => exact stays
  | some suffix =>
    exact ⟨stays.extended suffix (segment suffix rfl), fun second secondSegment =>
      Reference.isLiteral_append_append stays.extended (segment suffix rfl) secondSegment⟩

theorem StaysLiteral.of_toList {text : String} {first : Char} {rest : List Char}
    (characters : text.toList = first :: rest) (plain : first ≠ '$') : StaysLiteral text where
  literal := Reference.isLiteral_iff.mpr
    (Reference.ofString?_eq_none_of_toList (by simp [characters, plain]))
  extended attr _ := Reference.isLiteral_iff.mpr
    (Reference.ofString?_eq_none_of_toList (by simp [String.toList_append, characters, plain]))

theorem staysLiteral_of_elementText {pages : Pages} (literals : pages.HoldLiterals)
    {page name text value : String} {attr : Option String}
    (reference : Reference.ofString? value = some (.pageElement page name attr))
    (looksUp : pages.elementText page name attr = .ok text) : StaysLiteral text := by
  obtain ⟨expanded, expands, finds⟩ := Outcome.bind_eq_ok_iff.mp looksUp
  obtain ⟨stored, found, answers⟩ := Outcome.bind_eq_ok_iff.mp expands
  obtain ⟨answer, expansion, equal⟩ := Outcome.bind_eq_ok_iff.mp answers
  cases equal
  split at finds
  · rename_i declared entry
    cases finds
    have isStored := Catalog.find_eq_ok_iff.mp (Outcome.mapError_eq_ok_iff.mp found)
    refine (literals.text page stored answer name declared isStored expansion entry).withAttribute ?_
    rintro suffix rfl
    exact Reference.isSegment_of_mem_segments reference (by simp [Reference.segments])
  · cases finds

/-! ## Identifiers of steps -/

/-- A linked identifier is a literal of a page, or the declared text as it is. -/
theorem text_of_leaves {pages : Pages} (literals : pages.HoldLiterals) {text result : String}
    (leaves : Pass.Leaves (fun text => linkElement text pages .empty) text result) :
    ((∃ page name attr, Reference.ofString? text = some (.pageElement page name attr)) ∧
        StaysLiteral result) ∨
      ((∀ page name attr, Reference.ofString? text ≠ some (.pageElement page name attr)) ∧
        result = text) := by
  obtain ⟨answer, links, rfl⟩ := leaves
  simp only [linkElement] at links
  split at links
  · -- no identifier is known to the identifiers themselves
    cases links
  · rename_i page name attr reference
    obtain ⟨looked, looksUp, rfl⟩ := Outcome.map_eq_ok_iff.mp links
    exact .inl ⟨⟨page, name, attr, reference⟩, staysLiteral_of_elementText literals reference looksUp⟩
  · rename_i other
    cases links
    exact .inr ⟨fun page name attr => other page name attr, rfl⟩

theorem elementText_eq_ok {identifiers : Identifiers} {name text : String} {attr : Option String}
    (looksUp : identifiers.elementText name attr = .ok text) :
    ∃ declared, identifiers.get? name = some declared ∧ text = withAttribute declared attr := by
  unfold Identifiers.elementText at looksUp
  split at looksUp
  · rename_i declared found
    cases looksUp
    exact ⟨declared, Catalog.find_eq_ok_iff.mp found, rfl⟩
  · cases looksUp

/-! ## Linked statements -/

section

variable {pages : Pages} {identifiers known : Identifiers}

theorem Identifiers.not_leaks {component : String}
    (reference : ∀ name attr, Reference.ofString? component ≠ some (.element name attr)) :
    ¬ identifiers.Leaks component := by
  rintro ⟨name, attr, _, isElement, _⟩
  exact reference name attr isElement

theorem Identifiers.leaks_iff {component name text : String} {attr : Option String}
    (reference : Reference.ofString? component = some (.element name attr))
    (declared : identifiers.get? name = some text) :
    identifiers.Leaks component ↔
      (∀ page element suffix, Reference.ofString? text ≠ some (.pageElement page element suffix)) ∧
        ¬ IsSettled (withAttribute text attr) := by
  constructor
  · rintro ⟨otherName, otherAttr, other, otherReference, otherDeclared, offPage, unsettled⟩
    cases reference.symm.trans otherReference
    cases declared.symm.trans otherDeclared
    exact ⟨offPage, unsettled⟩
  · rintro ⟨offPage, unsettled⟩
    exact ⟨name, attr, text, reference, declared, offPage, unsettled⟩

theorem elementText_settled_iff (literals : pages.HoldLiterals) (knows : identifiers.Leaves pages known)
    {component name text : String} {attr : Option String}
    (reference : Reference.ofString? component = some (.element name attr))
    (looksUp : known.elementText name attr = .ok text) :
    IsSettled text ↔ ¬ identifiers.Leaks component := by
  obtain ⟨linked, found, rfl⟩ := elementText_eq_ok looksUp
  obtain ⟨declared, isDeclared, leaves⟩ := OrderedMap.EntriesRelated.get?_of_image knows found
  rw [Identifiers.leaks_iff reference isDeclared]
  rcases text_of_leaves literals leaves with ⟨⟨page, element, suffix, onPage⟩, stays⟩ | ⟨offPage, rfl⟩
  · have settled : StaysLiteral (withAttribute linked attr) := by
      apply stays.withAttribute
      rintro segment rfl
      exact Reference.isSegment_of_mem_segments reference (by simp [Reference.segments])
    -- a text that is looked up on a page cannot leak
    exact iff_of_true (.inl settled.literal) fun leaks => leaks.1 page element suffix onPage
  · constructor
    · exact fun settled leaks => leaks.2 settled
    · intro tight
      by_contra unsettled
      exact tight ⟨offPage, unsettled⟩

theorem componentText_settled_iff (literals : pages.HoldLiterals)
    (knows : identifiers.Leaves pages known) {component text : String}
    (links : componentText pages known component = .ok text) :
    IsSettled text ↔ ¬ identifiers.Leaks component := by
  unfold componentText at links
  split at links
  · rename_i literal
    cases links
    exact iff_of_true (.inl (Reference.isLiteral_iff.mpr literal))
      (Identifiers.not_leaks (by simp [literal]))
  · rename_i name attr reference
    exact elementText_settled_iff literals knows reference links
  · rename_i page name attr reference
    exact iff_of_true (.inl (staysLiteral_of_elementText literals reference links).literal)
      (Identifiers.not_leaks (by simp [reference]))
  · rename_i page reference
    refine iff_of_true ?_ (Identifiers.not_leaks (by simp [reference]))
    split at links
    · rename_i property
      cases links
      exact .inr property
    · obtain ⟨url, looksUp, rfl⟩ := Outcome.map_eq_ok_iff.mp links
      obtain ⟨stored, isStored, rfl⟩ := Pages.url_eq_ok looksUp
      have literal := (literals.url page stored isStored).1
      -- the address is a literal, so it is not the reference to it
      have different : stored.url ≠ component := by
        rintro rfl
        rw [Reference.isLiteral_iff, reference] at literal
        cases literal
      rw [if_neg different]
      exact .inl (Reference.isLiteral_quoted stored.url)

theorem settled_iff_of_mapM (literals : pages.HoldLiterals) (knows : identifiers.Leaves pages known)
    {component text : Option String} (links : component.mapM (componentText pages known) = .ok text) :
    (∀ result ∈ text.toList, IsSettled result) ↔
      ∀ written ∈ component.toList, ¬ identifiers.Leaks written := by
  cases component with
  | none => cases links; simp
  | some written =>
    obtain ⟨result, linked, rfl⟩ := Outcome.map_eq_ok_iff.mp links
    simpa using componentText_settled_iff literals knows linked

theorem statement_settled_iff (literals : pages.HoldLiterals) (knows : identifiers.Leaves pages known)
    {written result : Statement} (leaves : StatementLinker.standard.Leaves pages known written result) :
    (∀ component ∈ result.components, IsSettled component) ↔
      ∀ component ∈ written.components, ¬ identifiers.Leaks component := by
  obtain ⟨identifierLinked, valueLinked⟩ := StatementLinker.standard_leaves leaves
  simp only [Statement.components, List.forall_mem_append,
    settled_iff_of_mapM literals knows identifierLinked, settled_iff_of_mapM literals knows valueLinked]

end

/-! ## Linked steps and tests -/

/-- A linked step is settled unless a statement of its lineage has a component that leaks. -/
theorem Step.Linkage.settled_iff {workspace : Workspace} {step linked : Step} {lineage : List Step}
    {known : Identifiers} (literals : workspace.pages.HoldLiterals)
    (linkage : Step.Linkage .standard workspace step linked lineage known) :
    linked.IsSettled ↔ ∀ ancestor ∈ lineage, ∀ statement ∈ ancestor.statements,
      ∀ component ∈ statement.components, ¬ step.identifiers.Leaks component := by
  have agree (written result : Statement)
      (leaves : StatementLinker.standard.Leaves workspace.pages known written result) :=
    statement_settled_iff literals linkage.knows leaves
  simp only [Step.IsSettled, Step.statements, List.forall_mem_append,
    Outcome.forall_mem_iff_of_forall₂ linkage.actions agree,
    Outcome.forall_mem_iff_of_forall₂ linkage.assertions agree,
    List.mem_flatMap, List.mem_reverse]
  constructor
  · rintro ⟨inActions, inAssertions⟩ ancestor member
    exact ⟨fun statement inAncestor => inActions statement ⟨ancestor, member, inAncestor⟩,
      fun statement inAncestor => inAssertions statement ⟨ancestor, member, inAncestor⟩⟩
  · intro tight
    refine ⟨?_, ?_⟩
    · rintro statement ⟨ancestor, member, inAncestor⟩
      exact (tight ancestor member).1 statement inAncestor
    · rintro statement ⟨ancestor, member, inAncestor⟩
      exact (tight ancestor member).2 statement inAncestor

/-- If the pages hold only literals, the start URL of a linked test is no reference, and
its components are settled exactly if no statement that a step has or inherits has a
component that leaks from the identifiers of the step. -/
theorem Test.link_settles_iff {test linked : Test} {workspace : Workspace}
    (literals : workspace.pages.HoldLiterals) (succeeds : test.link .standard workspace = .ok linked) :
    startPage? linked.configuration.url = none ∧
      ((∀ name result, linked.steps.get? name = some result → result.IsSettled) ↔
        ∀ name step lineage, test.steps.get? name = some step →
          step.HasLineage workspace.steps lineage → ∀ ancestor ∈ lineage,
            ∀ statement ∈ ancestor.statements, ∀ component ∈ statement.components,
              ¬ step.identifiers.Leaks component) := by
  obtain ⟨configuration, configurationLinked, _, result, stepsLinked⟩ := Test.link_eq_ok succeeds
  constructor
  · rw [result]
    rcases Configuration.link_eq_ok configurationLinked with ⟨plain, kept⟩ | ⟨name, page, _, stored, replaced⟩
    · rw [kept]
      exact plain
    · rw [replaced]
      exact (literals.url name page stored).2
  · constructor
    · intro settled name step lineage declared ancestry
      obtain ⟨linkedStep, found, stepLinked⟩ := stepsLinked.get? declared
      obtain ⟨_, known, linkage⟩ := Step.linkFully_eq_ok stepLinked
      cases ancestry.unique linkage.ancestry
      exact (linkage.settled_iff literals).mp (settled name linkedStep found)
    · intro tight name linkedStep found
      obtain ⟨step, declared, stepLinked⟩ := stepsLinked.get?_of_image found
      obtain ⟨lineage, known, linkage⟩ := Step.linkFully_eq_ok stepLinked
      exact (linkage.settled_iff literals).mpr (tight name step lineage declared linkage.ancestry)

namespace LoginExample

def page : Page where
  importName := "login"
  url := "http://example.com/"
  identifiers := .ofList [("form", ".form"), ("name", "\x7b\x7b form \x7d\x7d .name")]

def enterName : Step where
  actions := [.action "Type $user.name into $login.elements.name" (.input "$login.elements.name" "$user.name")]
  assertions := []
  importName := none
  dataImportName := none
  identifiers := .empty
  data := none

def workspace : Workspace := ⟨.ofList [("login", page)], .ofList [("enter name", enterName)], .empty⟩

def clickOnSubmit : Statement := .action "Click on $elements.submit" (.interaction "click" "$elements.submit")

def staysOnPage : Statement :=
  .assertion "$page.url equals $login.url" (.comparison "$page.url" "equals" "$login.url")

/-- Enters the name, then clicks on an element that it declares itself. -/
def step (submit : String) : Step where
  actions := [clickOnSubmit]
  assertions := [staysOnPage]
  importName := some "enter name"
  dataImportName := none
  identifiers := .ofList [("submit", submit)]
  data := none

def test (submit : String) : Test := ⟨"login.yml", ⟨["chrome"], "login.url"⟩, .ofList [("login", step submit)]⟩

def linkedStep (submit : String) : Step where
  actions := enterName.actions.map (.linked · (some ".form .name") (some "$user.name")) ++
    [.linked clickOnSubmit (some submit) none]
  assertions := [.linked staysOnPage (some "$page.url") (some "\"http://example.com/\"")]
  importName := none
  dataImportName := none
  identifiers := .empty
  data := none

def linkedTest (submit : String) : Test :=
  ⟨"login.yml", ⟨["chrome"], "http://example.com/"⟩, .ofList [("login", linkedStep submit)]⟩

theorem holdLiterals : workspace.pages.HoldLiterals := by
  have isPage {name : String} {stored : Page} (found : workspace.pages.get? name = some stored) :
      stored = page := by
    have member := OrderedMap.get?_eq_some_iff.mp found
    exact (Prod.mk.inj (List.mem_singleton.mp member)).2
  have expansion : page.expand =
      .ok (some { page with identifiers := .ofList [("form", ".form"), ("name", ".form .name")] }) := by
    decide +kernel
  refine ⟨?_, ?_⟩
  · intro name stored found
    cases isPage found
    decide +kernel
  · intro name stored answer element text found expands entry
    cases isPage found
    cases expansion.symm.trans expands
    have member := OrderedMap.get?_eq_some_iff.mp entry
    have texts : text = ".form" ∨ text = ".form .name" := by
      rcases List.mem_cons.mp member with first | others
      · exact .inl (Prod.mk.inj first).2
      · exact .inr (Prod.mk.inj (List.mem_singleton.mp others)).2
    rcases texts with rfl | rfl <;> exact StaysLiteral.of_toList (by rfl) (by decide)

end LoginExample

open LoginExample in
/-- The text of an element of the page is settled, so neither the step nor the step that it
imports leaks. -/
theorem Test.nothing_leaks_from_login :
    (test "$login.elements.form").link .standard workspace = .ok (linkedTest ".form") ∧
      ∀ lineage, (step "$login.elements.form").HasLineage workspace.steps lineage →
        ∀ ancestor ∈ lineage, ∀ statement ∈ ancestor.statements,
          ∀ component ∈ statement.components,
            ¬ (step "$login.elements.form").identifiers.Leaks component := by
  have links : (test "$login.elements.form").link .standard workspace = .ok (linkedTest ".form") := by
    decide +kernel
  refine ⟨links, fun lineage => (Test.link_settles_iff holdLiterals links).2.mp ?_ "login" _ lineage (by rfl)⟩
  intro name result found
  have member := OrderedMap.get?_eq_some_iff.mp found
  cases (Prod.mk.inj (List.mem_singleton.mp member)).2
  unfold Step.IsSettled
  decide +kernel

open LoginExample in
/-- The address of the page takes the place of the element as the reference that it is. -/
theorem Test.link_leaves_reference :
    ∃ test workspace linked, workspace.pages.HoldLiterals ∧
      Test.link test .standard workspace = .ok linked ∧
      ∃ name result, linked.steps.get? name = some result ∧ ¬ result.IsSettled := by
  refine ⟨test "$login.url", workspace, linkedTest "$login.url", holdLiterals, by decide +kernel, ?_⟩
  refine ⟨"login", linkedStep "$login.url", by rfl, ?_⟩
  intro settled
  have unsettled : ¬ IsSettled "$login.url" := by decide +kernel
  exact unsettled (settled (.linked clickOnSubmit (some "$login.url") none)
    (by simp [Step.statements, linkedStep]) "$login.url" (by simp [Statement.components, Statement.identifier?]))

end TestLinker
