import TestLinker.Proofs.Answers
import TestLinker.Proofs.Linkage
import TestLinker.Proofs.Reference

/-! # Component by component

The standard linker tries both component linkers on both components of a statement and
keeps the last answers. Read component by component (`standard_leaves`), each component is
replaced by what its reference names, `componentText`, and nothing else is looked at.
-/

namespace TestLinker

/-- The text that the standard linker leaves of a component. An address is put between
double quotes, except that a page property is kept, and so is an address that is the
component itself. -/
def componentText (pages : Pages) (identifiers : Identifiers) (component : String) :
    Except LinkError String :=
  match Reference.ofString? component with
  | none => .ok component
  | some (.element name attr) => identifiers.elementText name attr
  | some (.pageElement page name attr) => pages.elementText page name attr
  | some (.pageUrl page) =>
    if isPageProperty component then .ok component
    else (fun url => if url = component then component else Text.quoted url) <$> pages.url page

@[simp] theorem changedFrom_none (component : String) : changedFrom component none = none := rfl

@[simp] theorem changedFrom_some (component text : String) :
    changedFrom component (some text) = if text = component then none else some text := by
  by_cases same : text = component <;> simp [changedFrom, same, Option.filter]

theorem getD_changedFrom (component : String) (text : Option String) :
    (changedFrom component text).getD component = text.getD component := by
  cases text with
  | none => rfl
  | some text => by_cases same : text = component <;> simp [same]

section

variable {pages : Pages} {identifiers : Identifiers} {component : String}

/-- Every reference to an element is looked up, whatever the text that is found. -/
theorem linkElement_eq_none_iff :
    linkElement component pages identifiers = .ok none ↔
      (∀ name attr, Reference.ofString? component ≠ some (.element name attr)) ∧
        ∀ page name attr, Reference.ofString? component ≠ some (.pageElement page name attr) := by
  have looksUp (found : Except LinkError String) : some <$> found ≠ .ok none := by
    cases found <;> simp
  unfold linkElement
  split
  · rename_i name attr reference
    exact iff_of_false (looksUp _) fun other => other.1 name attr reference
  · rename_i page name attr reference
    exact iff_of_false (looksUp _) fun other => other.2 page name attr reference
  · rename_i element pageElement
    exact iff_of_true rfl ⟨fun name attr => element name attr, fun page name attr => pageElement page name attr⟩

theorem elementComponent_eq_none (element : ∀ name attr, Reference.ofString? component ≠ some (.element name attr))
    (pageElement : ∀ page name attr, Reference.ofString? component ≠ some (.pageElement page name attr)) :
    elementComponent component pages identifiers = .ok none := by
  rw [elementComponent, linkElement_eq_none_iff.mpr ⟨element, pageElement⟩]
  rfl

theorem urlComponent_eq_none (address : ∀ page, Reference.ofString? component ≠ some (.pageUrl page)) :
    urlComponent component pages identifiers = .ok none := by
  have none : linkPageUrl component pages = .ok none := by
    unfold linkPageUrl
    split
    · rename_i page reference
      exact absurd reference (address page)
    · rfl
  rw [urlComponent, none]
  exact ite_self _

/-- No component is the concern of both component linkers. -/
theorem elementComponent_or_urlComponent_eq_none (component : String) (pages : Pages) (identifiers : Identifiers) :
    elementComponent component pages identifiers = .ok none ∨ urlComponent component pages identifiers = .ok none := by
  by_cases address : ∃ page, Reference.ofString? component = some (.pageUrl page)
  · obtain ⟨page, reference⟩ := address
    exact .inl (elementComponent_eq_none (by simp [reference]) (by simp [reference]))
  · exact .inr (urlComponent_eq_none (not_exists.mp address))

/-- The text of a component is the last answer of the two component linkers for it. -/
theorem componentText_eq_answers (component : String) (pages : Pages) (identifiers : Identifiers) :
    componentText pages identifiers component = do
      let element ← elementComponent component pages identifiers
      let url ← urlComponent component pages identifiers
      return (url.or element).getD component := by
  have lookedUp (found : Except LinkError String) :
      found = (fun element => element.getD component) <$> changedFrom component <$> some <$> found := by
    cases found with
    | error error => rfl
    | ok text => exact congrArg Except.ok (getD_changedFrom component (some text)).symm
  unfold componentText
  cases reference : Reference.ofString? component with
  | none =>
    rw [elementComponent_eq_none (by simp [reference]) (by simp [reference]), urlComponent_eq_none (by simp [reference])]
    rfl
  | some target =>
    cases target with
    | element name attr | pageElement page name attr =>
      rw [urlComponent_eq_none (by simp [reference]), elementComponent, linkElement, reference]
      exact lookedUp _
    | pageUrl page =>
      rw [elementComponent_eq_none (by simp [reference]) (by simp [reference]), urlComponent, linkPageUrl, reference]
      dsimp only
      cases isPageProperty component with
      | true => rfl
      | false =>
        cases pages.url page with
        | error error => rfl
        | ok address => by_cases same : address = component <;> simp [same] <;> rfl

end

namespace StatementLinker

variable {pages : Pages} {identifiers : Identifiers} {linker : StatementLinker}

theorem componentText_of_answer {component : ComponentLinker} (member : component ∈ standard.components)
    {written text : String} (answers : component written pages identifiers = .ok (some text)) :
    componentText pages identifiers written = .ok text := by
  have silent := elementComponent_or_urlComponent_eq_none written pages identifiers
  rw [componentText_eq_answers]
  rcases mem_standard_iff.mp member with rfl | rfl
  · rw [answers, silent.resolve_left (by simp [answers])]
    rfl
  · rw [answers, silent.resolve_right (by simp [answers])]
    rfl

theorem componentText_of_error {component : ComponentLinker} (member : component ∈ standard.components)
    {written : String} {error : LinkError} (fails : component written pages identifiers = .error error) :
    componentText pages identifiers written = .error error := by
  have silent := elementComponent_or_urlComponent_eq_none written pages identifiers
  rw [componentText_eq_answers]
  rcases mem_standard_iff.mp member with rfl | rfl
  · rw [fails]
    rfl
  · rw [fails, silent.resolve_right (by simp [fails])]
    rfl

theorem componentText_of_silent {written : String}
    (silent : ∀ component ∈ standard.components, component written pages identifiers = .ok none) :
    componentText pages identifiers written = .ok written := by
  rw [componentText_eq_answers, silent _ (mem_standard_iff.mpr (.inl rfl)), silent _ (mem_standard_iff.mpr (.inr rfl))]
  rfl

/-- The order in which the two component linkers are called has no influence on the text. -/
theorem componentText_eq_textOf (order : linker.components.Perm standard.components) {written : String}
    (succeed : ∀ component ∈ standard.components, ∃ answer, component written pages identifiers = .ok answer) :
    componentText pages identifiers written = .ok (linker.textOf pages identifiers written) := by
  rw [textOf]
  cases last : lastAnswer pages identifiers linker.components written with
  | none =>
    refine componentText_of_silent fun component member => ?_
    obtain ⟨answer, answers⟩ := succeed component member
    have silent := lastAnswer_eq_none_iff.mp last component (order.mem_iff.mpr member)
    rw [answers] at silent ⊢
    exact congrArg Except.ok silent
  | some text =>
    obtain ⟨component, reversed, found⟩ := List.exists_of_findSome?_eq_some last
    have member := order.mem_iff.mp (List.mem_reverse.mp reversed)
    obtain ⟨answer, answers⟩ := succeed component member
    rw [answers] at found
    exact componentText_of_answer member (answers.trans (congrArg Except.ok found))

theorem mapM_componentText (order : linker.components.Perm standard.components) {written : Option String}
    (succeed : ∀ component ∈ standard.components, ∀ text ∈ written.toList,
      ∃ answer, component text pages identifiers = .ok answer) :
    written.mapM (componentText pages identifiers) = .ok (written.map (linker.textOf pages identifiers)) := by
  cases written with
  | none => rfl
  | some text =>
    have linked := componentText_eq_textOf order fun component member => succeed component member text (by simp)
    rw [Option.mapM_some, linked]
    rfl

/-- What the standard linker leaves of a statement carries the text of each component. -/
theorem standard_leaves {written result : Statement} (leaves : standard.Leaves pages identifiers written result) :
    written.identifier?.mapM (componentText pages identifiers) = .ok result.identifier? ∧
      written.value?.mapM (componentText pages identifiers) = .ok result.value? := by
  obtain ⟨answer, links, rfl⟩ := leaves
  obtain ⟨identifier, value⟩ := textOf_of_link_eq_ok links
  have succeed := link_succeeds_iff.mp ⟨answer, links⟩
  rw [identifier, value]
  exact ⟨mapM_componentText (.refl _) fun component member text inIdentifier =>
      succeed component member text (List.mem_append_left _ inIdentifier),
    mapM_componentText (.refl _) fun component member text inValue =>
      succeed component member text (List.mem_append_right _ inValue)⟩

end StatementLinker

end TestLinker
