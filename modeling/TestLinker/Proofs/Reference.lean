import TestLinker.Component

/-! # Reading references that are written in two parts

An attribute is appended to the text of an element as one more segment, so the result may
be a reference although the text is none. Reading it is reading the segments of the text
and then the attribute (`ofString?_append`). If a text is a literal and stays one with
every attribute, then it is also a literal with two attributes in turn
(`isLiteral_append_append`).
-/

namespace TestLinker.Reference

theorem isLiteral_iff {value : String} : isLiteral value = true ↔ ofString? value = none := by
  simp [isLiteral]

theorem segments_of_ofSegments? {parts : List String} {reference : Reference}
    (accepted : ofSegments? parts = some reference) : reference.segments = parts := by
  unfold ofSegments? at accepted
  split at accepted <;> cases accepted <;> rfl

/-- The parts of a value that starts with a dollar sign decide what it refers to. -/
theorem ofString?_of_toList {value : String} {body : List Char} (dollar : value.toList = '$' :: body) :
    ofString? value =
      if (body.splitOn '.').all isSegment then ofSegments? ((body.splitOn '.').map String.ofList)
      else none := by
  simp [ofString?, dollar]

theorem ofString?_eq_none_of_toList {value : String} (plain : ∀ body, value.toList ≠ '$' :: body) :
    ofString? value = none := by
  unfold ofString?
  split
  · rename_i body dollar
    exact absurd dollar (plain body)
  · rfl

/-- A reference is read from the segments behind the dollar sign, all of which are kept. -/
theorem exists_segments_of_ofString? {value : String} {reference : Reference}
    (accepted : ofString? value = some reference) :
    ∃ body, value.toList = '$' :: body ∧ (body.splitOn '.').all isSegment = true ∧
      reference.segments = (body.splitOn '.').map String.ofList := by
  cases characters : value.toList with
  | nil =>
    rw [ofString?_eq_none_of_toList (by simp [characters])] at accepted
    cases accepted
  | cons first body =>
    by_cases dollar : first = '$'
    · subst dollar
      rw [ofString?_of_toList characters] at accepted
      split at accepted
      · rename_i valid
        exact ⟨body, rfl, valid, segments_of_ofSegments? accepted⟩
      · cases accepted
    · rw [ofString?_eq_none_of_toList (by simp [characters, dollar])] at accepted
      cases accepted

theorem isSegment_of_mem_segments {value : String} {reference : Reference}
    (accepted : ofString? value = some reference) {segment : String}
    (member : segment ∈ reference.segments) : isSegment segment.toList = true := by
  obtain ⟨body, _, valid, segments⟩ := exists_segments_of_ofString? accepted
  rw [segments] at member
  obtain ⟨part, partMember, rfl⟩ := List.mem_map.mp member
  rw [String.toList_ofList]
  exact List.all_eq_true.mp valid part partMember

/-- Of the properties of the page under test one looks like the address of a page called `page`. -/
theorem ofString?_of_isPageProperty {value : String} (property : isPageProperty value = true) :
    ofString? value = none ∨ ofString? value = some (.pageUrl "page") := by
  simp only [isPageProperty, Bool.or_eq_true, beq_iff_eq] at property
  rcases property with rfl | rfl
  · exact .inr (by decide +kernel)
  · exact .inl (by decide +kernel)

theorem not_mem_of_isSegment {text : List Char} (segment : isSegment text = true) : '.' ∉ text := by
  intro member
  simp only [isSegment, Bool.and_eq_true, List.all_eq_true] at segment
  exact absurd (segment.2 '.' member) (by decide)

theorem splitOn_append {body text : List Char} (segment : isSegment text = true) :
    (body ++ '.' :: text).splitOn '.' = body.splitOn '.' ++ [text] := by
  rw [List.splitOn_append_cons_self, List.splitOn_eq_singleton (not_mem_of_isSegment segment)]

theorem toList_append_attribute {value attr : String} {body : List Char}
    (dollar : value.toList = '$' :: body) :
    (value ++ "." ++ attr).toList = '$' :: (body ++ '.' :: attr.toList) := by
  simp [String.toList_append, dollar]

theorem ofString?_append {value attr : String} {body : List Char}
    (dollar : value.toList = '$' :: body) (segment : isSegment attr.toList = true) :
    ofString? (value ++ "." ++ attr) =
      if (body.splitOn '.').all isSegment then
        ofSegments? ((body.splitOn '.').map String.ofList ++ [attr])
      else none := by
  rw [ofString?_of_toList (toList_append_attribute dollar), splitOn_append segment]
  simp [segment, String.ofList_toList]

/-! ## Reading what is written -/

theorem toList_render (reference : Reference) :
    reference.render.toList = '$' :: ['.'].intercalate (reference.segments.map String.toList) := by
  rw [render, String.toList_append, String.toList_intercalate]
  rfl

theorem segments_ne_nil (reference : Reference) : reference.segments ≠ [] := by
  cases reference <;> simp [segments]

theorem ofString?_render {reference : Reference}
    (valid : ∀ segment ∈ reference.segments, isSegment segment.toList = true) :
    ofString? reference.render = ofSegments? reference.segments := by
  have dotless : ∀ part ∈ reference.segments.map String.toList, '.' ∉ part :=
    List.forall_mem_map.mpr fun segment member => not_mem_of_isSegment (valid segment member)
  have nonempty : reference.segments.map String.toList ≠ [] := by simpa using reference.segments_ne_nil
  rw [ofString?_of_toList reference.toList_render, List.splitOn_intercalate _ dotless nonempty]
  simp [List.all_eq_true.mpr valid, Function.comp_def, List.all_map]

theorem ofSegments?_element (name : String) (attr : Option String) :
    ofSegments? (segments (.element name attr)) = some (.element name attr) := by
  cases attr <;> rfl

/-- The name `elements` belongs to the elements of the step and not to a page. -/
theorem ofSegments?_pageElement {page : String} (imported : page ≠ "elements") (name : String) (attr : Option String) :
    ofSegments? (segments (.pageElement page name attr)) = some (.pageElement page name attr) := by
  cases attr <;> simp [segments, ofSegments?]

section

variable {page element : String} {attr : Option String}

theorem isSegment_elements : isSegment "elements".toList = true := by decide +kernel

theorem ofString?_element (isElement : isSegment element.toList = true)
    (isAttribute : ∀ suffix ∈ attr, isSegment suffix.toList = true) :
    ofString? (render (.element element attr)) = some (.element element attr) := by
  rw [ofString?_render, ofSegments?_element]
  have rest : ∀ segment ∈ attr.toList, isSegment segment.toList = true := by simpa using isAttribute
  exact List.forall_mem_cons.mpr ⟨isSegment_elements, List.forall_mem_cons.mpr ⟨isElement, rest⟩⟩

theorem ofString?_pageElement (isPage : isSegment page.toList = true) (imported : page ≠ "elements")
    (isElement : isSegment element.toList = true) (isAttribute : ∀ suffix ∈ attr, isSegment suffix.toList = true) :
    ofString? (render (.pageElement page element attr)) = some (.pageElement page element attr) := by
  rw [ofString?_render, ofSegments?_pageElement imported]
  have rest : ∀ segment ∈ attr.toList, isSegment segment.toList = true := by simpa using isAttribute
  exact List.forall_mem_cons.mpr ⟨isPage, List.forall_mem_cons.mpr ⟨isSegment_elements,
    List.forall_mem_cons.mpr ⟨isElement, rest⟩⟩⟩

end

/-! ## References and attributes -/

/-- If no attribute makes a reference of some segments, then no two attributes do. -/
theorem ofSegments?_append_append {parts : List String} (nonempty : parts ≠ [])
    (closed : ∀ attr, isSegment attr.toList = true → ofSegments? (parts ++ [attr]) = none)
    {first second : String} (firstSegment : isSegment first.toList = true) :
    ofSegments? (parts ++ [first] ++ [second]) = none := by
  match parts with
  | [] => exact absurd rfl nonempty
  | [head] =>
    have attached := closed first firstSegment
    have address := closed "url" (by decide +kernel)
    simp only [List.cons_append, List.nil_append] at attached address ⊢
    by_cases own : head = "elements"
    · simp [ofSegments?, own] at attached
    · by_cases page : first = "elements"
      · simp [ofSegments?] at address
      · simp [ofSegments?, own, page]
  | [head, next] =>
    have attached := closed first firstSegment
    simp only [List.cons_append, List.nil_append] at attached ⊢
    by_cases elements : next = "elements"
    · subst elements
      by_cases own : head = "elements" <;> simp [ofSegments?, own] at attached
    · simp [ofSegments?, elements]
  | _ :: _ :: _ :: rest => cases rest <;> simp [ofSegments?]

theorem isLiteral_append_append {value : String}
    (closed : ∀ attr : String, isSegment attr.toList = true → isLiteral (value ++ "." ++ attr) = true)
    {first second : String} (firstSegment : isSegment first.toList = true)
    (secondSegment : isSegment second.toList = true) :
    isLiteral (value ++ "." ++ first ++ "." ++ second) = true := by
  rw [isLiteral_iff]
  cases characters : value.toList with
  | nil => exact ofString?_eq_none_of_toList (by simp [String.toList_append, characters])
  | cons head body =>
    by_cases dollar : head = '$'
    · subst dollar
      rw [ofString?_append (toList_append_attribute characters) secondSegment, splitOn_append firstSegment]
      split
      · rename_i valid
        simp only [List.all_append, Bool.and_eq_true] at valid
        rw [List.map_append, List.map_singleton, String.ofList_toList]
        refine ofSegments?_append_append (by simp) ?_ firstSegment
        intro attr segment
        have literal := isLiteral_iff.mp (closed attr segment)
        rwa [ofString?_append characters segment, if_pos valid.1] at literal
      · rfl
    · exact ofString?_eq_none_of_toList (by simp [String.toList_append, characters, dollar])

theorem isLiteral_quoted (text : String) : isLiteral (Text.quoted text) = true :=
  isLiteral_iff.mpr (ofString?_eq_none_of_toList (by simp [Text.quoted, String.toList_append]))

end TestLinker.Reference
