import TestLinker.Proofs.Reference

/-! # The grammar of references

A value is a reference exactly if it is written in one of the five forms, with segments for
the page, the name and the attribute. Reading and writing are inverse to each other
(`ofString?_eq_some_iff`) except for two kinds of references: what would be the address of a page
called `elements`, or an element of such a page, is read as an element of the step, because the
forms of the step come first (`readBack`).
-/

namespace TestLinker

/-- A segment of a reference: ASCII letters, digits, `_` and `-`, and at least one of them. -/
structure Segment (text : String) : Prop where
  nonempty : text ≠ ""
  chars : ∀ c ∈ text.toList,
    ('A' ≤ c ∧ c ≤ 'Z') ∨ ('a' ≤ c ∧ c ≤ 'z') ∨ ('0' ≤ c ∧ c ≤ '9') ∨ c = '_' ∨ c = '-'

theorem isSegmentChar_iff {c : Char} :
    isSegmentChar c = true ↔
      ('A' ≤ c ∧ c ≤ 'Z') ∨ ('a' ≤ c ∧ c ≤ 'z') ∨ ('0' ≤ c ∧ c ≤ '9') ∨ c = '_' ∨ c = '-' := by
  have upper : c.isUpper = true ↔ 'A' ≤ c ∧ c ≤ 'Z' := decide_eq_true_iff
  have between (low high : Char) : (decide (low ≤ c) && decide (c ≤ high)) = true ↔ low ≤ c ∧ c ≤ high := by
    rw [Bool.and_eq_true, decide_eq_true_eq, decide_eq_true_eq]
  change (c.isUpper || c.isLower || c.isDigit || c == '_' || c == '-') = true ↔ _
  simp only [Bool.or_eq_true, beq_iff_eq, or_assoc]
  exact or_congr upper (or_congr (between 'a' 'z') (or_congr (between '0' '9') Iff.rfl))

theorem isSegment_iff {text : String} : isSegment text.toList = true ↔ Segment text := by
  rw [isSegment, Bool.and_eq_true, List.all_eq_true]
  constructor
  · rintro ⟨nonempty, chars⟩
    exact ⟨by simpa using nonempty, fun c member => isSegmentChar_iff.mp (chars c member)⟩
  · rintro ⟨nonempty, chars⟩
    exact ⟨by simpa using nonempty, fun c member => isSegmentChar_iff.mpr (chars c member)⟩

namespace Reference

/-- The five forms. -/
def written : Reference → String
  | element name none => "$elements." ++ name
  | element name (some attr) => "$elements." ++ name ++ "." ++ attr
  | pageElement page name none => "$" ++ page ++ ".elements." ++ name
  | pageElement page name (some attr) => "$" ++ page ++ ".elements." ++ name ++ "." ++ attr
  | pageUrl page => "$" ++ page ++ ".url"

/-- A reference whose page, name and attribute are segments. -/
def Valid : Reference → Prop
  | element name attr => Segment name ∧ ∀ suffix ∈ attr, Segment suffix
  | pageElement page name attr => Segment page ∧ Segment name ∧ ∀ suffix ∈ attr, Segment suffix
  | pageUrl page => Segment page

theorem render_eq_written (reference : Reference) : reference.render = reference.written := by
  apply String.toList_inj.mp
  rcases reference with ⟨name, _ | attr⟩ | ⟨page, name, _ | attr⟩ | page <;>
    simp [toList_render, segments, written]

theorem segment_elements : Segment "elements" := isSegment_iff.mp isSegment_elements

theorem segment_url : Segment "url" := isSegment_iff.mp (by decide +kernel)

theorem valid_iff {reference : Reference} :
    reference.Valid ↔ ∀ segment ∈ reference.segments, isSegment segment.toList = true := by
  simp only [isSegment_iff]
  cases reference <;> simp [Valid, segments, segment_elements, segment_url]

/-! ## Reading what is written -/

/-- What a reference is read as when it is written. The name `elements` belongs to the step, so
it is not taken for the name of a page unless that is the only form that fits. -/
def readBack : Reference → Reference
  | element name attr => element name attr
  | pageElement page name none =>
    if page = "elements" then element "elements" (some name) else pageElement page name none
  | pageElement page name (some attr) => pageElement page name (some attr)
  | pageUrl page => if page = "elements" then element "url" none else pageUrl page

theorem ofSegments?_segments (reference : Reference) : ofSegments? reference.segments = some reference.readBack := by
  cases reference with
  | element name attr => exact ofSegments?_element name attr
  | pageElement page name attr =>
    cases attr with
    | none => by_cases own : page = "elements" <;> simp [ofSegments?, segments, readBack, own]
    | some attr => simp [ofSegments?, segments, readBack]
  | pageUrl page => by_cases own : page = "elements" <;> simp [ofSegments?, segments, readBack, own]

theorem ofString?_render_eq_readBack {reference : Reference} (valid : reference.Valid) :
    ofString? reference.render = some reference.readBack := by
  rw [ofString?_render (valid_iff.mp valid), ofSegments?_segments]

theorem readBack_eq_self_iff {reference : Reference} :
    reference.readBack = reference ↔
      reference ≠ .pageUrl "elements" ∧ ∀ name, reference ≠ .pageElement "elements" name none := by
  cases reference with
  | element name attr => simp [readBack]
  | pageElement page name attr =>
    cases attr with
    | none => by_cases own : page = "elements" <;> simp [readBack, own]
    | some attr => simp [readBack]
  | pageUrl page => by_cases own : page = "elements" <;> simp [readBack, own]

/-! ## Writing what is read -/

theorem valid_of_ofString? {value : String} {reference : Reference} (accepted : ofString? value = some reference) :
    reference.Valid :=
  valid_iff.mpr fun _ member => isSegment_of_mem_segments accepted member

/-- Nothing of a value is lost when it is read as a reference. -/
theorem render_of_ofString? {value : String} {reference : Reference} (accepted : ofString? value = some reference) :
    reference.render = value := by
  obtain ⟨body, characters, _, segments⟩ := exists_segments_of_ofString? accepted
  apply String.toList_inj.mp
  rw [toList_render, segments, List.map_map, characters]
  simp [Function.comp_def, List.intercalate_splitOn]

/-- A value is read as a reference that stays itself, and of this reference it is the written form. -/
theorem ofString?_eq_some_iff {value : String} {reference : Reference} :
    ofString? value = some reference ↔
      reference.Valid ∧ reference.readBack = reference ∧ reference.render = value := by
  constructor
  · intro accepted
    have valid := valid_of_ofString? accepted
    have renders := render_of_ofString? accepted
    rw [← renders, ofString?_render_eq_readBack valid] at accepted
    exact ⟨valid, Option.some.inj accepted, renders⟩
  · rintro ⟨valid, stays, rfl⟩
    rw [ofString?_render_eq_readBack valid, stays]

theorem isLiteral_eq_false_iff {value : String} :
    isLiteral value = false ↔ ∃ reference, ofString? value = some reference := by
  rw [isLiteral, Option.isNone_eq_false_iff, Option.isSome_iff_exists]

/-- A value is a reference exactly if it has one of the five forms. What is read is written back
as the same value, so no two references are read alike. What is written is read back as the same
reference, except for the address of a page called `elements` and for an element of such a page. -/
theorem reading_inverts_writing :
    (∀ value, isLiteral value = false ↔ ∃ reference : Reference, reference.Valid ∧ reference.written = value) ∧
      (∀ reference : Reference, reference.render = reference.written) ∧
      (∀ value reference, ofString? value = some reference → reference.Valid ∧ reference.render = value) ∧
      (∀ value other, isLiteral value = false → ofString? other = ofString? value → other = value) ∧
      (∀ reference : Reference, reference.Valid →
        (ofString? reference.render = some reference ↔
          reference ≠ .pageUrl "elements" ∧ ∀ name, reference ≠ .pageElement "elements" name none)) ∧
      ofString? (render (.pageUrl "elements")) = some (.element "url" none) ∧
      ∀ name, Segment name →
        ofString? (render (.pageElement "elements" name none)) = some (.element "elements" (some name)) := by
  refine ⟨fun value => ⟨fun accepted => ?_, ?_⟩, render_eq_written, fun value reference accepted => ?_,
    fun value other accepted alike => ?_, fun reference valid => ?_, ?_, fun name isName => ?_⟩
  · obtain ⟨reference, read⟩ := isLiteral_eq_false_iff.mp accepted
    exact ⟨reference, valid_of_ofString? read, by rw [← render_eq_written, render_of_ofString? read]⟩
  · rintro ⟨reference, valid, rfl⟩
    rw [← render_eq_written, isLiteral_eq_false_iff]
    exact ⟨_, ofString?_render_eq_readBack valid⟩
  · exact ⟨valid_of_ofString? accepted, render_of_ofString? accepted⟩
  · obtain ⟨reference, read⟩ := isLiteral_eq_false_iff.mp accepted
    rw [← render_of_ofString? read, ← render_of_ofString? (alike.trans read)]
  · rw [ofString?_render_eq_readBack valid, Option.some.injEq, readBack_eq_self_iff]
  · exact ofString?_render_eq_readBack segment_elements
  · exact ofString?_render_eq_readBack ⟨segment_elements, isName, by simp⟩

/-- Without an attribute the name `elements` is taken for the step, with one it is taken for a page. -/
theorem heading_reading_inverts_writing :
    Segment "heading" ∧ Segment "text" ∧
      ofString? "$elements.elements.heading" = some (.element "elements" (some "heading")) ∧
      written (.element "elements" (some "heading")) = "$elements.elements.heading" ∧
      ofString? "$elements.elements.heading.text" = some (.pageElement "elements" "heading" (some "text")) ∧
      isLiteral "$elements.elements.heading.text" = false := by
  obtain ⟨grammar, rendered, _, _, back, _, shadowed⟩ := reading_inverts_writing
  have heading : Segment "heading" := isSegment_iff.mp (by decide +kernel)
  have text : Segment "text" := isSegment_iff.mp (by decide +kernel)
  have valid : Valid (.pageElement "elements" "heading" (some "text")) := ⟨segment_elements, heading, by simpa using text⟩
  have reads := (back _ valid).mpr ⟨by simp, by simp⟩
  rw [rendered] at reads
  exact ⟨heading, text, shadowed "heading" heading, rfl, reads, (grammar _).mpr ⟨_, valid, rfl⟩⟩

end Reference

end TestLinker
