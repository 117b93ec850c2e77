import TestLinker.OrderedMap.Lemmas
import TestLinker.Proofs.PlainText
import TestLinker.Proofs.Scans

/-! # Plain identifiers

The identifiers of a page whose texts are plain, kept piece by piece. A scan puts one parent
after the other into a text; on the pieces this is one substitution of all parents that are
ready at once (`substituteParents_at_once`), so that a scan of the texts is a scan of the pieces
(`texts_scan`). A scan that changes no text has found no parent to put in (`texts_scan_eq_iff`).
-/

namespace TestLinker

/-- Identifiers by name, with their texts in pieces. -/
abbrev PlainIdentifiers := OrderedMap String PlainText

namespace PlainIdentifiers

variable {source : PlainIdentifiers}

def texts (source : PlainIdentifiers) : Identifiers := source.map fun _ text => text.text

/-- The text that takes the place of a token in a scan, which has no token itself. -/
def ready (source : PlainIdentifiers) (name : String) : Option PlainText :=
  (source.get? name).filter fun text => text.names.isEmpty

def scan (source : PlainIdentifiers) : PlainIdentifiers := source.map fun _ text => text.substitute source.ready

def Expanded (source : PlainIdentifiers) : Prop :=
  ∀ name text, source.get? name = some text → text.names = []

/-- No token is left that a scan would replace. -/
def Stuck (source : PlainIdentifiers) : Prop :=
  ∀ name text, source.get? name = some text → ∀ parent ∈ text.names, source.ready parent = none

theorem get?_texts (source : PlainIdentifiers) (name : String) :
    source.texts.get? name = (source.get? name).map PlainText.text :=
  OrderedMap.get?_map _ source name

theorem size_texts (source : PlainIdentifiers) : source.texts.size = source.size := List.length_map ..

theorem get?_scan (source : PlainIdentifiers) (name : String) :
    source.scan.get? name = (source.get? name).map (PlainText.substitute source.ready) :=
  OrderedMap.get?_map _ source name

theorem ready_eq_some_iff {name : String} {text : PlainText} :
    source.ready name = some text ↔ source.get? name = some text ∧ text.names = [] := by
  simp [ready, Option.filter_eq_some_iff]

theorem ready_eq_none_iff {name : String} :
    source.ready name = none ↔ ∀ text, source.get? name = some text → text.names ≠ [] := by
  simp [ready, Option.filter_eq_none_iff]

theorem closed_of_ready (name : String) (text : PlainText) (found : source.ready name = some text) :
    text.names = [] :=
  (ready_eq_some_iff.mp found).2

theorem names_substitute_ready (text : PlainText) :
    (text.substitute source.ready).names = text.names.filter fun name => (source.ready name).isNone :=
  PlainText.names_substitute text closed_of_ready

theorem mem_names_substitute_ready_iff {parent : String} {text : PlainText} :
    parent ∈ (text.substitute source.ready).names ↔ parent ∈ text.names ∧ source.ready parent = none := by
  rw [names_substitute_ready, List.mem_filter, Option.isNone_iff_eq_none]

/-! ## Texts and pieces -/

theorem isExpanded_text_iff {text : PlainText} : Parent.isExpanded text.text = true ↔ text.names = [] := by
  rw [Parent.isExpanded, PlainText.names_text, List.isEmpty_iff]

/-- The texts that are ready among those of the given names. -/
def readyAmong (source : PlainIdentifiers) (names : List String) (name : String) : Option PlainText :=
  if name ∈ names then source.ready name else none

theorem substituteParent_text (source : PlainIdentifiers) {name : String} (isName : Parent.IsName name.toList)
    (text : PlainText) :
    source.texts.substituteParent text.text name = (text.substitute (source.readyAmong [name])).text := by
  have kept (missing : source.ready name = none) : text.substitute (source.readyAmong [name]) = text := by
    apply PlainText.substitute_eq_self
    intro other _
    by_cases same : other = name <;> simp [readyAmong, same, missing]
  rw [Identifiers.substituteParent, get?_texts]
  cases declared : source.get? name with
  | none =>
    rw [kept (by rw [ready, declared]; rfl)]
    rfl
  | some value =>
    simp only [Option.map_some, isExpanded_text_iff]
    by_cases closed : value.names = []
    · have found : source.ready name = some value := ready_eq_some_iff.mpr ⟨declared, closed⟩
      have agree : source.readyAmong [name] = PlainText.only name value := by
        funext other
        by_cases same : other = name <;> simp [readyAmong, PlainText.only, same, found]
      rw [if_pos closed, PlainText.substitute_text isName, agree]
    · rw [if_neg closed, kept (by simp [ready, declared, closed])]

/-- Putting in the parents one after the other is putting in all of them at once, because the
texts that are put in have no tokens. -/
theorem foldl_substituteParent_text (source : PlainIdentifiers) {names : List String}
    (areNames : ∀ name ∈ names, Parent.IsName name.toList) (text : PlainText) :
    names.foldl source.texts.substituteParent text.text = (text.substitute (source.readyAmong names)).text := by
  induction names generalizing text with
  | nil => exact congrArg PlainText.text (PlainText.substitute_eq_self fun _ _ => by simp [readyAmong]).symm
  | cons name rest inductionHypothesis =>
    obtain ⟨headIsName, restAreNames⟩ := List.forall_mem_cons.mp areNames
    -- what is put in for the first name has no tokens, so the other names do not touch it
    have closed : ∀ other value, source.readyAmong [name] other = some value → value.names = [] := by
      intro other value found
      unfold readyAmong at found
      split at found
      · exact closed_of_ready other value found
      · cases found
    rw [List.foldl_cons, substituteParent_text source headIsName, inductionHypothesis restAreNames,
      PlainText.substitute_substitute _ closed]
    congr 2
    funext other
    by_cases same : other = name
    · cases known : source.ready name <;> simp [readyAmong, same, known]
    · simp [readyAmong, same]

/-- It does not matter in which order the parents of a text are put in, nor how often. -/
theorem foldl_substituteParent_of_mem_iff (source : PlainIdentifiers) {names : List String} {text : PlainText}
    (sameNames : ∀ name, name ∈ names ↔ name ∈ text.names) :
    names.foldl source.texts.substituteParent text.text = (text.substitute source.ready).text := by
  have areNames : ∀ name ∈ names, Parent.IsName name.toList := by
    intro name member
    rw [sameNames, ← PlainText.names_text] at member
    exact Parent.isName_of_mem_names member
  rw [foldl_substituteParent_text source areNames]
  exact congrArg PlainText.text (PlainText.substitute_congr fun name member => if_pos ((sameNames name).mpr member))

theorem substituteParents_text (source : PlainIdentifiers) (text : PlainText) :
    source.texts.substituteParents text.text = (text.substitute source.ready).text := by
  rw [Identifiers.substituteParents, PlainText.names_text]
  exact foldl_substituteParent_of_mem_iff source fun _ => Iff.rfl

theorem text_substitute_ready_eq_iff {text : PlainText} :
    (text.substitute source.ready).text = text.text ↔ ∀ parent ∈ text.names, source.ready parent = none := by
  constructor
  · intro unchanged parent member
    -- equal texts have the same tokens, so none has been replaced
    have sameNames := congrArg Parent.names unchanged
    rw [PlainText.names_text, PlainText.names_text] at sameNames
    rw [← sameNames] at member
    exact (mem_names_substitute_ready_iff.mp member).2
  · intro unready
    exact congrArg PlainText.text (PlainText.substitute_eq_self unready)

theorem texts_scan (source : PlainIdentifiers) : source.texts.scan = source.scan.texts := by
  rw [Identifiers.scan, texts, texts, scan, OrderedMap.map_map, OrderedMap.map_map]
  apply OrderedMap.map_eq_map_iff.mpr
  intro name text _
  exact substituteParents_text source text

theorem forall_values_texts_iff {p : String → Prop} :
    (∀ value ∈ source.texts.values, p value) ↔ ∀ name text, source.get? name = some text → p text.text := by
  simp only [OrderedMap.mem_values_iff, get?_texts, Option.map_eq_some_iff]
  constructor
  · intro all name text found
    exact all text.text ⟨name, text, found, rfl⟩
  · rintro all value ⟨name, text, found, rfl⟩
    exact all name text found

theorem isExpanded_texts_iff : source.texts.isExpanded = true ↔ source.Expanded := by
  rw [Identifiers.isExpanded, List.all_eq_true, forall_values_texts_iff]
  simp only [isExpanded_text_iff, Expanded]

theorem texts_scan_eq_iff : source.scan.texts = source.texts ↔ source.Stuck := by
  rw [texts, texts, scan, OrderedMap.map_map, OrderedMap.map_eq_map_iff]
  exact forall₃_congr fun _ _ _ => text_substitute_ready_eq_iff

/-! ## One text in a scan -/

/-- A scan goes through the parents that a plain text names and puts one after the other into
what the former ones have left. This gives the plain text in which the tokens of all ready
parents are replaced at once and everything else is as it was, in whatever order the parents are
taken and however often. The tokens of the other parents are left, in their order, and no
new ones arise. The text stays the same exactly if it names no parent that is ready. -/
theorem substituteParents_at_once (source : PlainIdentifiers) (text : PlainText) :
    source.texts.substituteParents text.text = (text.substitute source.ready).text ∧
      (∀ names : List String, (∀ name, name ∈ names ↔ name ∈ Parent.names text.text) →
        names.foldl source.texts.substituteParent text.text = source.texts.substituteParents text.text) ∧
      Parent.names (source.texts.substituteParents text.text) =
        (Parent.names text.text).filter (fun name => (source.ready name).isNone) ∧
      (source.texts.substituteParents text.text = text.text ↔
        ∀ name ∈ Parent.names text.text, source.ready name = none) := by
  rw [substituteParents_text, PlainText.names_text, PlainText.names_text]
  refine ⟨rfl, ?_, names_substitute_ready text, text_substitute_ready_eq_iff⟩
  exact fun names sameNames => foldl_substituteParent_of_mem_iff source sameNames

end PlainIdentifiers

namespace ToolbarExample

def icon : PlainName := ⟨"icon", by decide, by simp⟩

def label : PlainName := ⟨"label", by decide, by simp⟩

def box : PlainName := ⟨"box", by decide, by simp⟩

def gap : PlainName := ⟨"gap", by decide, by simp⟩

/-- The text of the icon spells the name of the box, and the label has a token itself. -/
def source : PlainIdentifiers := .ofList
  [("icon", [.char 'b' (by decide), .char 'o' (by decide), .char 'x' (by decide)]),
    ("label", [.token box, .char ':' (by decide)]), ("box", [.char '*' (by decide)])]

/-- The tokens stand side by side, one is repeated and one names no identifier. -/
def button : PlainText := [.token icon, .token label, .token box, .char ',' (by decide), .token icon, .token gap]

end ToolbarExample

open ToolbarExample in
theorem PlainIdentifiers.button_at_once :
    (∀ name, name ∈ ["gap", "box", "label", "icon", "box"] ↔ name ∈ Parent.names button.text) ∧
      ["gap", "box", "label", "icon", "box"].foldl source.texts.substituteParent button.text =
        "box\x7b\x7b label \x7d\x7d*,box\x7b\x7b gap \x7d\x7d" ∧
      source.texts.substituteParents button.text = "box\x7b\x7b label \x7d\x7d*,box\x7b\x7b gap \x7d\x7d" ∧
      Parent.names (source.texts.substituteParents button.text) = ["label", "gap"] ∧
      source.texts.substituteParents button.text ≠ button.text := by
  have names : Parent.names button.text = ["icon", "label", "box", "icon", "gap"] := by decide +kernel
  have sameNames : ∀ name, name ∈ ["gap", "box", "label", "icon", "box"] ↔ name ∈ Parent.names button.text := by
    intro name
    rw [names]
    simp only [List.mem_cons, List.not_mem_nil, or_false]
    tauto
  obtain ⟨atOnce, anyOrder, left, unchanged⟩ := PlainIdentifiers.substituteParents_at_once source button
  have result : source.texts.substituteParents button.text =
      "box\x7b\x7b label \x7d\x7d*,box\x7b\x7b gap \x7d\x7d" :=
    atOnce.trans (by decide +kernel)
  refine ⟨sameNames, (anyOrder _ sameNames).trans result, result, ?_, ?_⟩
  · rw [left, names]
    decide +kernel
  · rw [Ne, unchanged, names]
    intro unready
    exact absurd (unready "icon" (by simp)) (by decide +kernel)

end TestLinker
