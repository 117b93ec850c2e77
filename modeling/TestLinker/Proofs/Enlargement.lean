import TestLinker.Proofs.Answers
import TestLinker.Proofs.ImportChain
import TestLinker.Test.Linking

/-! # Enlarging a workspace

A larger workspace has all items of a workspace, and perhaps more. Every look-up of a run
that never misses an item is answered in the same way by the larger workspace, so the run
ends there in the same way, with the same result or with the same error. A run that misses
an item stops at it, and nothing is said about what it becomes.
-/

namespace TestLinker

/-- The larger catalogue has every item under the name that it has in the smaller one. -/
def Catalog.Within {α : Type} (items larger : Catalog α) : Prop :=
  ∀ name item, items.get? name = some item → larger.get? name = some item

structure Workspace.Within (workspace larger : Workspace) : Prop where
  pages : Catalog.Within workspace.pages larger.pages
  steps : Catalog.Within workspace.steps larger.steps
  dataSets : Catalog.Within workspace.dataSets larger.dataSets

theorem Catalog.within_iff_subset {α : Type} {items larger : Catalog α} :
    items.Within larger ↔ items.entries ⊆ larger.entries := by
  simp only [Within, OrderedMap.get?_eq_some_iff]
  exact ⟨fun within entry member => within entry.1 entry.2 member, fun subset name item member => subset member⟩

theorem Catalog.Within.find {α : Type} {items larger : Catalog α} (within : items.Within larger)
    {kind : ItemKind} {name : String} {item : α} (found : items.find kind name = .ok item) :
    larger.find kind name = .ok item :=
  Catalog.find_eq_ok_iff.mpr (within name item (Catalog.find_eq_ok_iff.mp found))

/-- The second run ends as the first one does, unless the first one misses an item. -/
def Survives {α : Type} (outcome other : Except LinkError α) : Prop :=
  other = outcome ∨ ∃ error item, outcome = .error error ∧ error.fault = .unknownItem item

namespace Survives

variable {α β : Type}

theorem refl (outcome : Except LinkError α) : Survives outcome outcome := .inl rfl

theorem bind {outcome other : Except LinkError α} {next otherNext : α → Except LinkError β}
    (first : Survives outcome other) (second : ∀ value, Survives (next value) (otherNext value)) :
    Survives (outcome >>= next) (other >>= otherNext) := by
  rcases first with rfl | ⟨error, item, rfl, missed⟩
  · cases other with
    | error error => exact refl _
    | ok value => exact second value
  · exact .inr ⟨error, item, rfl, missed⟩

theorem map (f : α → β) {outcome other : Except LinkError α} (survives : Survives outcome other) :
    Survives (f <$> outcome) (f <$> other) := by
  rcases survives with rfl | ⟨error, item, rfl, missed⟩
  · exact refl _
  · exact .inr ⟨error, item, rfl, missed⟩

/-- What a layer adds to an error does not touch the fault. -/
theorem relabel (label : LinkError → LinkError) (keeps : ∀ error, (label error).fault = error.fault)
    {outcome other : Except LinkError α} (survives : Survives outcome other) :
    Survives (outcome.mapError label) (other.mapError label) := by
  rcases survives with rfl | ⟨error, item, rfl, missed⟩
  · exact refl _
  · exact .inr ⟨label error, item, rfl, (keeps error).trans missed⟩

theorem find {items larger : Catalog α} (within : items.Within larger) (kind : ItemKind) (name : String) :
    Survives ((items.find kind name).mapError .ofUnknownItem) ((larger.find kind name).mapError .ofUnknownItem) := by
  cases found : items.find kind name with
  | ok item => rw [within.find found]; exact refl _
  | error missing => exact .inr ⟨.ofUnknownItem missing, missing, rfl, rfl⟩

theorem each {pass other : Pass α} {values : List α} (survives : ∀ value, Survives (pass value) (other value)) :
    Survives (Pass.each pass values) (Pass.each other values) := by
  induction values with
  | nil => exact refl _
  | cons value rest inductionHypothesis =>
    exact (survives value).bind fun _ => inductionHypothesis.bind fun _ => refl _

theorem mapM {κ : Type} {f g : κ → α → Except LinkError β} {m : OrderedMap κ α}
    (survives : ∀ key value, Survives (f key value) (g key value)) : Survives (m.mapM f) (m.mapM g) := by
  apply map
  induction m.entries with
  | nil => exact refl _
  | cons entry rest inductionHypothesis =>
    rw [List.mapM_cons, List.mapM_cons]
    exact (survives entry.1 entry.2).bind fun _ => inductionHypothesis.bind fun _ => refl _

/-! ## Components and statements -/

section

variable {pages larger : Pages}

theorem answers {identifiers : Identifiers} (identifier value : Option String) {linkers : List ComponentLinker}
    (survives : ∀ linker ∈ linkers, ∀ component,
      Survives (linker component pages identifiers) (linker component larger identifiers)) :
    Survives (StatementLinker.answers pages identifiers identifier value linkers)
      (StatementLinker.answers larger identifiers identifier value linkers) := by
  induction linkers with
  | nil => exact refl _
  | cons linker rest inductionHypothesis =>
    obtain ⟨head, tail⟩ := List.forall_mem_cons.mp survives
    have asks (component : Option String) : Survives (StatementLinker.ask linker pages identifiers component)
        (StatementLinker.ask linker larger identifiers component) := by
      cases component with
      | none => exact refl _
      | some text => exact head text
    exact (asks identifier).bind fun _ => (asks value).bind fun _ =>
      (inductionHypothesis tail).bind fun _ => refl _

variable (within : Catalog.Within pages larger)

include within

theorem pageElementText (page name : String) (attr : Option String) :
    Survives (pages.elementText page name attr) (larger.elementText page name attr) := by
  refine bind ?_ fun _ => refl _
  exact (find within .page page).bind fun _ => refl _

theorem pageUrl (name : String) : Survives (pages.url name) (larger.url name) :=
  (find within .page name).bind fun _ => refl _

theorem linkElement (value : String) (identifiers : Identifiers) :
    Survives (linkElement value pages identifiers) (linkElement value larger identifiers) := by
  unfold TestLinker.linkElement
  split
  · exact refl _
  · exact (pageElementText within _ _ _).map _
  · exact refl _

theorem linkPageUrl (value : String) : Survives (linkPageUrl value pages) (linkPageUrl value larger) := by
  unfold TestLinker.linkPageUrl
  split
  · exact (pageUrl within _).map _
  · exact refl _

theorem standardComponent {linker : ComponentLinker} (member : linker ∈ StatementLinker.standard.components)
    (component : String) (identifiers : Identifiers) :
    Survives (linker component pages identifiers) (linker component larger identifiers) := by
  rcases StatementLinker.mem_standard_iff.mp member with rfl | rfl
  · exact (linkElement within component identifiers).map _
  · unfold urlComponent
    split
    · exact refl _
    · exact (linkPageUrl within component).map _

theorem linkStatement (identifiers : Identifiers) (statement : Statement) :
    Survives (StatementLinker.standard.linkLocated pages identifiers statement)
      (StatementLinker.standard.linkLocated larger identifiers statement) := by
  apply relabel (.attach .content statement.source) fun _ => rfl
  refine bind (answers _ _ ?_) fun _ => refl _
  exact fun linker member component => standardComponent within member component identifiers

theorem linkStep (step : Step) : Survives (step.link .standard pages) (step.link .standard larger) := by
  unfold Step.link
  split
  · exact refl _
  · refine bind (map _ (each fun text => linkElement within text .empty)) fun identifiers => ?_
    refine bind (each fun statement => linkStatement within _ statement) fun actions => ?_
    exact bind (each fun statement => linkStatement within _ statement) fun _ => refl _

theorem linkConfiguration (configuration : Configuration) :
    Survives (configuration.link pages) (configuration.link larger) := by
  unfold Configuration.link
  split
  · exact refl _
  · exact (pageUrl within _).bind fun _ => refl _

end

/-! ## Imports -/

theorem expandWithin {steps larger : Steps} (within : Catalog.Within steps larger) (stack : ImportStack)
    (step : Step) : Survives (Step.expandWithin steps stack step) (Step.expandWithin larger stack step) := by
  fun_induction Step.expandWithin steps stack step with
  | case1 stack step rootless =>
    rw [Step.expandWithin_of_no_import rootless]
    exact refl _
  | case2 stack step name imports passed =>
    rw [Step.expandWithin_of_mem imports passed]
    exact refl _
  | case3 stack step name imports fresh missing lost => exact .inr ⟨.ofUnknownItem missing, missing, rfl, rfl⟩
  | case4 stack step name imports fresh parent found pending error inner inductionHypothesis
  | case5 stack step name imports fresh parent found pending expanded left inner inductionHypothesis =>
    rw [Step.expandWithin_of_pending imports fresh (within.find found) pending]
    rw [inner] at inductionHypothesis
    exact inductionHypothesis.map fun answer => (some (step.inherit (answer.1.getD parent)), answer.2.tail)
  | case6 stack step name imports fresh parent found ready =>
    rw [Step.expandWithin_of_ready imports fresh (within.find found) (by simpa using ready)]
    exact refl _

theorem attachData {dataSets larger : DataSets} (within : Catalog.Within dataSets larger) (step : Step) :
    Survives (step.attachData dataSets) (step.attachData larger) := by
  unfold Step.attachData
  split
  · exact refl _
  · exact (find within .dataSet _).bind fun _ => refl _

theorem linkFully {workspace larger : Workspace} (within : workspace.Within larger) (step : Step) :
    Survives (step.linkFully .standard workspace) (step.linkFully .standard larger) := by
  refine bind ((expandWithin within.steps [] step).map _) fun imported => ?_
  refine bind (attachData within.dataSets _) fun supplied => ?_
  exact (linkStep within.pages _).bind fun _ => refl _

theorem linkTest {workspace larger : Workspace} (within : workspace.Within larger) (test : Test) :
    Survives (test.link .standard workspace) (test.link .standard larger) := by
  have configuration := (linkConfiguration within.pages test.configuration).relabel
    (.attach .test test.name) fun _ => rfl
  have steps (name : String) (step : Step) := (linkFully within step).relabel
    (fun error => (error.attach .step name).attach .test test.name) fun _ => rfl
  exact configuration.bind fun _ => (mapM steps).bind fun _ => refl _

end Survives

/-- A test that is linked without missing an item, or is not linked for another reason, has the
same outcome in every larger workspace. -/
theorem Test.link_enlarged {test : Test} {workspace larger : Workspace} (within : workspace.Within larger)
    (hits : ∀ error item, test.link .standard workspace = .error error → error.fault ≠ .unknownItem item) :
    test.link .standard larger = test.link .standard workspace := by
  rcases Survives.linkTest within test with same | ⟨error, item, fails, missed⟩
  · exact same
  · exact absurd missed (hits error item fails)

namespace RingExample

def pay : Step := ⟨[.action "Click on $cart.elements.pay" (.interaction "click" "$cart.elements.pay")], [], none, none, .empty, none⟩

def test : Test := ⟨"ring.yml", ⟨["chrome"], "shop.url"⟩, .ofList [("enter", importing "one"), ("pay", pay)]⟩

def shop : Page := ⟨"shop", "http://shop.example/", .empty⟩

def workspace : Workspace where
  pages := .ofList [("shop", shop)]
  steps := steps
  dataSets := .empty

/-- Has the page that the second step of the test needs. -/
def larger : Workspace where
  pages := .ofList [("cart", ⟨"cart", "http://cart.example/", .ofList [("pay", "#pay")]⟩), ("shop", shop)]
  steps := .ofList [("three", importing "two"), ("pay", pay), ("two", importing "three"), ("one", importing "two")]
  dataSets := .empty

def error : LinkError := ⟨.circularStepImport "two", .ofList [(.step, "enter"), (.test, "ring.yml")]⟩

end RingExample

open RingExample in
/-- The first step of the test fails before the page that only the larger workspace has is
looked up. -/
theorem Test.ring_link_enlarged :
    workspace.Within larger ∧ test.link .standard workspace = .error error ∧
      test.link .standard larger = .error error := by
  have within : workspace.Within larger :=
    ⟨Catalog.within_iff_subset.mpr (by decide +kernel), Catalog.within_iff_subset.mpr (by decide +kernel),
      Catalog.within_iff_subset.mpr (by decide +kernel)⟩
  have fails : test.link .standard workspace = .error error := by decide +kernel
  refine ⟨within, fails, (Test.link_enlarged within ?_).trans fails⟩
  rintro other item otherFails missed
  cases fails.symm.trans otherFails
  cases missed

end TestLinker
