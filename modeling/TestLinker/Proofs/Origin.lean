import TestLinker.Proofs.Answers
import TestLinker.Test.Linking

/-! # Errors at their origin

The configuration, the imports, the identifiers and the statements of a test raise errors
that no layer has located yet; `Step.linkFully` and `Test.link` are the layers that add
the place. No such error is about a missing identifier, although identifiers are looked
up like all other items: an identifier that is not found is an unknown element.
-/

namespace TestLinker

/-- An error of which nothing is known but its fault. -/
structure LinkError.IsBare (error : LinkError) : Prop where
  unlocated : error.location = .empty
  noIdentifier : ∀ name, error.fault ≠ .unknownItem ⟨.identifier, name⟩

/-- Whatever error a run ends with is bare. -/
def RaisesBare {α : Type} (outcome : Except LinkError α) : Prop :=
  ∀ error, outcome = .error error → error.IsBare

namespace RaisesBare

variable {α β : Type}

theorem ok (value : α) : RaisesBare (.ok value) := nofun

theorem ofFault {fault : Fault} (noIdentifier : ∀ name, fault ≠ .unknownItem ⟨.identifier, name⟩) :
    RaisesBare (.error (.ofFault fault) : Except LinkError α) := by
  rintro error raised
  cases raised
  exact ⟨rfl, noIdentifier⟩

theorem bind {outcome : Except LinkError α} {next : α → Except LinkError β}
    (first : RaisesBare outcome) (second : ∀ value, RaisesBare (next value)) :
    RaisesBare (outcome >>= next) := by
  cases outcome with
  | error error => exact fun _ raised => first _ (by cases raised; rfl)
  | ok value => exact second value

theorem map {outcome : Except LinkError α} (f : α → β) (bare : RaisesBare outcome) :
    RaisesBare (f <$> outcome) := by
  cases outcome with
  | error error => exact fun _ raised => bare _ (by cases raised; rfl)
  | ok value => exact ok (f value)

theorem find (kind : ItemKind) (other : kind ≠ .identifier) (items : Catalog α) (name : String) :
    RaisesBare ((items.find kind name).mapError .ofUnknownItem) := by
  cases found : items.find kind name with
  | ok item => exact ok item
  | error missing =>
    obtain ⟨_, rfl⟩ := Catalog.find_eq_error_iff.mp found
    apply ofFault
    rintro asked same
    cases same
    exact other rfl

/-! ## Components -/

theorem expand (page : Page) : RaisesBare page.expand := by
  unfold Page.expand
  split
  · exact ok _
  · split
    · exact ofFault nofun
    · split
      · exact ofFault nofun
      · exact ok _

theorem elementText (identifiers : Identifiers) (name : String) (attr : Option String) :
    RaisesBare (identifiers.elementText name attr) := by
  unfold Identifiers.elementText
  split
  · exact ok _
  · exact ofFault nofun

theorem pageElementText (pages : Pages) (page name : String) (attr : Option String) :
    RaisesBare (pages.elementText page name attr) := by
  apply bind
  · apply (find .page (by decide) pages page).bind
    intro stored
    exact (expand stored).bind fun _ => ok _
  · intro expanded
    split
    · exact ok _
    · exact ofFault nofun

theorem pageUrl (pages : Pages) (name : String) : RaisesBare (pages.url name) :=
  (find .page (by decide) pages name).bind fun _ => ok _

theorem linkElement (value : String) (pages : Pages) (identifiers : Identifiers) :
    RaisesBare (linkElement value pages identifiers) := by
  unfold TestLinker.linkElement
  split
  · exact (elementText identifiers _ _).map _
  · exact (pageElementText pages _ _ _).map _
  · exact ok _

theorem linkPageUrl (value : String) (pages : Pages) : RaisesBare (linkPageUrl value pages) := by
  unfold TestLinker.linkPageUrl
  split
  · exact (pageUrl pages _).map _
  · exact ok _

theorem urlComponent (component : String) (pages : Pages) (identifiers : Identifiers) :
    RaisesBare (urlComponent component pages identifiers) := by
  unfold TestLinker.urlComponent
  split
  · exact ok _
  · exact (linkPageUrl component pages).map _

/-! ## Statements, steps and configurations -/

theorem linkStatement (statement : Statement) (pages : Pages) (identifiers : Identifiers) :
    RaisesBare (StatementLinker.standard.link statement pages identifiers) := by
  intro error fails
  obtain ⟨component, member, text, _, callFails⟩ := StatementLinker.exists_call_of_link_eq_error fails
  rcases StatementLinker.mem_standard_iff.mp member with rfl | rfl
  · exact (linkElement text pages identifiers).map _ error callFails
  · exact urlComponent text pages identifiers error callFails

theorem expandWithin (steps : Steps) (stack : ImportStack) (step : Step) :
    RaisesBare (Step.expandWithin steps stack step) := by
  fun_induction Step.expandWithin steps stack step with
  | case1 => exact ok _
  | case2 => exact ofFault nofun
  | case3 stack step name imports fresh missing lost =>
    rintro error raised
    cases raised
    exact find .step (by decide) steps name _ (by rw [show Catalog.find .step steps name = _ from lost]; rfl)
  | case4 stack step name imports fresh parent found pending error fails inductionHypothesis =>
    rwa [fails] at inductionHypothesis
  | case5 => exact ok _
  | case6 => exact ok _

theorem expandImport (step : Step) (steps : Steps) : RaisesBare (step.expandImport steps) :=
  (expandWithin steps [] step).map _

theorem attachData (step : Step) (dataSets : DataSets) : RaisesBare (step.attachData dataSets) := by
  unfold Step.attachData
  split
  · exact ok _
  · exact (find .dataSet (by decide) dataSets _).bind fun _ => ok _

theorem linkConfiguration (configuration : Configuration) (pages : Pages) :
    RaisesBare (configuration.link pages) := by
  unfold Configuration.link
  split
  · exact ok _
  · exact (pageUrl pages _).bind fun _ => ok _

end RaisesBare

end TestLinker
