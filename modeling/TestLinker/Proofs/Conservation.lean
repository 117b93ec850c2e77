import TestLinker.Proofs.Linkage

/-! # Linking loses and invents no statement

Whatever component linkers are used, a linked test has the names, browsers and steps of
the test, and a linked step has the statements of its lineage, oldest ancestor first: each
of them is the statement as it was written, or that statement with linked components.
-/

namespace TestLinker

/-- A result stands for a written statement: it is that statement, or holds it as written. -/
structure Statement.Keeps (written result : Statement) : Prop where
  original : result = written ∨ ∃ identifier value, result = .linked written identifier value
  source : result.source = written.source
  nature : result.isAction = written.isAction

theorem StatementLinker.keeps_of_leaves {linker : StatementLinker} {pages : Pages}
    {identifiers : Identifiers} {written result : Statement}
    (leaves : linker.Leaves pages identifiers written result) : written.Keeps result := by
  obtain ⟨answer, links, rfl⟩ := leaves
  obtain ⟨found, _, answers⟩ := Outcome.bind_eq_ok_iff.mp links
  -- no linker has answered, or the statement is wrapped as it was written
  split at answers
  · cases answers
    exact ⟨.inl rfl, rfl, rfl⟩
  · cases answers
    exact ⟨.inr ⟨_, _, rfl⟩, rfl, rfl⟩

theorem Configuration.browsers_of_link {configuration : Configuration} {pages : Pages}
    {answer : Option Configuration} (succeeds : configuration.link pages = .ok answer) :
    (answer.getD configuration).browsers = configuration.browsers := by
  rcases link_eq_ok succeeds with ⟨_, kept⟩ | ⟨_, page, _, _, replaced⟩
  · rw [kept]
  · rw [replaced]

namespace Test

/-- Names, browsers, steps and statements of a linked test are those of the test and of
the lineages of its steps, in order. Of a linked step nothing else is left than its data,
which is the imported collection if the step imports one. -/
theorem link_conserves {test linked : Test} {linker : StatementLinker} {workspace : Workspace}
    (succeeds : test.link linker workspace = .ok linked) :
    linked.name = test.name ∧ linked.configuration.browsers = test.configuration.browsers ∧
      linked.steps.keys = test.steps.keys ∧
      ∀ name step, test.steps.get? name = some step →
        ∃ result lineage, linked.steps.get? name = some result ∧
          step.HasLineage workspace.steps lineage ∧
          List.Forall₂ Statement.Keeps (lineage.reverse.flatMap Step.actions) result.actions ∧
          List.Forall₂ Statement.Keeps (lineage.reverse.flatMap Step.assertions) result.assertions ∧
          result.importName = none ∧ result.dataImportName = none ∧ result.identifiers = .empty ∧
          step.HasData workspace.dataSets result.data := by
  obtain ⟨configuration, configurationLinked, sameName, result, stepsLinked⟩ := link_eq_ok succeeds
  refine ⟨sameName, ?_, stepsLinked.keys_eq, ?_⟩
  · rw [result]
    exact Configuration.browsers_of_link configurationLinked
  · intro name step declared
    obtain ⟨result, found, stepLinked⟩ := stepsLinked.get? declared
    obtain ⟨lineage, known, linkage⟩ := Step.linkFully_eq_ok stepLinked
    exact ⟨result, lineage, found, linkage.ancestry,
      linkage.actions.imp fun _ _ => StatementLinker.keeps_of_leaves,
      linkage.assertions.imp fun _ _ => StatementLinker.keeps_of_leaves,
      linkage.importName, linkage.dataImportName, linkage.identifiers, linkage.data⟩

end Test

namespace ShopExample

def reload : Statement := .action "Reload" (.noArguments "reload")

def typeName : Statement := .action "Type $user.name into $shop.elements.name" (.input "$shop.elements.name" "$user.name")

def clickOnOrder : Statement := .action "Click on $elements.order" (.interaction "click" "$elements.order")

def orderExists : Statement := .assertion "$elements.order exists" (.existence "$elements.order" false)

def openShop : Step := ⟨[reload], [], none, none, .empty, none⟩

def signIn : Step := ⟨[typeName], [], some "open shop", none, .empty, none⟩

def buy : Step := ⟨[clickOnOrder], [orderExists], some "sign in", some "users", .ofList [("order", "#order")], none⟩

def users : DataCollection := .ofList [("first", .ofList [("name", "ada")])]

def workspace : Workspace where
  pages := .ofList [("shop", ⟨"shop", "http://shop.example/", .ofList [("name", "#name")]⟩)]
  steps := .ofList [("open shop", openShop), ("sign in", signIn)]
  dataSets := .ofList [("users", users)]

def test : Test := ⟨"buy.yml", ⟨["chrome"], "shop.url"⟩, .ofList [("buy", buy)]⟩

def bought : Step where
  actions := [reload, .linked typeName (some "#name") (some "$user.name"), .linked clickOnOrder (some "#order") none]
  assertions := [.linked orderExists (some "#order") none]
  importName := none
  dataImportName := none
  identifiers := .empty
  data := some users

def linkedTest : Test := ⟨"buy.yml", ⟨["chrome"], "http://shop.example/"⟩, .ofList [("buy", bought)]⟩

end ShopExample

open ShopExample in
/-- Two imported steps, of which the older one is left alone, come before the step. -/
theorem Test.link_conserves_shop :
    test.link .standard workspace = .ok linkedTest ∧
      ∃ lineage, buy.HasLineage workspace.steps lineage ∧
        List.Forall₂ Statement.Keeps (lineage.reverse.flatMap Step.actions) bought.actions ∧
        List.Forall₂ Statement.Keeps (lineage.reverse.flatMap Step.assertions) bought.assertions ∧
        buy.HasData workspace.dataSets bought.data := by
  have links : test.link .standard workspace = .ok linkedTest := by decide +kernel
  obtain ⟨_, _, _, conserved⟩ := Test.link_conserves links
  obtain ⟨result, lineage, found, ancestry, actions, assertions, _, _, _, data⟩ := conserved "buy" buy (by rfl)
  have sameStep : bought = result := Option.some.inj ((by rfl : _ = some bought).symm.trans found)
  subst sameStep
  exact ⟨links, lineage, ancestry, actions, assertions, data⟩

end TestLinker
