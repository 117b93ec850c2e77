import Mathlib.Data.List.Perm.Basic
import TestLinker.Proofs.Linkage

/-! # The steps of a test are linked independently

`Test.only` is a test with one of its steps and the same configuration. Once the
configuration is linked, a test fails as the first of these tests that fails
(`Test.verdict_link_eq_forM_only`), and otherwise its linked steps are theirs, in order
(`Test.entriesRelated_only`). So no step has an influence on another one, and a test with
its steps in another order has its linked steps in that order.
-/

namespace TestLinker

namespace Test

variable {test other : Test} {linker : StatementLinker} {workspace : Workspace} {answer : Option Configuration}

/-- The test with one of its steps only. -/
def only (test : Test) (entry : String × Step) : Test :=
  { test with steps := ⟨[entry], List.pairwise_singleton _ _⟩ }

/-- A test and the same test with its steps in another order. -/
structure Reordered (test other : Test) : Prop where
  name : other.name = test.name
  configuration : other.configuration = test.configuration
  order : other.steps.entries.Perm test.steps.entries

/-- What becomes of a named step in the pass over its test. -/
def linkEntry (test : Test) (linker : StatementLinker) (workspace : Workspace) (entry : String × Step) :
    Except LinkError Step :=
  (entry.2.linkFully linker workspace).mapError fun error =>
    (error.attach .step entry.1).attach .test test.name

theorem link_of_configured (configured : test.configuration.link workspace.pages = .ok answer) :
    test.link linker workspace =
      (fun steps => ⟨test.name, answer.getD test.configuration, test.steps.withValues steps⟩) <$>
        test.steps.entries.mapM (test.linkEntry linker workspace) := by
  rw [link, configured]
  change (test.steps.withValues <$> test.steps.entries.mapM (test.linkEntry linker workspace) >>= _) = _
  cases test.steps.entries.mapM (test.linkEntry linker workspace) <;> rfl

theorem link_only (configured : test.configuration.link workspace.pages = .ok answer) (entry : String × Step) :
    (test.only entry).link linker workspace =
      (fun step => ⟨test.name, answer.getD test.configuration, ⟨[(entry.1, step)], List.pairwise_singleton _ _⟩⟩) <$>
        test.linkEntry linker workspace entry := by
  have whole : (test.only entry).configuration.link workspace.pages = .ok answer := configured
  rw [link_of_configured whole]
  change _ <$> [entry].mapM (test.linkEntry linker workspace) = _
  rw [List.mapM_cons, List.mapM_nil]
  cases test.linkEntry linker workspace entry <;> rfl

/-- A test succeeds, or fails, as its steps do when they are linked alone one after the other. -/
theorem verdict_link_eq_forM_only (configured : test.configuration.link workspace.pages = .ok answer) :
    Outcome.verdict (test.link linker workspace) =
      forM test.steps.entries fun entry => Outcome.verdict ((test.only entry).link linker workspace) := by
  rw [link_of_configured configured, Outcome.verdict_map, Outcome.verdict_mapM]
  simp only [link_only configured, Outcome.verdict_map]

/-- The linked test has, under the same names, the steps of the tests with one step. -/
theorem entriesRelated_only (configured : test.configuration.link workspace.pages = .ok answer) {linked : Test}
    (succeeds : test.link linker workspace = .ok linked) :
    linked.name = test.name ∧ linked.configuration = answer.getD test.configuration ∧
      test.steps.EntriesRelated
        (fun name step image => (test.only (name, step)).link linker workspace = .ok (linked.only (name, image)))
        linked.steps := by
  obtain ⟨configuration, configurationLinked, name, sameConfiguration, steps⟩ := link_eq_ok succeeds
  cases configured.symm.trans configurationLinked
  refine ⟨name, sameConfiguration, steps.imp ?_⟩
  rintro ⟨key, step⟩ ⟨_, image⟩ ⟨sameKey, links⟩
  cases sameKey
  have entryLinks : test.linkEntry linker workspace (key, step) = .ok image :=
    Outcome.mapError_eq_ok_iff.mpr links
  refine ⟨rfl, ?_⟩
  change (test.only (key, step)).link linker workspace = .ok (linked.only (key, image))
  rw [link_only configured, entryLinks, only, name, sameConfiguration]
  rfl

theorem link_eq_ok_iff_forall_only (configured : test.configuration.link workspace.pages = .ok answer) :
    (∃ linked, test.link linker workspace = .ok linked) ↔
      ∀ entry ∈ test.steps.entries, ∃ single, (test.only entry).link linker workspace = .ok single := by
  simp only [← Outcome.verdict_eq_ok_iff, verdict_link_eq_forM_only configured, Outcome.forM_eq_ok_iff]

theorem link_eq_error_iff_exists_only (configured : test.configuration.link workspace.pages = .ok answer)
    {error : LinkError} :
    test.link linker workspace = .error error ↔
      ∃ before entry after, test.steps.entries = before ++ entry :: after ∧
        (∀ earlier ∈ before, ∃ single, (test.only earlier).link linker workspace = .ok single) ∧
        (test.only entry).link linker workspace = .error error := by
  rw [← Outcome.verdict_eq_error_iff, verdict_link_eq_forM_only configured, Outcome.forM_eq_error_iff]
  simp only [Outcome.verdict_eq_ok_iff, Outcome.verdict_eq_error_iff]

namespace Reordered

theorem only_eq (reordered : test.Reordered other) (entry : String × Step) : other.only entry = test.only entry := by
  rw [only, only, reordered.name, reordered.configuration]

theorem link_eq_ok_iff (reordered : test.Reordered other)
    (configured : test.configuration.link workspace.pages = .ok answer) :
    (∃ linked, other.link linker workspace = .ok linked) ↔ ∃ linked, test.link linker workspace = .ok linked := by
  have otherConfigured : other.configuration.link workspace.pages = .ok answer := by
    rw [reordered.configuration, configured]
  simp only [link_eq_ok_iff_forall_only configured, link_eq_ok_iff_forall_only otherConfigured, reordered.only_eq,
    reordered.order.mem_iff]

/-- The steps of a reordered test, once linked, are those of the test in the other order. -/
theorem linked (reordered : test.Reordered other) {linked otherLinked : Test}
    (succeeds : test.link linker workspace = .ok linked)
    (otherSucceeds : other.link linker workspace = .ok otherLinked) :
    linked.Reordered otherLinked ∧ otherLinked.steps.keys = other.steps.keys := by
  obtain ⟨_, configurationLinked, name, configuration, steps⟩ := link_eq_ok succeeds
  obtain ⟨_, otherConfigurationLinked, otherName, otherConfiguration, otherSteps⟩ := link_eq_ok otherSucceeds
  rw [reordered.configuration, configurationLinked] at otherConfigurationLinked
  cases otherConfigurationLinked
  refine ⟨⟨?_, ?_, ?_⟩, otherSteps.keys_eq⟩
  · rw [otherName, reordered.name, name]
  · rw [otherConfiguration, reordered.configuration, configuration]
  · -- the steps in the new order have images in that order, and no step has two images
    obtain ⟨images, related, rearranged⟩ := List.perm_comp_forall₂ reordered.order steps
    have sameImages : otherLinked.steps.entries = images := by
      apply List.right_unique_forall₂' ?_ otherSteps related
      rintro entry ⟨_, image⟩ ⟨_, otherImage⟩ ⟨rfl, links⟩ ⟨sameKey, otherLinks⟩
      cases links.symm.trans otherLinks
      cases sameKey
      rfl
    rw [sameImages]
    exact rearranged

end Reordered

/-- Once the configuration is linked, a test is linked exactly if each of its steps is linked
as the only step of the test. The linked steps are then those of the tests with one step, and
otherwise the outcome is that of the first of these tests that is not linked. With its steps in
another order the test has the linked steps in that order. -/
theorem link_stepwise (configured : test.configuration.link workspace.pages = .ok answer)
    (linker : StatementLinker) :
    ((∃ linked, test.link linker workspace = .ok linked) ↔
        ∀ entry ∈ test.steps.entries, ∃ single, (test.only entry).link linker workspace = .ok single) ∧
      (∀ linked, test.link linker workspace = .ok linked →
        linked.name = test.name ∧ linked.configuration = answer.getD test.configuration ∧
          test.steps.EntriesRelated
            (fun name step image => (test.only (name, step)).link linker workspace = .ok (linked.only (name, image)))
            linked.steps) ∧
      (∀ error, test.link linker workspace = .error error ↔
        ∃ before entry after, test.steps.entries = before ++ entry :: after ∧
          (∀ earlier ∈ before, ∃ single, (test.only earlier).link linker workspace = .ok single) ∧
          (test.only entry).link linker workspace = .error error) ∧
      ∀ other, test.Reordered other →
        ((∃ otherLinked, other.link linker workspace = .ok otherLinked) ↔
            ∃ linked, test.link linker workspace = .ok linked) ∧
          ∀ linked otherLinked, test.link linker workspace = .ok linked →
            other.link linker workspace = .ok otherLinked →
            linked.Reordered otherLinked ∧ otherLinked.steps.keys = other.steps.keys := by
  refine ⟨link_eq_ok_iff_forall_only configured, ?_, ?_, ?_⟩
  · intro linked succeeds
    exact entriesRelated_only configured succeeds
  · intro error
    exact link_eq_error_iff_exists_only configured
  · intro other reordered
    exact ⟨reordered.link_eq_ok_iff configured, fun _ _ succeeds otherSucceeds =>
      reordered.linked succeeds otherSucceeds⟩

end Test

namespace CheckoutExample

def clickOnSubmit : Statement := .action "Click on $elements.submit" (.interaction "click" "$elements.submit")

def pay : Step := ⟨[clickOnSubmit], [], none, none, .ofList [("submit", "$shop.elements.pay")], none⟩

def leave : Step := ⟨[clickOnSubmit], [], none, none, .empty, none⟩

def workspace : Workspace where
  pages := .ofList [("shop", ⟨"shop", "http://shop.example/", .ofList [("pay", "#pay")]⟩)]
  steps := .empty
  dataSets := .empty

def test (steps : List (String × Step)) : Test := ⟨"checkout.yml", ⟨["chrome"], "shop.url"⟩, .ofList steps⟩

def paid : Test where
  name := "checkout.yml"
  configuration := ⟨["chrome"], "http://shop.example/"⟩
  steps := .ofList [("pay", ⟨[.linked clickOnSubmit (some "#pay") none], [], none, none, .empty, none⟩)]

def error : LinkError where
  fault := .unknownElement "submit"
  location := .ofList
    [(.content, "Click on $elements.submit"), (.step, "leave"), (.test, "checkout.yml")]

end CheckoutExample

open CheckoutExample in
/-- The second step does not know the identifier that the first one declares, in whichever
order they are written. -/
theorem Test.checkout_link_stepwise :
    ((test [("pay", pay), ("leave", leave)]).only ("pay", pay)).link .standard workspace = .ok paid ∧
      ((test [("pay", pay), ("leave", leave)]).only ("leave", leave)).link .standard workspace = .error error ∧
      (test [("pay", pay), ("leave", leave)]).link .standard workspace = .error error ∧
      ¬ ∃ linked, (test [("leave", leave), ("pay", pay)]).link .standard workspace = .ok linked := by
  have configured : (test [("pay", pay), ("leave", leave)]).configuration.link workspace.pages =
      .ok (some ⟨["chrome"], "http://shop.example/"⟩) := by
    decide +kernel
  have first : ((test [("pay", pay), ("leave", leave)]).only ("pay", pay)).link .standard workspace = .ok paid := by
    decide +kernel
  have second : ((test [("pay", pay), ("leave", leave)]).only ("leave", leave)).link .standard workspace =
      .error error := by
    decide +kernel
  obtain ⟨_, _, failure, reorder⟩ := Test.link_stepwise configured .standard
  have fails : (test [("pay", pay), ("leave", leave)]).link .standard workspace = .error error :=
    (failure error).mpr ⟨[("pay", pay)], ("leave", leave), [], rfl, by simp [first], second⟩
  refine ⟨first, second, fails, ?_⟩
  rw [(reorder (test [("leave", leave), ("pay", pay)]) ⟨rfl, rfl, by decide +kernel⟩).1]
  rintro ⟨linked, succeeds⟩
  cases fails.symm.trans succeeds

end TestLinker
