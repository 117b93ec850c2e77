import Mathlib.Data.List.Forall2
import TestLinker.OrderedMap.Lemmas
import TestLinker.Pass

/-! # Outcomes of runs that may fail

Linking is a chain of runs in `Except` that stops at the first failure. A success is
taken apart here into the successes of its parts, and the failure of a traversal into
the elements before the failing one, which all succeed, and the failing one itself.

* `bind_eq_ok_iff`, `then_eq_ok_iff`, `map_eq_ok_iff`, `mapError_eq_ok_iff`: successes of the combinators.
* `forM_eq_ok_iff`, `forM_eq_error_iff`, `forM_congr`: at which element a traversal fails.
* `mapM_eq_ok_iff`, `OrderedMap.entriesRelated_of_mapM_eq_ok`, `Pass.forall₂_of_each_eq_ok`:
  a traversal that succeeds has succeeded at every element, in order.
* `OrderedMap.mapM_eq_self`: a traversal that keeps every element keeps the whole.
* `verdict`: a run without its value; passes and traversals with the same verdicts fail alike.
-/

namespace TestLinker

namespace Outcome

variable {α β ε ε' : Type}

theorem bind_eq_ok_iff {outcome : Except ε α} {next : α → Except ε β} {result : β} :
    outcome >>= next = .ok result ↔ ∃ value, outcome = .ok value ∧ next value = .ok result := by
  cases outcome <;> simp [bind, Except.bind]

theorem then_eq_ok_iff {outcome : Except ε Unit} {next : Except ε β} {result : β} :
    (outcome >>= fun _ => next) = .ok result ↔ outcome = .ok () ∧ next = .ok result := by
  cases outcome <;> simp [bind, Except.bind]

theorem map_eq_ok_iff {outcome : Except ε α} {f : α → β} {result : β} :
    f <$> outcome = .ok result ↔ ∃ value, outcome = .ok value ∧ f value = result := by
  cases outcome <;> simp [Functor.map, Except.map]

theorem mapError_eq_ok_iff {outcome : Except ε α} {relabel : ε → ε'} {result : α} :
    outcome.mapError relabel = .ok result ↔ outcome = .ok result := by
  cases outcome <;> simp [Except.mapError]

theorem mapM_eq_ok_iff {f : α → Except ε β} {values : List α} {results : List β} :
    values.mapM f = .ok results ↔
      List.Forall₂ (fun value result => f value = .ok result) values results := by
  induction values generalizing results with
  | nil => cases results <;> simp [pure, Except.pure]
  | cons head rest inductionHypothesis =>
    simp only [List.mapM_cons, bind_eq_ok_iff, inductionHypothesis, List.forall₂_cons_left_iff]
    constructor
    · rintro ⟨image, headSucceeds, images, restSucceeds, equal⟩
      cases equal
      exact ⟨image, images, headSucceeds, restSucceeds, rfl⟩
    · rintro ⟨image, images, headSucceeds, restSucceeds, rfl⟩
      exact ⟨image, headSucceeds, images, restSucceeds, rfl⟩

theorem forM_eq_ok_iff {f : α → Except ε Unit} {values : List α} :
    forM values f = .ok () ↔ ∀ value ∈ values, f value = .ok () := by
  induction values with
  | nil => simp [pure, Except.pure]
  | cons head rest inductionHypothesis =>
    rw [List.forM_cons, then_eq_ok_iff, inductionHypothesis, List.forall_mem_cons]

/-- A traversal fails with the failure of an element behind elements that all succeed. -/
theorem forM_eq_error_iff {f : α → Except ε Unit} {values : List α} {error : ε} :
    forM values f = .error error ↔ ∃ before value after, values = before ++ value :: after ∧
      (∀ earlier ∈ before, f earlier = .ok ()) ∧ f value = .error error := by
  induction values with
  | nil => simp [pure, Except.pure]
  | cons head rest inductionHypothesis =>
    rw [List.forM_cons]
    cases headOutcome : f head with
    | error headError =>
      constructor
      · intro fails
        cases fails
        exact ⟨[], head, rest, rfl, by simp, headOutcome⟩
      · rintro ⟨before, value, after, split, earlier, fails⟩
        -- nothing can stand before the failing head
        cases before with
        | nil =>
          cases split
          exact headOutcome.symm.trans fails
        | cons first others =>
          cases split
          cases headOutcome.symm.trans (earlier head (by simp))
    | ok done =>
      change forM rest f = .error error ↔ _
      rw [inductionHypothesis]
      constructor
      · rintro ⟨before, value, after, rfl, earlier, fails⟩
        exact ⟨head :: before, value, after, rfl,
          List.forall_mem_cons.mpr ⟨headOutcome, earlier⟩, fails⟩
      · rintro ⟨before, value, after, split, earlier, fails⟩
        cases before with
        | nil =>
          cases split
          cases headOutcome.symm.trans fails
        | cons first others =>
          cases split
          exact ⟨others, value, after, rfl, (List.forall_mem_cons.mp earlier).2, fails⟩

theorem forM_congr {f g : α → Except ε Unit} {values : List α} (agree : ∀ value ∈ values, f value = g value) :
    forM values f = forM values g := by
  induction values with
  | nil => rfl
  | cons head rest inductionHypothesis =>
    obtain ⟨headAgrees, restAgrees⟩ := List.forall_mem_cons.mp agree
    rw [List.forM_cons, List.forM_cons, headAgrees, inductionHypothesis restAgrees]

/-- What is left of a run if its value is forgotten. -/
def verdict (outcome : Except ε α) : Except ε Unit := (fun _ => ()) <$> outcome

theorem verdict_eq_ok_iff {outcome : Except ε α} :
    verdict outcome = .ok () ↔ ∃ value, outcome = .ok value := by
  cases outcome <;> simp [verdict, Functor.map, Except.map]

theorem verdict_eq_error_iff {outcome : Except ε α} {error : ε} :
    verdict outcome = .error error ↔ outcome = .error error := by
  cases outcome <;> simp [verdict, Functor.map, Except.map]

theorem verdict_map (f : α → β) (outcome : Except ε α) : verdict (f <$> outcome) = verdict outcome := by
  cases outcome <;> rfl

theorem verdict_mapError (relabel : ε → ε') (outcome : Except ε α) :
    verdict (outcome.mapError relabel) = (verdict outcome).mapError relabel := by
  cases outcome <;> rfl

/-- A run fails in its first part, or as its second part does whatever the first answers. -/
theorem verdict_bind {outcome : Except ε α} {next : α → Except ε β} {rest : Except ε Unit}
    (agree : ∀ value, outcome = .ok value → verdict (next value) = rest) :
    verdict (outcome >>= next) = verdict outcome >>= fun _ => rest := by
  cases outcome with
  | error error => rfl
  | ok value => exact agree value rfl

theorem mapError_bind (relabel : ε → ε') (outcome : Except ε α) (next : α → Except ε β) :
    (outcome >>= next).mapError relabel =
      outcome.mapError relabel >>= fun value => (next value).mapError relabel := by
  cases outcome <;> rfl

theorem mapError_forM (relabel : ε → ε') (f : α → Except ε Unit) (values : List α) :
    (forM values f).mapError relabel = forM values fun value => (f value).mapError relabel := by
  induction values with
  | nil => rfl
  | cons head rest inductionHypothesis => simp only [List.forM_cons, mapError_bind, inductionHypothesis]

theorem forM_flatMap (f : β → Except ε Unit) (g : α → List β) (values : List α) :
    forM (values.flatMap g) f = forM values fun value => forM (g value) f := by
  induction values with
  | nil => rfl
  | cons head rest inductionHypothesis =>
    rw [List.flatMap_cons, List.forM_append, List.forM_cons, inductionHypothesis]

theorem verdict_mapM (f : α → Except ε β) (values : List α) :
    verdict (values.mapM f) = forM values fun value => verdict (f value) := by
  induction values with
  | nil => rfl
  | cons head rest inductionHypothesis =>
    rw [List.mapM_cons, List.forM_cons, ← inductionHypothesis]
    apply verdict_bind
    intro image _
    exact verdict_map _ _

theorem exists_mem_of_forall₂ {relation : α → β → Prop} {left : List α} {right : List β}
    (related : List.Forall₂ relation left right) {value : α} (member : value ∈ left) :
    ∃ image ∈ right, relation value image := by
  induction related with
  | nil => cases member
  | cons head tail inductionHypothesis =>
    rcases List.mem_cons.mp member with rfl | member
    · exact ⟨_, by simp, head⟩
    · obtain ⟨image, imageMember, found⟩ := inductionHypothesis member
      exact ⟨image, by simp [imageMember], found⟩

theorem forall_mem_iff_of_forall₂ {relation : α → β → Prop} {p : β → Prop} {q : α → Prop}
    {left : List α} {right : List β} (related : List.Forall₂ relation left right)
    (agree : ∀ value image, relation value image → (p image ↔ q value)) :
    (∀ image ∈ right, p image) ↔ ∀ value ∈ left, q value := by
  induction related with
  | nil => simp
  | cons head tail inductionHypothesis =>
    simp only [List.forall_mem_cons, agree _ _ head, inductionHypothesis]

end Outcome

namespace OrderedMap

variable {κ α β ε : Type}

/-- The entries of two maps with the same keys in the same order, whose values are related. -/
abbrev EntriesRelated (relation : κ → α → β → Prop) (m : OrderedMap κ α) (n : OrderedMap κ β) :
    Prop :=
  List.Forall₂ (fun entry image => image.1 = entry.1 ∧ relation entry.1 entry.2 image.2)
    m.entries n.entries

theorem entriesRelated_withValues {relation : κ → α → β → Prop} {m : OrderedMap κ α}
    {images : List β}
    (related : List.Forall₂ (fun entry image => relation entry.1 entry.2 image) m.entries images) :
    m.EntriesRelated relation (m.withValues images) := by
  show List.Forall₂ _ m.entries ((m.entries.map Prod.fst).zip images)
  generalize m.entries = entries at related ⊢
  induction related with
  | nil => exact .nil
  | cons head tail inductionHypothesis => exact .cons ⟨rfl, head⟩ inductionHypothesis

/-- Applying a function that may fail keeps the keys, and succeeds with the image of every
value. -/
theorem entriesRelated_of_mapM_eq_ok {f : κ → α → Except ε β} {m : OrderedMap κ α}
    {n : OrderedMap κ β} (succeeds : m.mapM f = .ok n) :
    m.EntriesRelated (fun key value image => f key value = .ok image) n := by
  obtain ⟨images, traversed, rfl⟩ := Outcome.map_eq_ok_iff.mp succeeds
  exact entriesRelated_withValues (Outcome.mapM_eq_ok_iff.mp traversed)

theorem mapM_eq_self [DecidableEq κ] {f : κ → α → Except ε α} {m : OrderedMap κ α}
    (kept : ∀ key value, m.get? key = some value → f key value = .ok value) : m.mapM f = .ok m := by
  have traversed : (m.entries.mapM fun entry => f entry.1 entry.2) = .ok m.values := by
    rw [Outcome.mapM_eq_ok_iff, OrderedMap.values, List.forall₂_map_right_iff, List.forall₂_same]
    exact fun entry member => kept entry.1 entry.2 (get?_eq_some_iff.mpr member)
  rw [mapM, traversed]
  exact congrArg Except.ok (withValues_values m)

namespace EntriesRelated

variable {relation : κ → α → β → Prop} {m : OrderedMap κ α} {n : OrderedMap κ β}

theorem keys_eq (related : m.EntriesRelated relation n) : n.keys = m.keys := by
  show n.entries.map Prod.fst = m.entries.map Prod.fst
  unfold EntriesRelated at related
  generalize m.entries = left, n.entries = right at related ⊢
  induction related with
  | nil => rfl
  | cons head tail inductionHypothesis => simp [head.1, inductionHypothesis]

theorem get? [DecidableEq κ] (related : m.EntriesRelated relation n) {key : κ} {value : α}
    (found : m.get? key = some value) : ∃ image, n.get? key = some image ∧ relation key value image := by
  obtain ⟨⟨_, image⟩, member, rfl, holds⟩ :=
    Outcome.exists_mem_of_forall₂ related (get?_eq_some_iff.mp found)
  exact ⟨image, get?_eq_some_iff.mpr member, holds⟩

theorem get?_of_image [DecidableEq κ] (related : m.EntriesRelated relation n) {key : κ} {image : β}
    (found : n.get? key = some image) : ∃ value, m.get? key = some value ∧ relation key value image := by
  cases declared : m.get? key with
  | none =>
    rw [get?_eq_none_iff, ← keys_eq related, ← get?_eq_none_iff, found] at declared
    cases declared
  | some value =>
    obtain ⟨other, otherFound, holds⟩ := get? related declared
    cases found.symm.trans otherFound
    exact ⟨value, rfl, holds⟩

end EntriesRelated

end OrderedMap

namespace Pass

variable {κ α : Type}

def Leaves (pass : Pass α) (value result : α) : Prop :=
  ∃ answer, pass value = .ok answer ∧ result = answer.getD value

/-- A pass over a list leaves in every place what it leaves there on its own. -/
theorem forall₂_of_each_eq_ok {pass : Pass α} {values : List α} {changed : Option (List α)}
    (succeeds : each pass values = .ok changed) :
    List.Forall₂ pass.Leaves values (changed.getD values) := by
  induction values generalizing changed with
  | nil => cases succeeds; exact .nil
  | cons value rest inductionHypothesis =>
    obtain ⟨head, headSucceeds, remaining⟩ := Outcome.bind_eq_ok_iff.mp succeeds
    obtain ⟨tail, tailSucceeds, _⟩ := Outcome.bind_eq_ok_iff.mp remaining
    rw [each_cons_of_ok headSucceeds tailSucceeds] at succeeds
    cases succeeds
    have tailLeaves := inductionHypothesis tailSucceeds
    split
    -- nothing has changed: the pass answers `none` and leaves the list as it is
    · rename_i unchanged
      simp only [Bool.and_eq_true, Option.isNone_iff_eq_none] at unchanged
      obtain ⟨rfl, rfl⟩ := unchanged
      exact .cons ⟨none, headSucceeds, rfl⟩ tailLeaves
    · exact .cons ⟨head, headSucceeds, rfl⟩ tailLeaves

/-- A pass over a list fails as it does on the first value on which it fails. -/
theorem verdict_each (pass : Pass α) (values : List α) :
    Outcome.verdict (each pass values) = forM values fun value => Outcome.verdict (pass value) := by
  induction values with
  | nil => rfl
  | cons value rest inductionHypothesis =>
    rw [List.forM_cons, ← inductionHypothesis]
    apply Outcome.verdict_bind
    intro head _
    cases each pass rest with
    | error error => rfl
    -- whichever parts have changed, the pass as a whole succeeds
    | ok tail => cases head <;> cases tail <;> rfl

/-- A pass over a map keeps the keys and leaves under every key what it leaves there on
its own. -/
theorem entriesRelated_of_eachValue_eq_ok {pass : Pass α} {m : OrderedMap κ α}
    {changed : Option (OrderedMap κ α)} (succeeds : eachValue pass m = .ok changed) :
    m.EntriesRelated (fun _ => pass.Leaves) (changed.getD m) := by
  obtain ⟨answer, traversed, rfl⟩ := Outcome.map_eq_ok_iff.mp succeeds
  have leaves := forall₂_of_each_eq_ok traversed
  cases answer with
  | none =>
    -- the map is left alone, so every value is related to itself
    have same := List.forall₂_same.mp leaves
    refine List.forall₂_same.mpr fun entry member => ⟨rfl, same entry.2 ?_⟩
    exact List.mem_map.mpr ⟨entry, member, rfl⟩
  | some images =>
    exact OrderedMap.entriesRelated_withValues (List.forall₂_map_left_iff.mp leaves)

end Pass

end TestLinker
