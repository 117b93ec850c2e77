import Mathlib.Data.List.ProdSigma
import TestLinker.Proofs.Outcome
import TestLinker.Statement.Linking

/-! # The answers of component linkers

A statement linker calls each of its component linkers on each component of a statement, as
the component was written. The calls are made in order, and the first one that fails ends the
run (`verdict_link`). Otherwise the last answer for a component takes its place; no answer for
the other component has a say in it (`link_eq_ok`).
-/

namespace TestLinker

/-- The components that a statement carries: the identifier, then the value. -/
def Statement.components (statement : Statement) : List String :=
  statement.identifier?.toList ++ statement.value?.toList

namespace StatementLinker

open Outcome (verdict)

variable {pages : Pages} {identifiers : Identifiers} {linker : StatementLinker} {statement : Statement}

/-- The calls for a statement, in the order in which they are made: each component linker is
called on the identifier and then on the value. -/
def calls (linker : StatementLinker) (statement : Statement) : List (ComponentLinker × String) :=
  linker.components ×ˢ statement.components

/-- The answer of the last component linker that has one for a component. -/
def lastAnswer (pages : Pages) (identifiers : Identifiers) (linkers : List ComponentLinker) (component : String) :
    Option String :=
  linkers.reverse.findSome? fun linker => (linker component pages identifiers).toOption.join

/-- The last answer for a component, or the component itself if there is none. -/
def textOf (linker : StatementLinker) (pages : Pages) (identifiers : Identifiers) (component : String) : String :=
  (lastAnswer pages identifiers linker.components component).getD component

theorem mem_standard_iff {component : ComponentLinker} :
    component ∈ standard.components ↔ component = elementComponent ∨ component = urlComponent := by
  simp [standard]

/-! ## The calls in order -/

theorem verdict_ask (linker : ComponentLinker) (component : Option String) :
    verdict (ask linker pages identifiers component) =
      forM component.toList fun text => verdict (linker text pages identifiers) := by
  cases component with
  | none => rfl
  | some text =>
    change verdict (linker text pages identifiers) = verdict (linker text pages identifiers) >>= fun _ => pure ()
    cases linker text pages identifiers <;> rfl

theorem verdict_answers (identifier value : Option String) (linkers : List ComponentLinker) :
    verdict (answers pages identifiers identifier value linkers) =
      forM (linkers ×ˢ (identifier.toList ++ value.toList)) fun call =>
        verdict (call.1 call.2 pages identifiers) := by
  induction linkers with
  | nil => rfl
  | cons linker rest inductionHypothesis =>
    -- a linker makes both of its calls before the next one makes any
    rw [List.product_cons, List.map_append, List.append_assoc, List.forM_append, List.forM_append, List.forM_map,
      List.forM_map, ← verdict_ask, ← verdict_ask, ← inductionHypothesis]
    apply Outcome.verdict_bind
    intro forIdentifier _
    apply Outcome.verdict_bind
    intro forValue _
    exact Outcome.verdict_map _ _

/-- Linking a statement succeeds, or fails, as the calls for it do when they are made in order. -/
theorem verdict_link (linker : StatementLinker) (statement : Statement) :
    verdict (linker.link statement pages identifiers) =
      forM (linker.calls statement) fun call => verdict (call.1 call.2 pages identifiers) := by
  rw [calls, Statement.components, ← verdict_answers, link]
  cases answers pages identifiers statement.identifier? statement.value? linker.components with
  | error error => rfl
  | ok found =>
    -- whatever has been found, the statement is left alone or wrapped
    obtain ⟨identifier, value⟩ := found
    cases identifier <;> cases value <;> rfl

theorem link_eq_error_iff {error : LinkError} :
    linker.link statement pages identifiers = .error error ↔
      ∃ before call after, linker.calls statement = before ++ call :: after ∧
        (∀ earlier ∈ before, ∃ answer, earlier.1 earlier.2 pages identifiers = .ok answer) ∧
        call.1 call.2 pages identifiers = .error error := by
  rw [← Outcome.verdict_eq_error_iff, verdict_link, Outcome.forM_eq_error_iff]
  simp only [Outcome.verdict_eq_ok_iff, Outcome.verdict_eq_error_iff]

theorem link_succeeds_iff :
    (∃ answer, linker.link statement pages identifiers = .ok answer) ↔
      ∀ component ∈ linker.components, ∀ text ∈ statement.components,
        ∃ answer, component text pages identifiers = .ok answer := by
  rw [← Outcome.verdict_eq_ok_iff, verdict_link, Outcome.forM_eq_ok_iff]
  simp only [Outcome.verdict_eq_ok_iff]
  constructor
  · intro succeed component isComponent text inStatement
    exact succeed (component, text) (List.mem_product.mpr ⟨isComponent, inStatement⟩)
  · rintro succeed ⟨component, text⟩ member
    obtain ⟨isComponent, inStatement⟩ := List.mem_product.mp member
    exact succeed component isComponent text inStatement

theorem exists_call_of_link_eq_error {error : LinkError} (fails : linker.link statement pages identifiers = .error error) :
    ∃ component ∈ linker.components, ∃ text ∈ statement.components, component text pages identifiers = .error error := by
  obtain ⟨before, ⟨component, text⟩, after, split, _, callFails⟩ := link_eq_error_iff.mp fails
  have member : (component, text) ∈ linker.calls statement := by simp [split]
  obtain ⟨isComponent, inStatement⟩ := List.mem_product.mp member
  exact ⟨component, isComponent, text, inStatement, callFails⟩

/-! ## The last answers -/

theorem answers_cons_eq_ok {identifier value : Option String} {linker : ComponentLinker}
    {rest : List ComponentLinker} {found : Option String × Option String}
    (succeeds : answers pages identifiers identifier value (linker :: rest) = .ok found) :
    ∃ forIdentifier forValue later, ask linker pages identifiers identifier = .ok forIdentifier ∧
      ask linker pages identifiers value = .ok forValue ∧
      answers pages identifiers identifier value rest = .ok later ∧
      found = (later.1.or forIdentifier, later.2.or forValue) := by
  obtain ⟨forIdentifier, asksIdentifier, asksRest⟩ := Outcome.bind_eq_ok_iff.mp succeeds
  obtain ⟨forValue, asksValue, answersRest⟩ := Outcome.bind_eq_ok_iff.mp asksRest
  obtain ⟨later, answersLater, combines⟩ := Outcome.bind_eq_ok_iff.mp answersRest
  cases combines
  exact ⟨forIdentifier, forValue, later, asksIdentifier, asksValue, answersLater, rfl⟩

theorem lastAnswer_cons (linker : ComponentLinker) (rest : List ComponentLinker) (component : String) :
    lastAnswer pages identifiers (linker :: rest) component =
      (lastAnswer pages identifiers rest component).or (linker component pages identifiers).toOption.join := by
  rw [lastAnswer, List.reverse_cons, List.findSome?_append, List.findSome?_singleton, lastAnswer]

theorem lastAnswer_eq_none_iff {linkers : List ComponentLinker} {component : String} :
    lastAnswer pages identifiers linkers component = none ↔
      ∀ linker ∈ linkers, (linker component pages identifiers).toOption.join = none := by
  simp [lastAnswer]

theorem answers_eq_ok {linkers : List ComponentLinker} {identifier value : Option String}
    {found : Option String × Option String}
    (succeeds : answers pages identifiers identifier value linkers = .ok found) :
    found = (identifier.bind (lastAnswer pages identifiers linkers),
      value.bind (lastAnswer pages identifiers linkers)) := by
  induction linkers generalizing found with
  | nil =>
    cases succeeds
    cases identifier <;> cases value <;> rfl
  | cons linker rest inductionHypothesis =>
    obtain ⟨forIdentifier, forValue, later, asksIdentifier, asksValue, answersLater, rfl⟩ :=
      answers_cons_eq_ok succeeds
    -- a later answer for a component comes before the one of the first linker
    have combine {component answer : Option String} (asks : ask linker pages identifiers component = .ok answer) :
        (component.bind (lastAnswer pages identifiers rest)).or answer =
          component.bind (lastAnswer pages identifiers (linker :: rest)) := by
      cases component with
      | none => cases asks; rfl
      | some text =>
        have answered : linker text pages identifiers = .ok answer := asks
        rw [Option.bind_some, Option.bind_some, lastAnswer_cons, answered]
        rfl
    rw [inductionHypothesis answersLater, combine asksIdentifier, combine asksValue]

theorem bind_lastAnswer_or (component : Option String) :
    (component.bind (lastAnswer pages identifiers linker.components)).or component =
      component.map (linker.textOf pages identifiers) := by
  cases component with
  | none => rfl
  | some text =>
    rw [Option.bind_some, Option.map_some, textOf]
    cases lastAnswer pages identifiers linker.components text <;> rfl

theorem forall_lastAnswer_eq_none_iff :
    (∀ text ∈ statement.components, lastAnswer pages identifiers linker.components text = none) ↔
      statement.identifier?.bind (lastAnswer pages identifiers linker.components) = none ∧
        statement.value?.bind (lastAnswer pages identifiers linker.components) = none := by
  rw [Statement.components, List.forall_mem_append]
  simp only [Option.mem_toList, Option.bind_eq_none_iff]

/-- The found texts take the place of the components for which there is one. -/
theorem components_of_link_eq_ok {answer : Option Statement}
    (succeeds : linker.link statement pages identifiers = .ok answer) :
    ∃ found, answers pages identifiers statement.identifier? statement.value? linker.components = .ok found ∧
      (answer.getD statement).identifier? = found.1.or statement.identifier? ∧
      (answer.getD statement).value? = found.2.or statement.value? := by
  obtain ⟨found, answered, wraps⟩ := Outcome.bind_eq_ok_iff.mp succeeds
  refine ⟨found, answered, ?_⟩
  split at wraps <;> (cases wraps; exact ⟨rfl, rfl⟩)

theorem textOf_of_link_eq_ok {answer : Option Statement}
    (succeeds : linker.link statement pages identifiers = .ok answer) :
    (answer.getD statement).identifier? = statement.identifier?.map (linker.textOf pages identifiers) ∧
      (answer.getD statement).value? = statement.value?.map (linker.textOf pages identifiers) := by
  obtain ⟨found, answered, identifier, value⟩ := components_of_link_eq_ok succeeds
  rw [identifier, value, answers_eq_ok answered]
  exact ⟨bind_lastAnswer_or _, bind_lastAnswer_or _⟩

/-- A statement for which no linker has an answer is left alone. Every other one is wrapped as
it is, together with the text that each of its components becomes. -/
theorem link_eq_ok {answer : Option Statement} (succeeds : linker.link statement pages identifiers = .ok answer) :
    answer = if ∀ text ∈ statement.components, lastAnswer pages identifiers linker.components text = none then none
      else some (.linked statement (statement.identifier?.map (linker.textOf pages identifiers))
        (statement.value?.map (linker.textOf pages identifiers))) := by
  obtain ⟨found, answered, wraps⟩ := Outcome.bind_eq_ok_iff.mp succeeds
  rw [answers_eq_ok answered] at wraps
  split at wraps
  · rename_i nothing
    cases wraps
    rw [if_pos (forall_lastAnswer_eq_none_iff.mpr (Prod.mk.inj nothing))]
  · rename_i something equal
    cases equal
    cases wraps
    have answers : ¬ ∀ text ∈ statement.components, lastAnswer pages identifiers linker.components text = none := by
      rw [forall_lastAnswer_eq_none_iff]
      exact fun silent => something silent.1 silent.2
    rw [if_neg answers, bind_lastAnswer_or, bind_lastAnswer_or]

theorem link_eq_none_iff :
    linker.link statement pages identifiers = .ok none ↔
      ∀ component ∈ linker.components, ∀ text ∈ statement.components,
        component text pages identifiers = .ok none := by
  constructor
  · intro leavesAlone component isComponent text inStatement
    obtain ⟨answer, answers⟩ := link_succeeds_iff.mp ⟨none, leavesAlone⟩ component isComponent text inStatement
    -- an answer for the text would have wrapped the statement, even if it is the text itself
    have silent : lastAnswer pages identifiers linker.components text = none := by
      by_contra answered
      have wraps := link_eq_ok leavesAlone
      rw [if_neg fun all => answered (all text inStatement)] at wraps
      cases wraps
    have nothing := lastAnswer_eq_none_iff.mp silent component isComponent
    rw [answers] at nothing ⊢
    exact congrArg Except.ok nothing
  · intro silent
    obtain ⟨answer, succeeds⟩ := link_succeeds_iff.mpr fun component isComponent text inStatement =>
      ⟨none, silent component isComponent text inStatement⟩
    rw [succeeds, link_eq_ok succeeds, if_pos]
    intro text inStatement
    refine lastAnswer_eq_none_iff.mpr fun component isComponent => ?_
    rw [silent component isComponent text inStatement]
    rfl

/-- The component linkers are called in order, each on both components as they are written, and
linking fails as the first call that fails. Otherwise each component becomes the last answer for
it. The statement is left alone if there is no answer at all, and else it is kept beside its new
components. -/
theorem link_asks (linker : StatementLinker) (statement : Statement) (pages : Pages) (identifiers : Identifiers) :
    ((∃ error, linker.link statement pages identifiers = .error error) ↔
        ∃ component ∈ linker.components, ∃ text ∈ statement.components, ∃ error,
          component text pages identifiers = .error error) ∧
      (∀ error, linker.link statement pages identifiers = .error error ↔
        ∃ before call after, linker.calls statement = before ++ call :: after ∧
          (∀ earlier ∈ before, ∃ answer, earlier.1 earlier.2 pages identifiers = .ok answer) ∧
          call.1 call.2 pages identifiers = .error error) ∧
      (∀ answer, linker.link statement pages identifiers = .ok answer →
        (answer.getD statement).identifier? = statement.identifier?.map (linker.textOf pages identifiers) ∧
          (answer.getD statement).value? = statement.value?.map (linker.textOf pages identifiers) ∧
          (answer.getD statement).source = statement.source ∧ (answer.getD statement).isAction = statement.isAction ∧
          ∀ result, answer = some result → ∃ identifier value, result = .linked statement identifier value) ∧
      (linker.link statement pages identifiers = .ok none ↔
        ∀ component ∈ linker.components, ∀ text ∈ statement.components,
          component text pages identifiers = .ok none) := by
  refine ⟨?_, fun _ => link_eq_error_iff, ?_, link_eq_none_iff⟩
  · constructor
    · rintro ⟨error, fails⟩
      obtain ⟨component, isComponent, text, inStatement, callFails⟩ := exists_call_of_link_eq_error fails
      exact ⟨component, isComponent, text, inStatement, error, callFails⟩
    · rintro ⟨component, isComponent, text, inStatement, error, callFails⟩
      cases outcome : linker.link statement pages identifiers with
      | error raised => exact ⟨raised, rfl⟩
      | ok answer =>
        obtain ⟨_, succeeds⟩ := link_succeeds_iff.mp ⟨answer, outcome⟩ component isComponent text inStatement
        cases callFails.symm.trans succeeds
  · intro answer succeeds
    obtain ⟨identifier, value⟩ := textOf_of_link_eq_ok succeeds
    refine ⟨identifier, value, ?_⟩
    rw [link_eq_ok succeeds]
    split
    · exact ⟨rfl, rfl, nofun⟩
    · refine ⟨rfl, rfl, ?_⟩
      rintro _ ⟨⟩
      exact ⟨_, _, rfl⟩

end StatementLinker

namespace ShoutExample

/-- Answers for every component, with its letters in upper case. -/
def shout : ComponentLinker := fun component _ _ => .ok (some (String.ofList (component.toList.map Char.toUpper)))

def linker : StatementLinker := ⟨[shout, elementComponent]⟩

def identifiers : Identifiers := .ofList [("name", "#name")]

/-- An input that has been linked twice without losing its reference. -/
def typeName : Statement :=
  .linked (.linked (.action "Type ada into $elements.name" (.input "$elements.name" "ada"))
    (some "$elements.name") (some "ada")) (some "$elements.name") (some "ada")

end ShoutExample

open ShoutExample in
/-- The second linker answers for the identifier only, and it is asked about the identifier as it
is written. Without the identifier it is the first one to fail. -/
theorem StatementLinker.shout_asks :
    linker.link typeName .empty identifiers = .ok (some (.linked typeName (some "#name") (some "ADA"))) ∧
      linker.textOf .empty identifiers "$elements.name" = "#name" ∧ linker.textOf .empty identifiers "ada" = "ADA" ∧
      linker.link typeName .empty .empty = .error (.ofFault (.unknownElement "name")) ∧
      ∃ before call after, linker.calls typeName = before ++ call :: after ∧
        (∀ earlier ∈ before, ∃ answer, earlier.1 earlier.2 .empty .empty = .ok answer) ∧
        call.1 call.2 .empty .empty = .error (.ofFault (.unknownElement "name")) := by
  have links : linker.link typeName .empty identifiers = .ok (some (.linked typeName (some "#name") (some "ADA"))) := by
    decide +kernel
  have fails : linker.link typeName .empty .empty = .error (.ofFault (.unknownElement "name")) := by decide +kernel
  obtain ⟨_, _, texts, _⟩ := StatementLinker.link_asks linker typeName .empty identifiers
  obtain ⟨_, firstFailure, _⟩ := StatementLinker.link_asks linker typeName .empty .empty
  obtain ⟨identifier, value, _⟩ := texts _ links
  exact ⟨links, (Option.some.inj identifier).symm, (Option.some.inj value).symm, fails, (firstFailure _).mp fails⟩

end TestLinker
