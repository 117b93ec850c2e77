import Mathlib.Logic.ExistsUnique
import TestLinker.Proofs.Outcome
import TestLinker.Proofs.Lineage

/-! # The import chain of a step

The import of a step is a name, the step stored under this name may import another one,
and so on: these names are the import chain of the step. A chain comes to a step without
import, or to a name that is not stored, or it returns to a name it has passed. It does
exactly one of the three, and what becomes of the step can be read off its chain.

An expansion keeps the names it has passed on a stack, and the chain of an imported step
is the rest of the chain (`chainName_succ`). So the end of a chain is stated for a chain
that goes on where the names of a stack have been passed already.
-/

namespace TestLinker.Step

/-- The names on the import chain of a step, the name of its own import first. -/
def chainName (step : Step) (steps : Steps) : Nat → Option String
  | 0 => step.importName
  | place + 1 => (step.chainName steps place).bind fun name => (steps.get? name).bind importName

/-- The reusable step that is stored under a name of the import chain. -/
def ancestor? (step : Step) (steps : Steps) (place : Nat) : Option Step :=
  (step.chainName steps place).bind steps.get?

/-- The name at a place of the chain has been passed before: earlier on the chain, or before
the chain began. -/
def Revisits (step : Step) (steps : Steps) (passed : ImportStack) (place : Nat) : Prop :=
  ∃ name, step.chainName steps place = some name ∧
    (name ∈ passed ∨ ∃ earlier < place, step.chainName steps earlier = some name)

/-- Where an import chain leads to. -/
inductive ChainEnd where
  /-- All names are stored, and the last of the imported steps has no import. A step that
  imports nothing has no ancestors. -/
  | root (ancestors : List Step)
  | missing (name : String)
  | circle (name : String)

def ChainEnds (step : Step) (steps : Steps) (passed : ImportStack) : ChainEnd → Prop
  | .root ancestors => (∀ place, ancestors[place]? = step.ancestor? steps place) ∧
      step.chainName steps ancestors.length = none
  | .missing name => ∃ place, step.chainName steps place = some name ∧ steps.get? name = none
  | .circle name => ∃ place, step.chainName steps place = some name ∧
      step.Revisits steps passed place ∧ ∀ earlier < place, ¬ step.Revisits steps passed earlier

namespace ChainEnd

/-- What comes of expanding the import of a step whose chain leads there. -/
def outcome (step : Step) : ChainEnd → Except LinkError (Option Step)
  | .root [] => .ok none
  | .root ancestors => .ok (some (step.expandedBy (step :: ancestors)))
  | .missing name => .error (.ofUnknownItem ⟨.step, name⟩)
  | .circle name => .error (.ofFault (.circularStepImport name))

/-- The end of the chain that has one more step in front. -/
def above (parent : Step) : ChainEnd → ChainEnd
  | .root ancestors => .root (parent :: ancestors)
  | .missing name => .missing name
  | .circle name => .circle name

end ChainEnd

/-! ## One step of the chain -/

section

variable {steps : Steps} {step parent : Step} {name : String}

theorem chainName_succ (imports : step.importName = some name) (stored : steps.get? name = some parent)
    (place : Nat) : step.chainName steps (place + 1) = parent.chainName steps place := by
  induction place with
  | zero => simp [chainName, imports, stored]
  | succ place inductionHypothesis => rw [chainName, inductionHypothesis, chainName]

theorem ancestor?_succ (imports : step.importName = some name) (stored : steps.get? name = some parent)
    (place : Nat) : step.ancestor? steps (place + 1) = parent.ancestor? steps place := by
  rw [ancestor?, chainName_succ imports stored, ancestor?]

theorem revisits_succ_iff (imports : step.importName = some name) (stored : steps.get? name = some parent)
    {passed : ImportStack} {place : Nat} :
    step.Revisits steps passed (place + 1) ↔ parent.Revisits steps (name :: passed) place := by
  simp only [Revisits, chainName_succ imports stored, List.mem_cons]
  refine exists_congr fun visited => and_congr_right fun _ => ?_
  constructor
  · rintro (inPassed | ⟨earlier, before, found⟩)
    · exact .inl (.inr inPassed)
    · cases earlier with
      | zero => exact .inl (.inl (Option.some.inj (found.symm.trans imports)))
      | succ earlier => exact .inr ⟨earlier, by omega, by rwa [chainName_succ imports stored] at found⟩
  · rintro ((rfl | inPassed) | ⟨earlier, before, found⟩)
    · exact .inr ⟨0, by omega, imports⟩
    · exact .inl inPassed
    · exact .inr ⟨earlier + 1, by omega, by rwa [chainName_succ imports stored]⟩

theorem ChainEnds.above_root {passed passedAbove : ImportStack} {ancestors : List Step}
    (imports : step.importName = some name) (stored : steps.get? name = some parent)
    (ends : parent.ChainEnds steps passedAbove (.root ancestors)) :
    step.ChainEnds steps passed (.root (parent :: ancestors)) := by
  obtain ⟨listed, last⟩ := ends
  refine ⟨fun place => ?_, by rwa [List.length_cons, chainName_succ imports stored]⟩
  cases place with
  | zero => simp [ancestor?, chainName, imports, stored]
  | succ place => rw [List.getElem?_cons_succ, ancestor?_succ imports stored, listed]

theorem ChainEnds.above {passed : ImportStack} {ending : ChainEnd} (imports : step.importName = some name)
    (fresh : name ∉ passed) (stored : steps.get? name = some parent)
    (ends : parent.ChainEnds steps (name :: passed) ending) : step.ChainEnds steps passed (ending.above parent) := by
  cases ending with
  | root ancestors => exact ends.above_root imports stored
  | missing lost =>
    obtain ⟨place, found, absent⟩ := ends
    exact ⟨place + 1, by rwa [chainName_succ imports stored], absent⟩
  | circle visited =>
    obtain ⟨place, found, revisits, first⟩ := ends
    refine ⟨place + 1, by rwa [chainName_succ imports stored], (revisits_succ_iff imports stored).mpr revisits, ?_⟩
    intro earlier before
    cases earlier with
    | zero =>
      rintro ⟨own, ownName, inPassed | ⟨_, absurdlyEarly, _⟩⟩
      · cases imports.symm.trans ownName
        exact fresh inPassed
      · omega
    | succ earlier =>
      rw [revisits_succ_iff imports stored]
      exact first earlier (by omega)

theorem ChainEnds.outcome_above {passed : ImportStack} {ending : ChainEnd}
    (ends : parent.ChainEnds steps passed ending) :
    (ending.above parent).outcome step =
      (fun answer => some (step.inherit (answer.getD parent))) <$> ending.outcome parent := by
  cases ending with
  | missing | circle => rfl
  | root ancestors =>
    cases ancestors with
    | nil =>
      have rootless : parent.importName = none := ends.2
      change Except.ok (some (step.expandedBy [step, parent])) = Except.ok (some (step.inherit parent))
      rw [← inherit_expandedBy, expandedBy_self rootless]
    | cons first rest =>
      change Except.ok (some (step.expandedBy (step :: parent :: first :: rest))) =
        Except.ok (some (step.inherit (parent.expandedBy (parent :: first :: rest))))
      rw [inherit_expandedBy]

/-- What becomes of a step is decided by the chain of the step that it imports. -/
theorem ChainEnds.follow {passed : ImportStack} {expansion : Except LinkError (Option Step)}
    (imports : step.importName = some name) (fresh : name ∉ passed) (stored : steps.get? name = some parent)
    (follows : ∃ ending, parent.ChainEnds steps (name :: passed) ending ∧ expansion = ending.outcome parent) :
    ∃ ending, step.ChainEnds steps passed ending ∧
      (fun answer => some (step.inherit (answer.getD parent))) <$> expansion = ending.outcome step := by
  obtain ⟨ending, ends, rfl⟩ := follows
  exact ⟨ending.above parent, ends.above imports fresh stored, ends.outcome_above.symm⟩

end

/-! ## The end of a chain -/

section

variable {step : Step} {steps : Steps}

theorem chainName_eq_none_of_le {place later : Nat} (ended : step.chainName steps place = none)
    (behind : place ≤ later) : step.chainName steps later = none := by
  induction behind with
  | refl => exact ended
  | step _ inductionHypothesis => rw [chainName, inductionHypothesis, Option.bind_none]

theorem chainEnds_of_rootless (steps : Steps) (passed : ImportStack) (rootless : step.importName = none) :
    step.ChainEnds steps passed (.root []) := by
  refine ⟨fun place => ?_, rootless⟩
  have first : step.chainName steps 0 = none := rootless
  rw [ancestor?, chainName_eq_none_of_le first (Nat.zero_le place)]
  rfl

theorem chainName_add_eq {first second : Nat} (same : step.chainName steps first = step.chainName steps second)
    (places : Nat) : step.chainName steps (first + places) = step.chainName steps (second + places) := by
  induction places with
  | zero => exact same
  | succ places inductionHypothesis => rw [← Nat.add_assoc, chainName, inductionHypothesis, ← Nat.add_assoc, chainName]

/-- A chain that has returned to one of its names goes on for ever. -/
theorem Revisits.chainName_ne_none {place : Nat} (revisits : step.Revisits steps [] place) (later : Nat) :
    step.chainName steps later ≠ none := by
  obtain ⟨name, found, inPassed | ⟨earlier, before, foundBefore⟩⟩ := revisits
  · cases inPassed
  · intro ended
    induction later using Nat.strongRecOn with
    | ind later inductionHypothesis =>
      by_cases behind : later ≤ place
      · rw [chainName_eq_none_of_le ended behind] at found
        cases found
      · -- the same name stands as far behind the earlier place
        obtain ⟨places, rfl⟩ := Nat.exists_eq_add_of_lt (Nat.lt_of_not_le behind)
        rw [Nat.add_assoc, ← chainName_add_eq (foundBefore.trans found.symm)] at ended
        exact inductionHypothesis (earlier + (places + 1)) (by omega) ended

theorem ChainEnds.not_missing_of_root {ancestors : List Step} {name : String}
    (root : step.ChainEnds steps [] (.root ancestors)) : ¬ step.ChainEnds steps [] (.missing name) := by
  rintro ⟨place, found, absent⟩
  have noStep : step.ancestor? steps place = none := by simp [ancestor?, found, absent]
  rw [← root.1, List.getElem?_eq_none_iff] at noStep
  rw [chainName_eq_none_of_le root.2 noStep] at found
  cases found

theorem ChainEnds.not_circle_of_chainName_eq_none {place : Nat} {name : String}
    (ended : step.chainName steps place = none) : ¬ step.ChainEnds steps [] (.circle name) := by
  rintro ⟨_, _, revisits, _⟩
  exact revisits.chainName_ne_none place ended

theorem chainName_succ_of_missing {name : String} {place : Nat} (found : step.chainName steps place = some name)
    (absent : steps.get? name = none) : step.chainName steps (place + 1) = none := by
  simp [chainName, found, absent]

theorem le_of_chainName_eq_some {place last : Nat} {name : String} (found : step.chainName steps place = some name)
    (ended : step.chainName steps (last + 1) = none) : place ≤ last := by
  refine Nat.le_of_not_lt fun behind => ?_
  rw [chainName_eq_none_of_le ended behind] at found
  cases found

theorem ChainEnds.unique {left right : ChainEnd} (first : step.ChainEnds steps [] left)
    (second : step.ChainEnds steps [] right) : left = right := by
  cases left with
  | root ancestors =>
    cases right with
    | root others => rw [List.ext_getElem? fun place => (first.1 place).trans (second.1 place).symm]
    | missing name => exact absurd second first.not_missing_of_root
    | circle name => exact absurd second (not_circle_of_chainName_eq_none first.2)
  | missing name =>
    obtain ⟨place, found, absent⟩ := first
    have ended := chainName_succ_of_missing found absent
    cases right with
    | root ancestors => exact absurd ⟨place, found, absent⟩ second.not_missing_of_root
    | missing other =>
      obtain ⟨otherPlace, otherFound, otherAbsent⟩ := second
      have otherEnded := chainName_succ_of_missing otherFound otherAbsent
      have samePlace : place = otherPlace :=
        Nat.le_antisymm (le_of_chainName_eq_some found otherEnded) (le_of_chainName_eq_some otherFound ended)
      subst samePlace
      cases found.symm.trans otherFound
      rfl
    | circle other => exact absurd second (not_circle_of_chainName_eq_none ended)
  | circle name =>
    cases right with
    | root ancestors => exact absurd first (not_circle_of_chainName_eq_none second.2)
    | missing other =>
      obtain ⟨place, found, absent⟩ := second
      exact absurd first (not_circle_of_chainName_eq_none (chainName_succ_of_missing found absent))
    | circle other =>
      obtain ⟨place, found, revisits, leastPlace⟩ := first
      obtain ⟨otherPlace, otherFound, otherRevisits, leastOther⟩ := second
      have samePlace : place = otherPlace := by
        rcases Nat.lt_trichotomy place otherPlace with before | same | behind
        · exact absurd revisits (leastOther place before)
        · exact same
        · exact absurd otherRevisits (leastPlace otherPlace behind)
      subst samePlace
      cases found.symm.trans otherFound
      rfl

end

/-! ## Expansion -/

/-- An expansion ends as the chain does on which it goes on. -/
theorem expandWithin_ends (steps : Steps) (stack : ImportStack) (step : Step) :
    ∃ ending, step.ChainEnds steps stack ending ∧
      Prod.fst <$> expandWithin steps stack step = ending.outcome step := by
  fun_induction expandWithin steps stack step with
  | case1 stack step rootless => exact ⟨.root [], chainEnds_of_rootless steps stack rootless, rfl⟩
  | case2 stack step name imports passed =>
    exact ⟨.circle name, ⟨0, imports, ⟨name, imports, .inl passed⟩, by omega⟩, rfl⟩
  | case3 stack step name imports fresh missing found =>
    obtain ⟨lost, rfl⟩ := Catalog.find_eq_error_iff.mp found
    exact ⟨.missing name, ⟨0, imports, lost⟩, rfl⟩
  | case4 stack step name imports fresh parent found pending error inner inductionHypothesis
  | case5 stack step name imports fresh parent found pending expanded left inner inductionHypothesis =>
    rw [inner] at inductionHypothesis
    exact ChainEnds.follow imports fresh (Catalog.find_eq_ok_iff.mp found) inductionHypothesis
  | case6 stack step name imports fresh parent found ready =>
    -- a parent that is not pending is used as it is stored
    have ends := chainEnds_of_rootless steps (name :: stack) (importName_of_not_isPending ready)
    exact ChainEnds.follow imports fresh (Catalog.find_eq_ok_iff.mp found) ⟨.root [], ends, rfl⟩

theorem expandImport_eq_outcome {step : Step} {steps : Steps} {ending : ChainEnd}
    (ends : step.ChainEnds steps [] ending) : step.expandImport steps = ending.outcome step := by
  obtain ⟨reached, ended, outcome⟩ := expandWithin_ends steps [] step
  rw [ends.unique ended]
  exact outcome

/-! ## What an imported step hands on -/

/-- The part of a reusable step that counts for the steps that import it. -/
def heritage (step : Step) : Step := { step with dataImportName := none, identifiers := .empty, data := none }

theorem chainName_heritage (step : Step) (steps : Steps) (place : Nat) :
    step.chainName (steps.map fun _ => heritage) place = step.chainName steps place := by
  induction place with
  | zero => rfl
  | succ place inductionHypothesis =>
    rw [chainName, chainName, inductionHypothesis]
    congr 1
    funext name
    rw [OrderedMap.get?_map]
    cases steps.get? name <;> rfl

theorem ancestor?_heritage (step : Step) (steps : Steps) (place : Nat) :
    step.ancestor? (steps.map fun _ => heritage) place = (step.ancestor? steps place).map heritage := by
  rw [ancestor?, chainName_heritage, ancestor?]
  cases step.chainName steps place with
  | none => rfl
  | some name => exact OrderedMap.get?_map _ _ _

def ChainEnd.heritage : ChainEnd → ChainEnd
  | .root ancestors => .root (ancestors.map Step.heritage)
  | .missing name => .missing name
  | .circle name => .circle name

theorem ChainEnds.heritage {step : Step} {steps : Steps} {ending : ChainEnd}
    (ends : step.ChainEnds steps [] ending) :
    step.ChainEnds (steps.map fun _ => Step.heritage) [] ending.heritage := by
  cases ending with
  | root ancestors =>
    obtain ⟨listed, last⟩ := ends
    refine ⟨fun place => ?_, ?_⟩
    · rw [List.getElem?_map, listed, ancestor?_heritage]
    · rwa [List.length_map, chainName_heritage]
  | missing name =>
    obtain ⟨place, found, absent⟩ := ends
    exact ⟨place, by rwa [chainName_heritage], by rw [OrderedMap.get?_map, absent]; rfl⟩
  | circle name =>
    simpa only [ChainEnds, ChainEnd.heritage, Revisits, chainName_heritage] using ends

theorem ChainEnd.outcome_heritage (step : Step) (ending : ChainEnd) :
    ending.heritage.outcome step = ending.outcome step := by
  cases ending with
  | missing | circle => rfl
  | root ancestors =>
    cases ancestors with
    | nil => rfl
    | cons first rest => simp [heritage, outcome, expandedBy, Step.heritage, List.flatMap_map, ← List.map_reverse]

/-- The import chain of a step leads to exactly one end, and this end decides what becomes of
the step. Of the steps on the chain nothing but the statements and the imports counts. -/
theorem expandImport_follows_chain (step : Step) (steps : Steps) :
    (∃! ending, step.ChainEnds steps [] ending) ∧
      (∀ ending, step.ChainEnds steps [] ending → step.expandImport steps = ending.outcome step) ∧
      step.expandImport (steps.map fun _ => heritage) = step.expandImport steps := by
  obtain ⟨ending, ends, _⟩ := expandWithin_ends steps [] step
  refine ⟨⟨ending, ends, fun other otherEnds => otherEnds.unique ends⟩, ?_, ?_⟩
  · exact fun _ => expandImport_eq_outcome
  · rw [expandImport_eq_outcome ends.heritage, expandImport_eq_outcome ends, ending.outcome_heritage]

end TestLinker.Step

namespace TestLinker

namespace RingExample

def importing (name : String) : Step := ⟨[], [], some name, none, .empty, none⟩

def steps : Steps := .ofList [("one", importing "two"), ("two", importing "three"), ("three", importing "two")]

end RingExample

open RingExample in
/-- The chain enters the circle at its second name, and this name is the one to be reported. -/
theorem Step.ring_follows_chain :
    (importing "one").ChainEnds steps [] (.circle "two") ∧
      (importing "one").expandImport steps = .error (.ofFault (.circularStepImport "two")) := by
  have fails : (importing "one").expandImport steps = .error (.ofFault (.circularStepImport "two")) := by
    decide +kernel
  obtain ⟨⟨ending, ends, _⟩, outcome, _⟩ := Step.expandImport_follows_chain (importing "one") steps
  have reported := (outcome ending ends).symm.trans fails
  cases ending with
  | root ancestors => cases ancestors <;> cases reported
  | missing name => cases reported
  | circle name =>
    cases reported
    exact ⟨ends, fails⟩

end TestLinker
