import TestLinker.OrderedMap.Lemmas
import TestLinker.Step.Basic

/-! # Expanding the imports of a step

A step import puts the statements of a reusable step before those of the importing step.
The reusable step may have an import of its own, so an expansion follows a chain of
names. The names that are being expanded are kept on a stack: a name that is met again
means that the chain is a circle. A name is put on the stack only if its step is pending,
and every name on it is stored, so an expansion ends after at most as many nested calls
as there are stored steps.

Only statements are inherited. Identifiers, data and the data import of the importing
step stay as they are, and those of the reusable steps have no influence.
-/

namespace TestLinker

/-- The import names that are being expanded, the innermost first. -/
abbrev ImportStack := List String

def Steps.unvisited (steps : Steps) (stack : ImportStack) : List String :=
  steps.keys.filter fun name => decide (name ∉ stack)

theorem Steps.length_unvisited_push_lt {steps : Steps} {stack : ImportStack} {name : String}
    {parent : Step} (hstack : name ∉ stack) (hfind : steps.find name = .ok parent) :
    (steps.unvisited (name :: stack)).length < (steps.unvisited stack).length := by
  have hkey : name ∈ steps.keys :=
    OrderedMap.mem_keys_iff.2 ⟨parent, Catalog.find_eq_ok_iff.1 hfind⟩
  have hmem : name ∈ steps.unvisited stack := by simp [unvisited, hkey, hstack]
  have hfilter : steps.unvisited (name :: stack) =
      (steps.unvisited stack).filter fun key => decide (key ≠ name) := by
    simp [unvisited, List.filter_filter]
  rw [hfilter]
  exact List.length_filter_lt_length_iff_exists.2 ⟨name, hmem, by simp⟩

namespace Step

/-- The step with the statements of `parent` before its own and without its import. -/
def inherit (step parent : Step) : Step :=
  { (step.prependActions parent.actions).prependAssertions parent.assertions with
    importName := none }

/-- Expands the import of a step while the names on the stack are being expanded. The
answer is `none` for a step without import, and comes with the stack that is left. -/
def expandWithin (steps : Steps) (stack : ImportStack) (step : Step) :
    Except LinkError (Option Step × ImportStack) :=
  match step.importName with
  | none => .ok (none, stack)
  | some name =>
    if _hstack : name ∈ stack then .error (.ofFault (.circularStepImport name))
    else
      match _hfind : steps.find name with
      | .error missing => .error (.ofUnknownItem missing)
      | .ok parent =>
        if parent.isPending then
          match expandWithin steps (name :: stack) parent with
          | .error error => .error error
          -- the name is taken off the stack again
          | .ok (expanded, left) => .ok (some (step.inherit (expanded.getD parent)), left.tail)
        else .ok (some (step.inherit parent), stack)
termination_by (steps.unvisited stack).length
decreasing_by exact Steps.length_unvisited_push_lt ‹_› ‹_›

theorem expandWithin_of_no_import {steps : Steps} {stack : ImportStack} {step : Step}
    (hname : step.importName = none) : expandWithin steps stack step = .ok (none, stack) := by
  rw [expandWithin]
  split
  · rfl
  · next h => cases hname.symm.trans h

theorem expandWithin_of_mem {steps : Steps} {stack : ImportStack} {step : Step} {name : String}
    (hname : step.importName = some name) (hstack : name ∈ stack) :
    expandWithin steps stack step = .error (.ofFault (.circularStepImport name)) := by
  rw [expandWithin]
  split
  · next h => cases hname.symm.trans h
  · next h =>
    cases hname.symm.trans h
    rw [dif_pos hstack]

theorem expandWithin_of_missing {steps : Steps} {stack : ImportStack} {step : Step}
    {name : String} {missing : UnknownItem} (hname : step.importName = some name)
    (hstack : name ∉ stack) (hfind : steps.find name = .error missing) :
    expandWithin steps stack step = .error (.ofUnknownItem missing) := by
  rw [expandWithin]
  split
  · next h => cases hname.symm.trans h
  · next h =>
    cases hname.symm.trans h
    rw [dif_neg hstack]
    split
    · next h => cases hfind.symm.trans h; rfl
    · next h => cases hfind.symm.trans h

theorem expandWithin_of_ready {steps : Steps} {stack : ImportStack} {step parent : Step}
    {name : String} (hname : step.importName = some name) (hstack : name ∉ stack)
    (hfind : steps.find name = .ok parent) (hready : parent.isPending = false) :
    expandWithin steps stack step = .ok (some (step.inherit parent), stack) := by
  rw [expandWithin]
  split
  · next h => cases hname.symm.trans h
  · next h =>
    cases hname.symm.trans h
    rw [dif_neg hstack]
    split
    · next h => cases hfind.symm.trans h
    · next h =>
      cases hfind.symm.trans h
      rw [if_neg (by simp [hready])]

theorem expandWithin_of_pending {steps : Steps} {stack : ImportStack} {step parent : Step}
    {name : String} (hname : step.importName = some name) (hstack : name ∉ stack)
    (hfind : steps.find name = .ok parent) (hpending : parent.isPending = true) :
    expandWithin steps stack step =
      (expandWithin steps (name :: stack) parent).map fun inner =>
        (some (step.inherit (inner.1.getD parent)), inner.2.tail) := by
  conv => lhs; rw [expandWithin]
  split
  · next h => cases hname.symm.trans h
  · next h =>
    cases hname.symm.trans h
    rw [dif_neg hstack]
    split
    · next h => cases hfind.symm.trans h
    · next h =>
      cases hfind.symm.trans h
      rw [if_pos hpending]
      cases expandWithin steps (name :: stack) parent <;> rfl

def expandImport (step : Step) (steps : Steps) : Except LinkError (Option Step) :=
  Prod.fst <$> expandWithin steps [] step

/-- Attaches the data collection that a step imports; `none` means that it imports none. -/
def attachData (step : Step) (dataSets : DataSets) : Except LinkError (Option Step) :=
  match step.dataImportName with
  | none => .ok none
  | some name => do
    let collection ← (dataSets.find name).mapError .ofUnknownItem
    return some { step with data := some collection, dataImportName := none }

end Step

end TestLinker
