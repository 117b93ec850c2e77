import Mathlib.Data.List.Perm.Subperm
import TestLinker.Proofs.ImportChain

/-! # The calls of an expansion

An expansion calls itself on the step that an import names, if that step is pending. No part of the
data gets smaller on the way, since names may refer to one another in circles. What bounds the calls
is their stack: each call is made with one more name on it, no name is on it twice, and all of them
are names of stored steps.

`expandTraced` is the expansion with a list of the calls that it makes. One call leads to the next
one as `Call.Nests` says, and `Call.IsAt` holds at every call by the place it has in the list.
-/

namespace TestLinker.Step

/-- A call of the expansion, by what it is given. -/
structure Call where
  stack : ImportStack
  step : Step

/-- Expands the import of a step while the names on the stack are being expanded, and lists the calls
that are made, the outermost first. -/
def expandTraced (steps : Steps) (stack : ImportStack) (step : Step) :
    Except LinkError (Option Step × ImportStack) × List Call :=
  match step.importName with
  | none => (.ok (none, stack), [⟨stack, step⟩])
  | some name =>
    if _hstack : name ∈ stack then (.error (.ofFault (.circularStepImport name)), [⟨stack, step⟩])
    else
      match _hfind : steps.find name with
      | .error missing => (.error (.ofUnknownItem missing), [⟨stack, step⟩])
      | .ok parent =>
        if parent.isPending then
          let inner := expandTraced steps (name :: stack) parent
          (inner.1.map fun answer => (some (step.inherit (answer.1.getD parent)), answer.2.tail),
            ⟨stack, step⟩ :: inner.2)
        else (.ok (some (step.inherit parent), stack), [⟨stack, step⟩])
termination_by (steps.unvisited stack).length
decreasing_by exact Steps.length_unvisited_push_lt ‹_› ‹_›

/-- The calls that the expansion of a step makes, the outermost first. -/
def calls (step : Step) (steps : Steps) : List Call := (expandTraced steps [] step).2

/-- The second call is made within the first one, on the step that is stored under the name. -/
structure Call.Nests (steps : Steps) (outer inner : Call) (name : String) : Prop where
  imports : outer.step.importName = some name
  fresh : name ∉ outer.stack
  stored : steps.get? name = some inner.step
  pending : inner.step.isPending = true
  pushed : inner.stack = name :: outer.stack

/-- The step that is reached after so many names of the import chain. -/
def reached? (step : Step) (steps : Steps) : Nat → Option Step
  | 0 => some step
  | depth + 1 => step.ancestor? steps depth

/-- What holds of the call that is made at some depth of the expansion of `start`. -/
structure Call.IsAt (steps : Steps) (start : Step) (depth : Nat) (call : Call) : Prop where
  distinct : call.stack.Nodup
  stored : ∀ name ∈ call.stack, ∃ pending, steps.get? name = some pending ∧ pending.isPending = true
  /-- The stack holds the names of the import chain up to here, the first one at the bottom. -/
  inOrder : call.stack.reverse.map some = (List.range depth).map (start.chainName steps)
  reached : start.reached? steps depth = some call.step

variable {steps : Steps}

/-! ## The listed calls are made -/

/-- Without the list of calls, what is left is the expansion. -/
theorem expandTraced_fst (steps : Steps) (stack : ImportStack) (step : Step) :
    (expandTraced steps stack step).1 = expandWithin steps stack step := by
  fun_induction expandTraced steps stack step with
  | case1 stack step rootless => rw [expandWithin_of_no_import rootless]
  | case2 stack step name imports passed => rw [expandWithin_of_mem imports passed]
  | case3 stack step name imports fresh missing found => rw [expandWithin_of_missing imports fresh found]
  | case4 stack step name imports fresh parent found pending inner inductionHypothesis =>
    rw [expandWithin_of_pending imports fresh found pending, ← inductionHypothesis]
  | case5 stack step name imports fresh parent found ready =>
    rw [expandWithin_of_ready imports fresh found (by simpa using ready)]

/-- The calls start with the outermost one, and each of the others is made within the one before. -/
theorem exists_calls_expandTraced (steps : Steps) (stack : ImportStack) (step : Step) :
    ∃ inner, (expandTraced steps stack step).2 = ⟨stack, step⟩ :: inner ∧
      List.IsChain (fun outer inner => ∃ name, Call.Nests steps outer inner name) (⟨stack, step⟩ :: inner) := by
  fun_induction expandTraced steps stack step with
  | case1 | case2 | case3 | case5 => exact ⟨[], rfl, .singleton _⟩
  | case4 stack step name imports fresh parent found pending inner inductionHypothesis =>
    obtain ⟨deeper, listed, nests⟩ := inductionHypothesis
    refine ⟨⟨name :: stack, parent⟩ :: deeper, by rw [← listed], List.isChain_cons_cons.mpr ⟨?_, nests⟩⟩
    exact ⟨name, imports, fresh, Catalog.find_eq_ok_iff.mp found, pending, rfl⟩

/-! ## What holds at every call -/

theorem chainName_of_reached {start step : Step} {depth : Nat} (reached : start.reached? steps depth = some step) :
    start.chainName steps depth = step.importName := by
  cases depth with
  | zero => cases reached; rfl
  | succ depth =>
    obtain ⟨name, found, stored⟩ := Option.bind_eq_some_iff.mp reached
    rw [chainName, found, Option.bind_some, stored, Option.bind_some]

namespace Call

variable {start : Step} {depth : Nat} {outer inner : Call}

theorem isAt_outermost (start : Step) : IsAt steps start 0 ⟨[], start⟩ where
  distinct := List.nodup_nil
  stored := by simp
  inOrder := rfl
  reached := rfl

/-- A nested call goes on by one name of the import chain. -/
theorem IsAt.nested {name : String} (isAt : outer.IsAt steps start depth) (nests : Nests steps outer inner name) :
    inner.IsAt steps start (depth + 1) := by
  have found : start.chainName steps depth = some name := (chainName_of_reached isAt.reached).trans nests.imports
  refine ⟨?_, ?_, ?_, ?_⟩
  · rw [nests.pushed]
    exact List.nodup_cons.mpr ⟨nests.fresh, isAt.distinct⟩
  · rw [nests.pushed]
    exact List.forall_mem_cons.mpr ⟨⟨inner.step, nests.stored, nests.pending⟩, isAt.stored⟩
  · rw [nests.pushed, List.reverse_cons, List.map_append, isAt.inOrder, List.range_succ, List.map_append,
      List.map_singleton, List.map_singleton, found]
  · rw [reached?, ancestor?, found, Option.bind_some, nests.stored]

theorem isAt_of_isChain {calls : List Call} {first : Call} (isAt : first.IsAt steps start depth)
    (nests : List.IsChain (fun outer inner => ∃ name, Nests steps outer inner name) (first :: calls))
    {place : Nat} {call : Call} (listed : (first :: calls)[place]? = some call) :
    call.IsAt steps start (depth + place) := by
  induction calls generalizing first depth place with
  | nil =>
    cases place with
    | zero => cases listed; exact isAt
    | succ place => simp at listed
  | cons second rest inductionHypothesis =>
    cases place with
    | zero => cases listed; exact isAt
    | succ place =>
      obtain ⟨⟨name, nested⟩, deeper⟩ := List.isChain_cons_cons.mp nests
      rw [Nat.add_comm place, ← Nat.add_assoc]
      exact inductionHypothesis (isAt.nested nested) deeper listed

/-- A call is no deeper than there are stored steps, because its stack has a name for each call
around it. -/
theorem IsAt.depth_le {call : Call} (isAt : call.IsAt steps start depth) : depth ≤ steps.size := by
  have sameLength : call.stack.length = depth := by simpa using congrArg List.length isAt.inOrder
  have subset : call.stack ⊆ steps.keys := by
    intro name member
    obtain ⟨stored, isStored, _⟩ := isAt.stored name member
    exact OrderedMap.mem_keys_iff.mpr ⟨stored, isStored⟩
  have bounded : call.stack.length ≤ steps.keys.length := (List.subperm_of_subset isAt.distinct subset).length_le
  rwa [sameLength, OrderedMap.keys, List.length_map] at bounded

end Call

theorem length_calls_le (step : Step) (steps : Steps) : (step.calls steps).length ≤ steps.size + 1 := by
  obtain ⟨inner, listed, nests⟩ := exists_calls_expandTraced steps [] step
  obtain ⟨last, isLast⟩ : ∃ last, (⟨[], step⟩ :: inner)[inner.length]? = some last :=
    Option.isSome_iff_exists.mp (by simp)
  have bounded := (Call.isAt_of_isChain (Call.isAt_outermost step) nests isLast).depth_le
  rw [calls, listed, List.length_cons]
  omega

/-- The expansion of a step makes at most one call more than there are stored steps. Each call but
the outermost is made within the one before, with one more name on the stack. The names on the stack
of a call are those of the import chain up to there, all different and all stored with a pending
step, and a call that succeeds leaves them as they were. -/
theorem expandImport_calls (step : Step) (steps : Steps) :
    step.expandImport steps = Prod.fst <$> (expandTraced steps [] step).1 ∧
      (∀ call : Call, (expandTraced steps call.stack call.step).1 = expandWithin steps call.stack call.step) ∧
      (step.calls steps).length ≤ steps.size + 1 ∧
      (step.calls steps).head? = some ⟨[], step⟩ ∧
      List.IsChain (fun outer inner => ∃ name, Call.Nests steps outer inner name) (step.calls steps) ∧
      (∀ (depth : Nat) (call : Call), (step.calls steps)[depth]? = some call → call.IsAt steps step depth) ∧
      ∀ (call : Call) (answer : Option Step) (left : ImportStack),
        expandWithin steps call.stack call.step = .ok (answer, left) → left = call.stack := by
  obtain ⟨inner, listed, nests⟩ := exists_calls_expandTraced steps [] step
  refine ⟨by rw [expandTraced_fst]; rfl, fun call => expandTraced_fst steps call.stack call.step,
    length_calls_le step steps, by rw [calls, listed]; rfl, by rwa [calls, listed], ?_, ?_⟩
  · intro depth call isCalled
    rw [calls, listed] at isCalled
    simpa using Call.isAt_of_isChain (Call.isAt_outermost step) nests isCalled
  · intro call answer left succeeds
    exact (expandWithin_eq_ok succeeds).1

end TestLinker.Step

namespace TestLinker

namespace LadderExample

def toFirst : Step := RingExample.importing "one"

def toSecond : Step := RingExample.importing "two"

/-- The last step is pending too, through its data import. -/
def steps : Steps := .ofList
  [("one", toSecond), ("two", RingExample.importing "three"), ("three", { Step.empty with dataImportName := some "users" })]

end LadderExample

open LadderExample in
/-- No expansion can make more calls: every stored step is on the stack of the last one. -/
theorem Step.ladder_calls :
    (toFirst.calls steps).map Call.stack = [[], ["one"], ["two", "one"], ["three", "two", "one"]] ∧
      (toFirst.calls steps).length = steps.size + 1 ∧
      (∃ call, (toFirst.calls steps)[3]? = some call ∧ call.IsAt steps toFirst 3) ∧
      ∃ answer left, expandWithin steps ["one"] toSecond = .ok (answer, left) ∧ left = ["one"] := by
  have named : (toFirst.calls steps).map Call.stack = [[], ["one"], ["two", "one"], ["three", "two", "one"]] := by
    decide +kernel
  have succeeds : expandWithin steps ["one"] toSecond = .ok (some Step.empty, ["one"]) := by decide +kernel
  obtain ⟨_, _, _, _, _, isAt, keeps⟩ := Step.expandImport_calls toFirst steps
  have last : ((toFirst.calls steps).map Call.stack)[3]? = some ["three", "two", "one"] := by rw [named]; rfl
  rw [List.getElem?_map] at last
  obtain ⟨call, isCalled, _⟩ := Option.map_eq_some_iff.mp last
  refine ⟨named, by decide +kernel, ⟨call, isCalled, isAt 3 call isCalled⟩, ?_⟩
  exact ⟨_, _, succeeds, keeps ⟨["one"], toSecond⟩ _ _ succeeds⟩

end TestLinker
