import TestLinker.Proofs.ImportChain
import TestLinker.Proofs.Linkage

/-! # Either import first

A step may have a step import and a data import. Linking expands the step import first, but the
order has no influence: the expansion neither reads nor changes the data, and the data are
attached without a look at the statements. So both orders amount to the expansion and the
attachment of the step as it is written, put together (`expandThenAttach_eq`,
`attachThenExpand_eq`), and they can differ only where both imports fail.
-/

namespace TestLinker

namespace Step

/-- Expands the step import, and then attaches the data import of what is left. -/
def expandThenAttach (step : Step) (steps : Steps) (dataSets : DataSets) : Except LinkError Step := do
  let expanded := (← step.expandImport steps).getD step
  return (← expanded.attachData dataSets).getD expanded

/-- Attaches the data import, and then expands the step import of what is left. -/
def attachThenExpand (step : Step) (steps : Steps) (dataSets : DataSets) : Except LinkError Step := do
  let attached := (← step.attachData dataSets).getD step
  return (← attached.expandImport steps).getD attached

/-- The step with its data and without its data import. -/
def supplied (step : Step) (data : Option DataCollection) : Step :=
  { step with data := data, dataImportName := none }

/-! ## The chain of a step depends on its import only -/

section

variable {first second : Step} {steps : Steps}

theorem chainName_congr (sameImport : first.importName = second.importName) (steps : Steps) :
    first.chainName steps = second.chainName steps := by
  funext place
  induction place with
  | zero => exact sameImport
  | succ place inductionHypothesis => rw [chainName, inductionHypothesis, chainName]

theorem ChainEnds.congr {passed : ImportStack} {ending : ChainEnd} (ends : first.ChainEnds steps passed ending)
    (sameImport : first.importName = second.importName) : second.ChainEnds steps passed ending := by
  cases ending <;>
    simpa only [ChainEnds, Revisits, ancestor?, chainName_congr sameImport] using ends

end

/-! ## Each import keeps what the other one needs -/

section

variable {step : Step} {steps : Steps} {dataSets : DataSets}

theorem ChainEnd.outcome_supplied (ending : ChainEnd) (data : Option DataCollection) :
    ending.outcome (step.supplied data) = Option.map (supplied · data) <$> ending.outcome step := by
  cases ending with
  | missing | circle => rfl
  | root ancestors =>
    cases ancestors with
    | nil => rfl
    | cons parent ancestors => simp [ChainEnd.outcome, expandedBy, supplied]

theorem expandImport_supplied (data : Option DataCollection) :
    (step.supplied data).expandImport steps = Option.map (supplied · data) <$> step.expandImport steps := by
  obtain ⟨ending, ends, _⟩ := expandWithin_ends steps [] step
  have endsSupplied : (step.supplied data).ChainEnds steps [] ending := ends.congr rfl
  rw [expandImport_eq_outcome endsSupplied, expandImport_eq_outcome ends, ending.outcome_supplied]

theorem attachData_expandedBy (lineage : List Step) :
    (step.expandedBy lineage).attachData dataSets =
      Option.map (expandedBy · lineage) <$> step.attachData dataSets := by
  have sameImport : (step.expandedBy lineage).dataImportName = step.dataImportName := rfl
  unfold attachData
  rw [sameImport]
  cases step.dataImportName with
  | none => rfl
  | some name =>
    dsimp only
    cases dataSets.find name <;> rfl

/-! ## Both orders put together the same two outcomes -/

theorem expandThenAttach_eq :
    step.expandThenAttach steps dataSets = do
      let expanded ← step.expandImport steps
      let attached ← step.attachData dataSets
      return (expanded.getD step).supplied (attached.getD step).data := by
  unfold expandThenAttach
  cases expands : step.expandImport steps with
  | error error => rfl
  | ok expanded =>
    obtain ⟨lineage, _, expansion⟩ := expandImport_eq_ok expands
    change (expanded.getD step).attachData dataSets >>= _ = step.attachData dataSets >>= _
    rw [expansion, attachData_expandedBy]
    cases attaches : step.attachData dataSets with
    | error error => rfl
    | ok attached =>
      obtain ⟨data, _, attachment⟩ := attachData_eq_ok attaches
      refine congrArg Except.ok ((Option.getD_map (expandedBy · lineage) step attached).trans ?_)
      rw [attachment]
      rfl

theorem attachThenExpand_eq :
    step.attachThenExpand steps dataSets = do
      let attached ← step.attachData dataSets
      let expanded ← step.expandImport steps
      return (expanded.getD step).supplied (attached.getD step).data := by
  unfold attachThenExpand
  cases attaches : step.attachData dataSets with
  | error error => rfl
  | ok attached =>
    obtain ⟨data, _, attachment⟩ := attachData_eq_ok attaches
    change (attached.getD step).expandImport steps >>= _ = step.expandImport steps >>= _
    have isSupplied : attached.getD step = step.supplied data := attachment
    rw [isSupplied, expandImport_supplied]
    cases step.expandImport steps with
    | error error => rfl
    | ok expanded => exact congrArg Except.ok (Option.getD_map (supplied · data) step expanded)

theorem isPending_of_expandThenAttach_eq_ok {result : Step}
    (succeeds : step.expandThenAttach steps dataSets = .ok result) : result.isPending = false := by
  rw [expandThenAttach_eq] at succeeds
  obtain ⟨expanded, expands, attachesAndReturns⟩ := Outcome.bind_eq_ok_iff.mp succeeds
  obtain ⟨attached, _, returns⟩ := Outcome.bind_eq_ok_iff.mp attachesAndReturns
  obtain ⟨lineage, _, expansion⟩ := expandImport_eq_ok expands
  cases returns
  rw [expansion]
  rfl

end

/-- The two imports of a step may be carried out in either order. Both orders succeed if each import
succeeds on the step as it is written, and then they leave the same step, which is not pending. If
one import fails and the other one does not, both orders report its error. -/
theorem imports_in_either_order (step : Step) (steps : Steps) (dataSets : DataSets) :
    ((∃ result, step.expandThenAttach steps dataSets = .ok result) ↔
        (∃ expanded, step.expandImport steps = .ok expanded) ∧ ∃ attached, step.attachData dataSets = .ok attached) ∧
      (∀ result, step.expandThenAttach steps dataSets = .ok result ↔
        step.attachThenExpand steps dataSets = .ok result) ∧
      (∀ result, step.expandThenAttach steps dataSets = .ok result → result.isPending = false) ∧
      (∀ error attached, step.expandImport steps = .error error → step.attachData dataSets = .ok attached →
        step.expandThenAttach steps dataSets = .error error ∧ step.attachThenExpand steps dataSets = .error error) ∧
      ∀ error expanded, step.attachData dataSets = .error error → step.expandImport steps = .ok expanded →
        step.expandThenAttach steps dataSets = .error error ∧ step.attachThenExpand steps dataSets = .error error := by
  refine ⟨?_, ?_, fun _ => isPending_of_expandThenAttach_eq_ok, ?_, ?_⟩
  · rw [expandThenAttach_eq]
    cases step.expandImport steps <;> cases step.attachData dataSets <;> simp [bind, Except.bind, pure, Except.pure]
  · intro result
    rw [expandThenAttach_eq, attachThenExpand_eq]
    cases step.expandImport steps <;> cases step.attachData dataSets <;> simp [bind, Except.bind, pure, Except.pure]
  · intro error attached expansionFails attaches
    rw [expandThenAttach_eq, attachThenExpand_eq, expansionFails, attaches]
    exact ⟨rfl, rfl⟩
  · intro error expanded attachmentFails expands
    rw [expandThenAttach_eq, attachThenExpand_eq, attachmentFails, expands]
    exact ⟨rfl, rfl⟩

end Step

namespace RegisterExample

def wait : Statement := .action "Wait for 1" (.wait "1")

def reload : Statement := .action "Reload" (.noArguments "reload")

def steps : Steps := .ofList
  [("open form", { Step.empty with actions := [wait] }), ("lost", { Step.empty with importName := some "nowhere" })]

def users : DataCollection := .ofList [("0", .ofList [("name", "alice")])]

def dataSets : DataSets := .ofList [("users", users)]

def register (importName dataImportName : String) : Step :=
  { Step.empty with
    actions := [reload]
    importName := some importName
    dataImportName := some dataImportName }

def registered : Step := { Step.empty with actions := [wait, reload], data := some users }

end RegisterExample

open RegisterExample in
/-- Both imports succeed, or the step import fails, or the data import fails. -/
theorem Step.register_imports :
    (register "open form" "users").expandThenAttach steps dataSets = .ok registered ∧
      (register "open form" "users").attachThenExpand steps dataSets = .ok registered ∧
      registered.isPending = false ∧
      (register "lost" "users").attachThenExpand steps dataSets = .error (.ofUnknownItem ⟨.step, "nowhere"⟩) ∧
      (register "open form" "guests").expandThenAttach steps dataSets =
        .error (.ofUnknownItem ⟨.dataSet, "guests"⟩) := by
  have succeeds : (register "open form" "users").expandThenAttach steps dataSets = .ok registered := by
    decide +kernel
  have expands : (register "open form" "guests").expandImport steps =
      .ok (some { register "open form" "guests" with actions := [wait, reload], importName := none }) := by
    decide +kernel
  have attaches : (register "lost" "users").attachData dataSets =
      .ok (some { register "lost" "users" with data := some users, dataImportName := none }) := by
    decide +kernel
  obtain ⟨_, sameResult, notPending, _⟩ := Step.imports_in_either_order (register "open form" "users") steps dataSets
  obtain ⟨_, _, _, expansionFails, _⟩ := Step.imports_in_either_order (register "lost" "users") steps dataSets
  obtain ⟨_, _, _, _, attachmentFails⟩ := Step.imports_in_either_order (register "open form" "guests") steps dataSets
  exact ⟨succeeds, (sameResult _).mp succeeds, notPending _ succeeds,
    (expansionFails _ _ (by decide +kernel) attaches).2, (attachmentFails _ _ (by decide +kernel) expands).1⟩

end TestLinker
