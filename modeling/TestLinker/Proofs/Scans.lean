import Mathlib.Logic.Function.Iterate
import TestLinker.Page.Expansion

/-! # Scans of any page

What holds of the scans of a page whatever its texts are: they keep the names, and the
expansion of the page succeeds exactly if they end and the texts they end with have no token.
The identifiers they end with are reached by `scan`, iterated, so that what one scan keeps
holds of them. They are those of the bounded scans under every bound that is enough
(`expansion?_of_complete`), and there are none exactly if no bound is (`expansion?_eq_none_iff`).
A page can take more scans than it has identifiers, and on some pages the scans never end.
-/

namespace TestLinker

theorem Parent.isExpanded_iff {text : String} : isExpanded text = true ↔ firstName? text = none := by
  rw [isExpanded, firstName?, List.head?_eq_none_iff, List.isEmpty_iff]

namespace Identifiers

theorem isExpanded_iff {identifiers : Identifiers} :
    identifiers.isExpanded = true ↔ ∀ text ∈ identifiers.values, Parent.isExpanded text = true :=
  List.all_eq_true

theorem firstParent?_eq_none_iff {identifiers : Identifiers} :
    identifiers.firstParent? = none ↔ identifiers.isExpanded = true := by
  rw [firstParent?, List.findSome?_eq_none_iff, isExpanded_iff]
  simp only [Parent.isExpanded_iff]

theorem scan_eq_self_iff {identifiers : Identifiers} :
    identifiers.scan = identifiers ↔
      ∀ name text, identifiers.get? name = some text → identifiers.substituteParents text = text :=
  OrderedMap.map_eq_self_iff

theorem substituteParents_of_isExpanded {identifiers : Identifiers} {text : String}
    (expanded : Parent.isExpanded text = true) : identifiers.substituteParents text = text := by
  rw [substituteParents, List.isEmpty_iff.mp expanded]
  rfl

theorem scan_of_isExpanded {identifiers : Identifiers} (expanded : identifiers.isExpanded = true) :
    identifiers.scan = identifiers := by
  refine scan_eq_self_iff.mpr fun name text declared => substituteParents_of_isExpanded ?_
  exact isExpanded_iff.mp expanded text (OrderedMap.mem_values_iff.mpr ⟨name, declared⟩)

/-! ## Bounded scans -/

/-- The next scan is the last one: it leaves no token, or it changes nothing. -/
def EndsAfterScan (identifiers : Identifiers) : Prop :=
  identifiers.scan.isExpanded = true ∨ identifiers.scan = identifiers

theorem scansWithin_of_ends {identifiers : Identifiers} (ends : identifiers.EndsAfterScan) (bound : Nat) :
    identifiers.scansWithin (bound + 1) = ⟨identifiers.scan, 1, true⟩ := by
  rw [scansWithin]
  exact if_pos ends

theorem scansWithin_of_goesOn {identifiers : Identifiers} (goesOn : ¬ identifiers.EndsAfterScan) (bound : Nat) :
    identifiers.scansWithin (bound + 1) =
      { identifiers.scan.scansWithin bound with count := (identifiers.scan.scansWithin bound).count + 1 } := by
  rw [scansWithin]
  exact if_neg goesOn

theorem scansWithin_eq_iterate (identifiers : Identifiers) (bound : Nat) :
    (identifiers.scansWithin bound).identifiers = scan^[(identifiers.scansWithin bound).count] identifiers := by
  induction bound generalizing identifiers with
  | zero => rfl
  | succ bound inductionHypothesis =>
    by_cases ends : identifiers.EndsAfterScan
    · rw [scansWithin_of_ends ends]
      rfl
    · rw [scansWithin_of_goesOn ends]
      exact inductionHypothesis identifiers.scan

theorem count_scansWithin_le (identifiers : Identifiers) (bound : Nat) :
    (identifiers.scansWithin bound).count ≤ bound := by
  induction bound generalizing identifiers with
  | zero => exact Nat.le_refl 0
  | succ bound inductionHypothesis =>
    by_cases ends : identifiers.EndsAfterScan
    · rw [scansWithin_of_ends ends]
      exact Nat.le_add_left 1 bound
    · rw [scansWithin_of_goesOn ends]
      exact Nat.succ_le_succ (inductionHypothesis identifiers.scan)

/-- Scans end by themselves only where no token is left or another scan would change nothing. -/
theorem isExpanded_or_scan_eq_of_complete {identifiers : Identifiers} {bound : Nat}
    (complete : (identifiers.scansWithin bound).complete = true) :
    (identifiers.scansWithin bound).identifiers.isExpanded = true ∨
      (identifiers.scansWithin bound).identifiers.scan = (identifiers.scansWithin bound).identifiers := by
  induction bound generalizing identifiers with
  | zero => cases complete
  | succ bound inductionHypothesis =>
    by_cases ends : identifiers.EndsAfterScan
    · rw [scansWithin_of_ends ends]
      exact ends.imp_right (congrArg scan)
    · rw [scansWithin_of_goesOn ends] at complete ⊢
      exact inductionHypothesis complete

/-- Scans that end by themselves are the same under every larger bound. -/
theorem scansWithin_eq_of_complete {identifiers : Identifiers} {bound larger : Nat}
    (complete : (identifiers.scansWithin bound).complete = true) (enough : bound ≤ larger) :
    identifiers.scansWithin larger = identifiers.scansWithin bound := by
  induction bound generalizing identifiers larger with
  | zero => cases complete
  | succ bound inductionHypothesis =>
    obtain ⟨further, rfl⟩ : ∃ further, larger = further + 1 := ⟨larger - 1, by omega⟩
    by_cases ends : identifiers.EndsAfterScan
    · rw [scansWithin_of_ends ends, scansWithin_of_ends ends]
    · rw [scansWithin_of_goesOn ends] at complete
      rw [scansWithin_of_goesOn ends, scansWithin_of_goesOn ends,
        inductionHypothesis complete (Nat.le_of_succ_le_succ enough)]

theorem keys_iterate_scan (identifiers : Identifiers) (count : Nat) :
    (scan^[count] identifiers).keys = identifiers.keys :=
  Function.Iterate.rec (fun later : Identifiers => later.keys = identifiers.keys) rfl
    (fun later same => (keys_scan later).trans same) count

/-! ## All scans -/

section

variable {identifiers result : Identifiers} {bound : Nat}

theorem scanOn_of_ends (ends : identifiers.EndsAfterScan) : identifiers.scanOn = some identifiers.scan := by
  rw [scanOn]
  exact if_pos ends

theorem scanOn_of_goesOn (goesOn : ¬ identifiers.EndsAfterScan) :
    identifiers.scanOn = identifiers.scan.scanOn := by
  -- the equation of the loop fits the right side as well
  conv => lhs; rw [scanOn]
  exact if_neg goesOn

theorem scanOn_of_complete (complete : (identifiers.scansWithin bound).complete = true) :
    identifiers.scanOn = some (identifiers.scansWithin bound).identifiers := by
  induction bound generalizing identifiers with
  | zero => cases complete
  | succ bound inductionHypothesis =>
    by_cases ends : identifiers.EndsAfterScan
    · rw [scanOn_of_ends ends, scansWithin_of_ends ends]
    · rw [scansWithin_of_goesOn ends] at complete ⊢
      exact (scanOn_of_goesOn ends).trans (inductionHypothesis complete)

/-- To go on where a bound has stopped the scans is the same as never to stop. -/
theorem scanOn_scansWithin (incomplete : ¬ (identifiers.scansWithin bound).complete = true) :
    (identifiers.scansWithin bound).identifiers.scanOn = identifiers.scanOn := by
  induction bound generalizing identifiers with
  | zero => rfl
  | succ bound inductionHypothesis =>
    by_cases ends : identifiers.EndsAfterScan
    · rw [scansWithin_of_ends ends] at incomplete
      exact absurd rfl incomplete
    · rw [scansWithin_of_goesOn ends] at incomplete ⊢
      exact (inductionHypothesis incomplete).trans (scanOn_of_goesOn ends).symm

theorem scanOn_eq_some_iff :
    identifiers.scanOn = some result ↔
      ∃ bound, (identifiers.scansWithin bound).complete = true ∧ (identifiers.scansWithin bound).identifiers = result := by
  constructor
  · -- the loop returns only what scans that end return, so the number of scans is the bound
    refine scanOn.partial_correctness (fun written result => ∃ bound, (written.scansWithin bound).complete = true ∧
      (written.scansWithin bound).identifiers = result) ?_ identifiers result
    intro further inductionHypothesis written result returns
    by_cases ends : written.EndsAfterScan
    · have last : some written.scan = some result := (if_pos ends).symm.trans returns
      cases last
      exact ⟨1, by rw [scansWithin_of_ends ends], by rw [scansWithin_of_ends ends]⟩
    · have goesOn : further written.scan = some result := (if_neg ends).symm.trans returns
      obtain ⟨bound, complete, reached⟩ := inductionHypothesis _ _ goesOn
      exact ⟨bound + 1, by rwa [scansWithin_of_goesOn ends], by rwa [scansWithin_of_goesOn ends]⟩
  · rintro ⟨bound, complete, rfl⟩
    exact scanOn_of_complete complete

theorem expansion?_eq_scanOn (identifiers : Identifiers) : identifiers.expansion? = identifiers.scanOn := by
  unfold expansion?
  by_cases complete : identifiers.scans.complete = true
  · simp only [if_pos complete]
    exact (scanOn_of_complete complete).symm
  · simp only [if_neg complete]
    exact scanOn_scansWithin complete

/-- The scans come to an end, however many they are. -/
def Ends (identifiers : Identifiers) : Prop := ∃ bound, (identifiers.scansWithin bound).complete = true

theorem expansion?_of_complete (complete : (identifiers.scansWithin bound).complete = true) :
    identifiers.expansion? = some (identifiers.scansWithin bound).identifiers :=
  identifiers.expansion?_eq_scanOn.trans (scanOn_of_complete complete)

theorem expansion?_eq_some_iff :
    identifiers.expansion? = some result ↔
      ∃ bound, (identifiers.scansWithin bound).complete = true ∧ (identifiers.scansWithin bound).identifiers = result := by
  rw [expansion?_eq_scanOn, scanOn_eq_some_iff]

theorem expansion?_eq_none_iff : identifiers.expansion? = none ↔ ¬ identifiers.Ends := by
  constructor
  · rintro endless ⟨bound, complete⟩
    cases endless.symm.trans (expansion?_of_complete complete)
  · intro endless
    cases returned : identifiers.expansion? with
    | none => rfl
    | some result =>
      obtain ⟨bound, complete, _⟩ := expansion?_eq_some_iff.mp returned
      exact absurd ⟨bound, complete⟩ endless

theorem expansion?_of_isExpanded (expanded : identifiers.isExpanded = true) :
    identifiers.expansion? = some identifiers := by
  have unchanged := scan_of_isExpanded expanded
  rw [expansion?_eq_scanOn, scanOn_of_ends (.inr unchanged), unchanged]

theorem exists_iterate_of_expansion? (returned : identifiers.expansion? = some result) :
    ∃ count, result = scan^[count] identifiers := by
  obtain ⟨bound, _, rfl⟩ := expansion?_eq_some_iff.mp returned
  exact ⟨_, scansWithin_eq_iterate identifiers bound⟩

theorem keys_of_expansion? (returned : identifiers.expansion? = some result) : result.keys = identifiers.keys := by
  obtain ⟨count, rfl⟩ := exists_iterate_of_expansion? returned
  exact keys_iterate_scan identifiers count

end

end Identifiers

namespace Page

variable {page : Page} {result : Identifiers}

theorem expand_of_isExpanded (returned : page.identifiers.expansion? = some result)
    (expanded : result.isExpanded = true) :
    ∃ answer, page.expand = .ok answer ∧ answer.getD page = { page with identifiers := result } := by
  unfold expand
  by_cases written : page.identifiers.isExpanded = true
  · cases (Identifiers.expansion?_of_isExpanded written).symm.trans returned
    rw [if_pos written]
    exact ⟨none, rfl, rfl⟩
  · simp only [if_neg written, returned, Identifiers.firstParent?_eq_none_iff.mpr expanded]
    exact ⟨_, rfl, rfl⟩

theorem expand_of_not_isExpanded (returned : page.identifiers.expansion? = some result)
    (tokens : ¬ result.isExpanded = true) :
    ∃ parent, result.firstParent? = some parent ∧
      page.expand = .error (.ofFault (.unknownPageElement page.importName parent)) := by
  obtain ⟨parent, first⟩ := Option.ne_none_iff_exists'.mp (mt Identifiers.firstParent?_eq_none_iff.mp tokens)
  refine ⟨parent, first, ?_⟩
  unfold expand
  by_cases written : page.identifiers.isExpanded = true
  · cases (Identifiers.expansion?_of_isExpanded written).symm.trans returned
    exact absurd written tokens
  · simp only [if_neg written, returned, first]

theorem expand_of_endless (endless : ¬ page.identifiers.Ends) :
    page.expand = .error (.ofFault (.endlessScans page.importName)) := by
  have noResult := Identifiers.expansion?_eq_none_iff.mpr endless
  unfold expand
  by_cases written : page.identifiers.isExpanded = true
  · cases (Identifiers.expansion?_of_isExpanded written).symm.trans noResult
  · simp only [if_neg written, noResult]

theorem expand_eq_ok {answer : Option Page} (succeeds : page.expand = .ok answer) :
    ∃ result, page.identifiers.expansion? = some result ∧ result.isExpanded = true ∧
      answer.getD page = { page with identifiers := result } := by
  cases returned : page.identifiers.expansion? with
  | none => cases succeeds.symm.trans (expand_of_endless (Identifiers.expansion?_eq_none_iff.mp returned))
  | some result =>
    by_cases expanded : result.isExpanded = true
    · obtain ⟨found, expands, reached⟩ := expand_of_isExpanded returned expanded
      cases succeeds.symm.trans expands
      exact ⟨result, rfl, expanded, reached⟩
    · obtain ⟨_, _, fails⟩ := expand_of_not_isExpanded returned expanded
      cases succeeds.symm.trans fails

/-- A page is answered for, or blamed, only after its scans have ended. -/
theorem expand_eq_endless_iff :
    page.expand = .error (.ofFault (.endlessScans page.importName)) ↔ ¬ page.identifiers.Ends := by
  refine ⟨?_, expand_of_endless⟩
  rintro outcome ⟨bound, complete⟩
  have returned := Identifiers.expansion?_of_complete complete
  by_cases expanded : (page.identifiers.scansWithin bound).identifiers.isExpanded = true
  · obtain ⟨_, succeeds, _⟩ := expand_of_isExpanded returned expanded
    cases outcome.symm.trans succeeds
  · obtain ⟨_, _, fails⟩ := expand_of_not_isExpanded returned expanded
    cases outcome.symm.trans fails

theorem ends_of_expand_eq_ok {answer : Option Page} (succeeds : page.expand = .ok answer) :
    page.identifiers.Ends := by
  by_contra endless
  cases succeeds.symm.trans (expand_of_endless endless)

end Page

namespace NestedExample

/-- Each scan replaces the innermost token only, and there are more of them than identifiers. -/
def page : Page where
  importName := "nested"
  url := "http://nested.example/"
  identifiers := .ofList [("outer", "\x7b\x7b \x7b\x7b \x7b\x7b inner \x7d\x7d \x7d\x7d \x7d\x7d"), ("inner", "inner")]

def expanded : Identifiers := .ofList [("outer", "inner"), ("inner", "inner")]

end NestedExample

open NestedExample in
theorem Page.nested_expand :
    page.identifiers.scans.complete = false ∧ page.expand = .ok (some { page with identifiers := expanded }) := by
  have three : (page.identifiers.scansWithin 3).complete = true := by decide +kernel
  have reached : (page.identifiers.scansWithin 3).identifiers = expanded := by decide +kernel
  have noParent : expanded.firstParent? = none := by decide +kernel
  refine ⟨by decide +kernel, ?_⟩
  -- the loop without a bound is known by its equations only, so the bounded scans stand in for it
  rw [expand, if_neg (by decide +kernel), Identifiers.expansion?_of_complete three, reached]
  simp only [noParent]

namespace SwingExample

/-- The first scan takes the token of `push` away and puts one of `back` together, and the next
scan does it the other way round. -/
def page : Page where
  importName := "swing"
  url := "http://swing.example/"
  identifiers := .ofList
    [("seat", "\x7b\x7b push \x7d\x7d \x7d\x7d"), ("push", "\x7b\x7b push\x7b\x7b back"), ("back", " \x7d\x7d \x7d\x7d")]

theorem goesOn {identifiers : Identifiers}
    (onSwing : identifiers = page.identifiers ∨ identifiers = page.identifiers.scan) :
    ¬ identifiers.EndsAfterScan := by
  unfold Identifiers.EndsAfterScan
  rcases onSwing with rfl | rfl <;> decide +kernel

end SwingExample

end TestLinker
