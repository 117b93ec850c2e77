import TestLinker.Proofs.Outcome
import TestLinker.Proofs.Scans

/-! # The order of declaration

A scan reads the identifiers of a page by name only. So rearranged identifiers are
rearranged in the same way by every scan, the scans end after the same number of rounds or
never, and the page can be expanded in both orders or in none. The texts may be anything:
what a token is, and what a replacement leaves of it, does not depend on the order.
-/

namespace TestLinker

namespace Identifiers

variable {left right : Identifiers}

theorem isExpanded_of_perm (order : left.entries.Perm right.entries) : left.isExpanded = right.isExpanded :=
  (OrderedMap.values_perm order).all_eq

theorem substituteParents_of_perm (order : left.entries.Perm right.entries) :
    left.substituteParents = right.substituteParents := by
  funext text
  have sameParent : left.substituteParent = right.substituteParent := by
    funext text name
    rw [substituteParent, OrderedMap.get?_of_perm order, substituteParent]
  rw [substituteParents, sameParent, substituteParents]

theorem scan_perm (order : left.entries.Perm right.entries) : left.scan.entries.Perm right.scan.entries := by
  rw [scan, scan, substituteParents_of_perm order]
  exact OrderedMap.map_perm _ order

theorem scan_eq_self_iff_of_perm (order : left.entries.Perm right.entries) :
    left.scan = left ↔ right.scan = right := by
  simp only [scan_eq_self_iff, substituteParents_of_perm order, OrderedMap.get?_of_perm order]

theorem scansWithin_perm (order : left.entries.Perm right.entries) (bound : Nat) :
    (left.scansWithin bound).identifiers.entries.Perm (right.scansWithin bound).identifiers.entries ∧
      (left.scansWithin bound).count = (right.scansWithin bound).count ∧
      (left.scansWithin bound).complete = (right.scansWithin bound).complete := by
  induction bound generalizing left right with
  | zero => exact ⟨order, rfl, rfl⟩
  | succ bound inductionHypothesis =>
    have scanned := scan_perm order
    have sameEnd : left.EndsAfterScan ↔ right.EndsAfterScan := by
      rw [EndsAfterScan, EndsAfterScan, isExpanded_of_perm scanned, scan_eq_self_iff_of_perm order]
    by_cases ends : right.EndsAfterScan
    · rw [scansWithin_of_ends ends, scansWithin_of_ends (sameEnd.mpr ends)]
      exact ⟨scanned, rfl, rfl⟩
    · rw [scansWithin_of_goesOn ends, scansWithin_of_goesOn (mt sameEnd.mp ends)]
      obtain ⟨further, sameCount, sameCompleteness⟩ := inductionHypothesis scanned
      exact ⟨further, congrArg (· + 1) sameCount, sameCompleteness⟩

theorem scans_perm (order : left.entries.Perm right.entries) :
    left.scans.identifiers.entries.Perm right.scans.identifiers.entries ∧
      left.scans.count = right.scans.count ∧ left.scans.complete = right.scans.complete := by
  have sameSize : left.size = right.size := order.length_eq
  rw [scans, scans, sameSize]
  exact scansWithin_perm order right.size

theorem ends_iff_of_perm (order : left.entries.Perm right.entries) : left.Ends ↔ right.Ends := by
  simp only [Ends, (scansWithin_perm order _).2.2]

theorem expansion?_perm (order : left.entries.Perm right.entries) {result : Identifiers}
    (returned : left.expansion? = some result) :
    ∃ otherResult, right.expansion? = some otherResult ∧ result.entries.Perm otherResult.entries := by
  obtain ⟨bound, complete, rfl⟩ := expansion?_eq_some_iff.mp returned
  obtain ⟨further, _, sameCompleteness⟩ := scansWithin_perm order bound
  exact ⟨_, expansion?_of_complete (sameCompleteness.symm.trans complete), further⟩

end Identifiers

namespace Page

/-- A page and the same page with its identifiers declared in another order. -/
structure Rearranged (page other : Page) : Prop where
  importName : other.importName = page.importName
  url : other.url = page.url
  order : other.identifiers.entries.Perm page.identifiers.entries

/-- The expansion of a page and of a rearranged one makes the same number of scans, and both
succeed with the same text for every name, or both fail with a fault of this page, unless the
scans of both go on for ever. -/
theorem expand_rearranged {page other : Page} (rearranged : page.Rearranged other) :
    other.identifiers.scans.complete = page.identifiers.scans.complete ∧
      other.identifiers.scans.count = page.identifiers.scans.count ∧
      ((∃ answer otherAnswer, page.expand = .ok answer ∧ other.expand = .ok otherAnswer ∧
          (answer.getD page).identifiers.keys = page.identifiers.keys ∧
          (otherAnswer.getD other).identifiers.keys = other.identifiers.keys ∧
          ∀ name, (otherAnswer.getD other).identifiers.get? name = (answer.getD page).identifiers.get? name) ∨
        (∃ parent otherParent,
          page.expand = .error (.ofFault (.unknownPageElement page.importName parent)) ∧
            other.expand = .error (.ofFault (.unknownPageElement page.importName otherParent))) ∨
        (∀ bound, (page.identifiers.scansWithin bound).complete = false) ∧
          page.expand = .error (.ofFault (.endlessScans page.importName)) ∧
          other.expand = .error (.ofFault (.endlessScans page.importName))) := by
  obtain ⟨_, sameCount, sameCompleteness⟩ := Identifiers.scans_perm rearranged.order
  refine ⟨sameCompleteness, sameCount, ?_⟩
  cases returned : page.identifiers.expansion? with
  | none =>
    right; right
    have endless := Identifiers.expansion?_eq_none_iff.mp returned
    have otherFails := expand_of_endless (mt (Identifiers.ends_iff_of_perm rearranged.order).mp endless)
    rw [rearranged.importName] at otherFails
    exact ⟨fun bound => Bool.eq_false_iff.mpr fun complete => endless ⟨bound, complete⟩,
      expand_of_endless endless, otherFails⟩
  | some result =>
    obtain ⟨otherResult, otherReturned, order⟩ := Identifiers.expansion?_perm rearranged.order.symm returned
    have sameVerdict := Identifiers.isExpanded_of_perm order
    by_cases expanded : result.isExpanded = true
    · left
      obtain ⟨answer, succeeds, reached⟩ := expand_of_isExpanded returned expanded
      obtain ⟨otherAnswer, otherSucceeds, otherReached⟩ :=
        expand_of_isExpanded otherReturned (sameVerdict.symm.trans expanded)
      refine ⟨answer, otherAnswer, succeeds, otherSucceeds, ?_⟩
      rw [reached, otherReached]
      exact ⟨Identifiers.keys_of_expansion? returned, Identifiers.keys_of_expansion? otherReturned,
        OrderedMap.get?_of_perm order.symm⟩
    · right; left
      obtain ⟨parent, _, fails⟩ := expand_of_not_isExpanded returned expanded
      have otherUnexpanded : ¬ otherResult.isExpanded = true := by rwa [← sameVerdict]
      obtain ⟨otherParent, _, otherFails⟩ := expand_of_not_isExpanded otherReturned otherUnexpanded
      rw [rearranged.importName] at otherFails
      exact ⟨parent, otherParent, fails, otherFails⟩

end Page

namespace FormExample

def input : String × String := ("input", "\x7b\x7b label \x7b\x7b form \x7d\x7d input")

def label : String × String := ("label", "\x7b\x7b form \x7d\x7d label")

def submit : String × String := ("submit", "\x7b\x7b label \x7d\x7d > \x7b\x7b input \x7d\x7d")

def form : String × String := ("form", "#form")

def page : Page := ⟨"form", "http://form.example/", .ofList [submit, input, label, form]⟩

def rearranged : Page := ⟨"form", "http://form.example/", .ofList [form, input, submit, label]⟩

end FormExample

open FormExample in
/-- The parent of the input stands inside a longer token, which ends with it. -/
theorem Page.form_expand_rearranged :
    page.Rearranged rearranged ∧ page.identifiers.scans.complete = true ∧
      rearranged.identifiers.scans.complete = true ∧ rearranged.identifiers.scans.count = 2 ∧
      ∃ answer, rearranged.expand = .ok answer ∧
        (answer.getD rearranged).identifiers.keys = ["form", "input", "submit", "label"] ∧
        (answer.getD rearranged).identifiers.get? "submit" = some "#form label > \x7b\x7b label #form input" := by
  have same : page.Rearranged rearranged := ⟨rfl, rfl, by decide +kernel⟩
  have expands : page.expand = .ok (some { page with identifiers := .ofList [
      ("submit", "#form label > \x7b\x7b label #form input"), ("input", "\x7b\x7b label #form input"),
      ("label", "#form label"), ("form", "#form")] }) := by
    decide +kernel
  have scans : page.identifiers.scans.complete = true ∧ page.identifiers.scans.count = 2 := by decide +kernel
  obtain ⟨sameCompleteness, sameCount, outcome⟩ := Page.expand_rearranged same
  refine ⟨same, scans.1, sameCompleteness.trans scans.1, sameCount.trans scans.2, ?_⟩
  rcases outcome with ⟨answer, otherAnswer, succeeds, otherSucceeds, _, otherKeys, texts⟩ | ⟨_, _, fails, _⟩ |
    ⟨_, fails, _⟩
  · cases expands.symm.trans succeeds
    exact ⟨otherAnswer, otherSucceeds, otherKeys.trans (by decide +kernel), (texts "submit").trans (by decide +kernel)⟩
  · cases expands.symm.trans fails
  · cases expands.symm.trans fails

end TestLinker
