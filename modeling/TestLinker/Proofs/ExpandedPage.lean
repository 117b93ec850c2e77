import Mathlib.Data.List.Basic
import TestLinker.Proofs.Scans

/-! # What an expansion leaves

A text without a token is passed over by every scan, so it is in the expansion as it was
written. If a page can be expanded, then no text of the expansion has a token, whatever the
texts were: a token that a scan puts together is replaced by a later scan. So there is
nothing left to do, and the page is its own expansion from then on.
-/

namespace TestLinker

namespace Identifiers

variable {identifiers : Identifiers}

theorem get?_iterate_scan_of_isExpanded {name text : String} (declared : identifiers.get? name = some text)
    (expanded : Parent.isExpanded text = true) (count : Nat) : (scan^[count] identifiers).get? name = some text := by
  induction count with
  | zero => exact declared
  | succ count inductionHypothesis =>
    rw [Function.iterate_succ_apply', get?_scan, inductionHypothesis, Option.map_some,
      substituteParents_of_isExpanded expanded]

theorem get?_of_expansion? {result : Identifiers} (returned : identifiers.expansion? = some result) {name text : String}
    (declared : identifiers.get? name = some text) (expanded : Parent.isExpanded text = true) :
    result.get? name = some text := by
  obtain ⟨count, rfl⟩ := exists_iterate_of_expansion? returned
  exact get?_iterate_scan_of_isExpanded declared expanded count

theorem isExpanded_iff_firstName? :
    identifiers.isExpanded = true ↔ ∀ text ∈ identifiers.values, Parent.firstName? text = none := by
  simp only [isExpanded_iff, Parent.isExpanded_iff]

end Identifiers

namespace Page

variable {page : Page} {answer : Option Page}

theorem expand_eq_none_iff : page.expand = .ok none ↔ page.identifiers.isExpanded = true := by
  unfold expand
  by_cases written : page.identifiers.isExpanded = true
  · simp [written]
  · rw [if_neg written]
    refine iff_of_false ?_ written
    -- neither a fault nor new identifiers leave the page alone
    split
    · nofun
    · split <;> nofun

/-- A page that can be expanded keeps its names and its texts without tokens, and no token is
left on it, so that it is expanded to itself. It is left alone exactly if no token was written
on it. Its scans have ended, and they end with the same texts under every bound that is enough. -/
theorem expand_finishes (succeeds : page.expand = .ok answer) :
    (page.identifiers.Ends ∧ ∀ bound, (page.identifiers.scansWithin bound).complete = true →
        (answer.getD page).identifiers = (page.identifiers.scansWithin bound).identifiers) ∧
      (answer.getD page).importName = page.importName ∧ (answer.getD page).url = page.url ∧
      (answer.getD page).identifiers.keys = page.identifiers.keys ∧
      (∀ text ∈ (answer.getD page).identifiers.values, Parent.firstName? text = none) ∧
      (∀ name text, page.identifiers.get? name = some text → Parent.firstName? text = none →
        (answer.getD page).identifiers.get? name = some text) ∧
      (answer = none ↔ ∀ text ∈ page.identifiers.values, Parent.firstName? text = none) ∧
      (answer.getD page).expand = .ok none := by
  obtain ⟨expansion, returned, expanded, result⟩ := expand_eq_ok succeeds
  have unchanged : answer = none ↔ page.identifiers.isExpanded = true := by
    rw [← expand_eq_none_iff, succeeds, Except.ok.injEq]
  rw [unchanged, result, expand_eq_none_iff]
  refine ⟨⟨ends_of_expand_eq_ok succeeds, fun bound complete => ?_⟩, rfl, rfl, Identifiers.keys_of_expansion? returned,
    Identifiers.isExpanded_iff_firstName?.mp expanded, ?_, Identifiers.isExpanded_iff_firstName?, expanded⟩
  · exact Option.some.inj (returned.symm.trans (Identifiers.expansion?_of_complete complete))
  · intro name text declared plain
    exact Identifiers.get?_of_expansion? returned declared (Parent.isExpanded_iff.mpr plain)

end Page

namespace ListExample

/-- The text of `open` becomes a token of `item` only where it stands before closing braces. -/
def page : Page where
  importName := "list"
  url := "http://list.example/"
  identifiers := .ofList
    [("closed", "\x7b\x7b open \x7d\x7d \x7d\x7d"), ("open", "\x7b\x7b item"), ("item", "#item")]

def expanded : Page :=
  { page with identifiers := .ofList [("closed", "#item"), ("open", "\x7b\x7b item"), ("item", "#item")] }

end ListExample

open ListExample in
/-- The first scan puts a token together that nobody has written, and the second one replaces it. -/
theorem Page.list_expand_finishes :
    page.expand = .ok (some expanded) ∧ page.identifiers.scans.complete = true ∧
      expanded.identifiers.keys = page.identifiers.keys ∧
      (∀ text ∈ expanded.identifiers.values, Parent.firstName? text = none) ∧
      expanded.identifiers.get? "open" = some "\x7b\x7b item" ∧ expanded.expand = .ok none := by
  have expands : page.expand = .ok (some expanded) := by decide +kernel
  obtain ⟨_, _, _, keys, noToken, kept, _, again⟩ := Page.expand_finishes expands
  exact ⟨expands, by decide +kernel, keys, noToken, kept "open" _ (by rfl) (by decide +kernel), again⟩

end TestLinker
