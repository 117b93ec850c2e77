import Mathlib.Data.List.Induction
import TestLinker.LinkError.Basic

/-! # The innermost entry of each scope

An error collects entries on its way out, and of each scope it keeps the first one, which is
the innermost. `Location.innermost` says this of a sequence of entries at once: one more entry
counts only if its scope is new (`innermost_append_singleton`), as attaching has it, so a
location holds the innermost entries of all that has been attached to it (`entries_attachAll_eq_innermost`).
-/

namespace TestLinker

namespace Location

/-- The entries of which no earlier one has the same scope. -/
def innermost : List (Scope × String) → List (Scope × String)
  | [] => []
  | entry :: rest => entry :: (innermost rest).filter fun later => later.1 ≠ entry.1

/-! ## The innermost entries of a sequence -/

theorem innermost_eq_nil_iff {attached : List (Scope × String)} : innermost attached = [] ↔ attached = [] := by
  cases attached <;> simp [innermost]

theorem lookup_filter_of_ne {dropped wanted : Scope} (differ : wanted ≠ dropped) (entries : List (Scope × String)) :
    (entries.filter fun entry => entry.1 ≠ dropped).lookup wanted = entries.lookup wanted := by
  induction entries with
  | nil => rfl
  | cons entry rest inductionHypothesis =>
    obtain ⟨scope, text⟩ := entry
    by_cases isDropped : scope = dropped
    · have other : (wanted == scope) = false := by simpa [isDropped] using differ
      rw [List.filter_cons_of_neg (by simpa using isDropped), inductionHypothesis, List.lookup_cons, other]
    · rw [List.filter_cons_of_pos (by simpa using isDropped), List.lookup_cons, List.lookup_cons, inductionHypothesis]

/-- Looking a scope up finds its first entry, and this one is kept. -/
theorem lookup_innermost (attached : List (Scope × String)) (wanted : Scope) :
    (innermost attached).lookup wanted = attached.lookup wanted := by
  induction attached with
  | nil => rfl
  | cons entry rest inductionHypothesis =>
    obtain ⟨scope, text⟩ := entry
    rw [innermost, List.lookup_cons, List.lookup_cons]
    by_cases same : wanted = scope
    · simp [same]
    · rw [lookup_filter_of_ne same, inductionHypothesis]

theorem mem_scopes_innermost_iff {attached : List (Scope × String)} {scope : Scope} :
    scope ∈ (innermost attached).map Prod.fst ↔ scope ∈ attached.map Prod.fst := by
  have mem_iff (entries : List (Scope × String)) : scope ∈ entries.map Prod.fst ↔ entries.lookup scope ≠ none := by
    simp [List.lookup_eq_none_iff]
  rw [mem_iff, mem_iff, lookup_innermost]

/-- One more entry counts if its scope is new. -/
theorem innermost_append_singleton (attached : List (Scope × String)) (entry : Scope × String) :
    innermost (attached ++ [entry]) =
      if entry.1 ∈ attached.map Prod.fst then innermost attached else innermost attached ++ [entry] := by
  induction attached with
  | nil => rfl
  | cons first rest inductionHypothesis =>
    rw [List.cons_append, innermost, inductionHypothesis]
    by_cases known : entry.1 ∈ rest.map Prod.fst
    · have knownToAll : entry.1 ∈ (first :: rest).map Prod.fst := List.mem_cons_of_mem _ known
      rw [if_pos known, if_pos knownToAll, innermost]
    · rw [if_neg known, List.filter_append]
      by_cases same : entry.1 = first.1 <;> simp [innermost, same, known]

theorem innermost_eq_self {entries : List (Scope × String)} (distinct : (entries.map Prod.fst).Nodup) :
    innermost entries = entries := by
  induction entries with
  | nil => rfl
  | cons entry rest inductionHypothesis =>
    obtain ⟨fresh, restDistinct⟩ := List.nodup_cons.mp distinct
    have others : ∀ later ∈ rest, later.1 ≠ entry.1 :=
      fun later member same => fresh (same ▸ List.mem_map_of_mem member)
    rw [innermost, inductionHypothesis restDistinct, List.filter_eq_self.mpr (by simpa using others)]

/-! ## Attaching one entry after another -/

/-- A location holds the innermost of its own entries and of those attached to it. -/
theorem entries_attachAll_eq_innermost (location : Location) (attached : List (Scope × String)) :
    (location.attachAll attached).entries = innermost (location.entries ++ attached) := by
  -- the entry attached last is taken off, since a new entry goes to the end
  induction attached using List.reverseRecOn with
  | nil => rw [List.append_nil, innermost_eq_self location.nodup_keys]; rfl
  | append_singleton earlier entry inductionHypothesis =>
    have lastAttached : location.attachAll (earlier ++ [entry]) =
        (location.attachAll earlier).attach entry.1 entry.2 := List.foldl_append
    rw [lastAttached, entries_attach, ← List.append_assoc, innermost_append_singleton]
    simp only [OrderedMap.keys, inductionHypothesis, mem_scopes_innermost_iff]

/-- Scopes that are all different are attached one behind the other. -/
theorem entries_attachAll {location : Location} {place : List (Scope × String)}
    (distinct : ((location.entries ++ place).map Prod.fst).Nodup) :
    (location.attachAll place).entries = location.entries ++ place := by
  rw [entries_attachAll_eq_innermost, innermost_eq_self distinct]

theorem get?_attachAll (location : Location) (attached : List (Scope × String)) (scope : Scope) :
    (location.attachAll attached).get? scope = (location.entries ++ attached).lookup scope := by
  rw [OrderedMap.get?, entries_attachAll_eq_innermost, lookup_innermost]

theorem mem_keys_attachAll_iff {location : Location} {attached : List (Scope × String)} {scope : Scope} :
    scope ∈ (location.attachAll attached).keys ↔ scope ∈ (location.entries ++ attached).map Prod.fst := by
  rw [OrderedMap.keys, entries_attachAll_eq_innermost, mem_scopes_innermost_iff]

theorem attachAll_eq_self {location : Location} {again : List (Scope × String)}
    (known : ∀ entry ∈ again, entry.1 ∈ location.keys) : location.attachAll again = location := by
  induction again with
  | nil => rfl
  | cons entry rest inductionHypothesis =>
    obtain ⟨entryKnown, restKnown⟩ := List.forall_mem_cons.mp known
    have unchanged : location.attach entry.1 entry.2 = location :=
      OrderedMap.ext_entries ((location.entries_attach entry.1 entry.2).trans (if_pos entryKnown))
    rw [attachAll, List.foldl_cons, unchanged]
    exact inductionHypothesis restKnown

/-- Collecting the entries of a location again gives the location. -/
theorem ofList_entries (location : Location) : ofList location.entries = location :=
  OrderedMap.ext_entries (entries_attachAll location.nodup_keys)

end Location

namespace LinkError

/-- Adds the entries to the error, the innermost first, as its way out goes through their scopes. -/
def attachEach (error : LinkError) (attached : List (Scope × String)) : LinkError :=
  attached.foldl (fun located entry => located.attach entry.1 entry.2) error

/-- Attaching changes the location and nothing else. -/
theorem attachEach_eq (error : LinkError) (attached : List (Scope × String)) :
    error.attachEach attached = ⟨error.fault, error.location.attachAll attached⟩ := by
  induction attached generalizing error with
  | nil => rfl
  | cons entry rest inductionHypothesis => exact inductionHypothesis (error.attach entry.1 entry.2)

/-- Whatever is attached to an error in whatever order, of each scope the entry that was attached
first is kept, in the order of attachment, and the fault and its message stay. Nothing that is
attached for a known scope counts any more. The report puts the entries that were attached last
in front. -/
theorem attachEach_keeps_innermost (error : LinkError) (attached : List (Scope × String)) :
    (error.attachEach attached).location.entries = Location.innermost (error.location.entries ++ attached) ∧
      (error.attachEach attached).location = error.location.attachAll attached ∧
      (error.attachEach attached).location = Location.ofList (error.location.entries ++ attached) ∧
      (∀ scope, (error.attachEach attached).location.get? scope =
        (error.location.entries ++ attached).lookup scope) ∧
      (error.attachEach attached).fault = error.fault ∧
      (error.attachEach attached).message = error.message ∧
      Location.ofList (error.attachEach attached).location.entries = (error.attachEach attached).location ∧
      (∀ again : List (Scope × String),
        (∀ entry ∈ again, entry.1 ∈ (error.location.entries ++ attached).map Prod.fst) →
          (error.attachEach attached).attachEach again = error.attachEach attached) ∧
      (error.attachEach attached).report =
        if error.location.entries ++ attached = [] then error.message
        else ", ".intercalate ((Location.innermost (error.location.entries ++ attached)).reverse.map
          fun entry => entry.1.label ++ ": " ++ entry.2) ++ ": " ++ error.message := by
  rw [attachEach_eq]
  have entries := Location.entries_attachAll_eq_innermost error.location attached
  refine ⟨entries, rfl, OrderedMap.ext_entries ?_, Location.get?_attachAll _ _, rfl, rfl,
    Location.ofList_entries _, fun again known => ?_, ?_⟩
  · exact entries.trans (Location.entries_attachAll_eq_innermost .empty _).symm
  · have unchanged := Location.attachAll_eq_self fun entry member =>
      Location.mem_keys_attachAll_iff.mpr (known entry member)
    exact (attachEach_eq _ again).trans (congrArg (LinkError.mk error.fault) unchanged)
  · rw [report, Location.report, OrderedMap.isEmpty, entries]
    simp only [List.isEmpty_iff, Location.innermost_eq_nil_iff]
    rfl

end LinkError

namespace NestedStepExample

def attached : List (Scope × String) :=
  [(.step, "sign in"), (.content, "Click on $elements.button"), (.step, "check out"), (.test, "shop.yml")]

def located : LinkError := (LinkError.ofFault (.unknownElement "button")).attachEach attached

end NestedStepExample

open NestedStepExample in
/-- The outer step comes too late, whether it is attached once or again. -/
theorem LinkError.sign_in_keeps_innermost :
    located.location.entries =
        [(.step, "sign in"), (.content, "Click on $elements.button"), (.test, "shop.yml")] ∧
      located.location.get? .step = some "sign in" ∧
      located.attachEach [(.content, "Wait"), (.step, "check out")] = located ∧
      located.report =
        "test: shop.yml, content: Click on $elements.button, step: sign in: Unknown element \"button\"" := by
  obtain ⟨entries, _, _, found, _, _, _, again, report⟩ :=
    LinkError.attachEach_keeps_innermost (.ofFault (.unknownElement "button")) attached
  exact ⟨entries.trans (by decide +kernel), (found .step).trans (by decide +kernel), again _ (by decide +kernel),
    report.trans (by decide +kernel)⟩

end TestLinker
