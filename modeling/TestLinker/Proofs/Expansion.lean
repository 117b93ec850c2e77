import TestLinker.Proofs.Outcome
import TestLinker.Proofs.PlainIdentifiers

/-! # Expanding a plain page solves its equations

A declared text with tokens is an equation: the text of the name is the declared text with
the texts of the parents in place of the tokens. A scan of a plain page keeps the
solutions of these equations, and it keeps which names are resolvable. The scans end at
the latest one scan after they have made no further text ready; every resolvable name is
ready then, so that the page has the only solution of its equations left, or else a name
that cannot be resolved.
-/

namespace TestLinker

namespace PlainIdentifiers

variable {source later : PlainIdentifiers}

/-- A declared name whose parents are all resolvable. -/
inductive Resolvable (source : PlainIdentifiers) : String → Prop where
  | intro {name : String} {text : PlainText} (declared : source.get? name = some text)
      (parents : ∀ parent ∈ text.names, Resolvable source parent) : Resolvable source name

/-- Every declared name is assigned its text with the assigned texts of its parents put in. -/
def Solves (source : PlainIdentifiers) (assigned : String → String) : Prop :=
  ∀ name text, source.get? name = some text → assigned name = text.evaluate assigned

/-- The same names are declared and resolvable, and the equations have the same solutions. -/
structure SameExpansion (source later : PlainIdentifiers) : Prop where
  keys : later.keys = source.keys
  resolvable : ∀ name, later.Resolvable name ↔ source.Resolvable name
  solves : ∀ assigned, later.Solves assigned ↔ source.Solves assigned

theorem SameExpansion.refl (source : PlainIdentifiers) : source.SameExpansion source :=
  ⟨rfl, fun _ => Iff.rfl, fun _ => Iff.rfl⟩

theorem SameExpansion.trans {first second third : PlainIdentifiers} (left : first.SameExpansion second)
    (right : second.SameExpansion third) : first.SameExpansion third :=
  ⟨right.keys.trans left.keys, fun name => (right.resolvable name).trans (left.resolvable name),
    fun assigned => (right.solves assigned).trans (left.solves assigned)⟩

/-! ## One scan -/

theorem get?_scan_eq_some_iff {name : String} {text : PlainText} :
    source.scan.get? name = some text ↔
      ∃ written, source.get? name = some written ∧ written.substitute source.ready = text := by
  rw [get?_scan, Option.map_eq_some_iff]

theorem resolvable_of_ready {name : String} {text : PlainText} (found : source.ready name = some text) :
    source.Resolvable name := by
  obtain ⟨declared, closed⟩ := ready_eq_some_iff.mp found
  exact .intro declared (by simp [closed])

theorem resolvable_scan_iff {name : String} : source.scan.Resolvable name ↔ source.Resolvable name := by
  constructor
  · intro resolvable
    induction resolvable with
    | intro declared parents inductionHypothesis =>
      obtain ⟨written, writtenDeclared, rfl⟩ := get?_scan_eq_some_iff.mp declared
      refine .intro writtenDeclared fun parent member => ?_
      -- a parent is put in by the scan, or its token is left
      cases known : source.ready parent with
      | some value => exact resolvable_of_ready known
      | none =>
        exact inductionHypothesis parent (mem_names_substitute_ready_iff.mpr ⟨member, known⟩)
  · intro resolvable
    induction resolvable with
    | intro declared parents inductionHypothesis =>
      refine .intro (get?_scan_eq_some_iff.mpr ⟨_, declared, rfl⟩) fun parent member => ?_
      exact inductionHypothesis parent (mem_names_substitute_ready_iff.mp member).1

theorem ready_scan_of_ready {name : String} {text : PlainText} (found : source.ready name = some text) :
    source.scan.ready name = some text := by
  obtain ⟨declared, closed⟩ := ready_eq_some_iff.mp found
  have kept : text.substitute source.ready = text := PlainText.substitute_eq_self (by simp [closed])
  exact ready_eq_some_iff.mpr ⟨get?_scan_eq_some_iff.mpr ⟨text, declared, kept⟩, closed⟩

theorem Solves.ready {assigned : String → String} (solves : source.Solves assigned) {name : String}
    {text : PlainText} (found : source.ready name = some text) : text.evaluate assigned = assigned name :=
  (solves name text (ready_eq_some_iff.mp found).1).symm

theorem solves_scan_iff {assigned : String → String} : source.scan.Solves assigned ↔ source.Solves assigned := by
  constructor
  · intro solves name text declared
    -- what the scan has put in is still declared after it, and so still an equation
    have scanned := solves name _ (get?_scan_eq_some_iff.mpr ⟨text, declared, rfl⟩)
    rwa [PlainText.evaluate_substitute text fun _ _ found => solves.ready (ready_scan_of_ready found)] at scanned
  · intro solves name text declared
    obtain ⟨written, writtenDeclared, rfl⟩ := get?_scan_eq_some_iff.mp declared
    rw [PlainText.evaluate_substitute written fun _ _ found => solves.ready found]
    exact solves name written writtenDeclared

theorem sameExpansion_scan (source : PlainIdentifiers) : source.SameExpansion source.scan :=
  ⟨OrderedMap.keys_map _ source, fun _ => resolvable_scan_iff, fun _ => solves_scan_iff⟩

/-! ## All scans -/

theorem Expanded.stuck (expanded : source.Expanded) : source.Stuck := by
  intro name text declared parent member
  rw [expanded name text declared] at member
  cases member

/-- Where no scan puts anything in, the texts of resolvable names have no tokens. -/
theorem Stuck.names_eq_nil (stuck : source.Stuck) {name : String} (resolvable : source.Resolvable name) :
    ∃ text, source.get? name = some text ∧ text.names = [] := by
  induction resolvable with
  | @intro name text declared parents inductionHypothesis =>
    -- a parent is ready by induction, but then a scan would put it in
    refine ⟨text, declared, List.eq_nil_iff_forall_not_mem.mpr fun parent member => ?_⟩
    obtain ⟨value, valueDeclared, closed⟩ := inductionHypothesis parent member
    exact ready_eq_none_iff.mp (stuck name text declared parent member) value valueDeclared closed

theorem Stuck.expanded_iff (stuck : source.Stuck) :
    source.Expanded ↔ ∀ name ∈ source.keys, source.Resolvable name := by
  constructor
  · intro expanded name member
    obtain ⟨text, declared⟩ := OrderedMap.mem_keys_iff.mp member
    exact .intro declared (by simp [expanded name text declared])
  · intro resolvable name text declared
    have member : name ∈ source.keys := OrderedMap.mem_keys_iff.mpr ⟨text, declared⟩
    obtain ⟨value, valueDeclared, closed⟩ := stuck.names_eq_nil (resolvable name member)
    cases declared.symm.trans valueDeclared
    exact closed

theorem Expanded.solves_iff (expanded : source.Expanded) (assigned : String → String) :
    source.Solves assigned ↔ ∀ name ∈ source.keys, source.texts.get? name = some (assigned name) := by
  constructor
  · intro solves name member
    obtain ⟨text, declared⟩ := OrderedMap.mem_keys_iff.mp member
    rw [get?_texts, declared, solves name text declared, PlainText.evaluate_eq_text (expanded name text declared)]
    rfl
  · intro agrees name text declared
    have member : name ∈ source.keys := OrderedMap.mem_keys_iff.mpr ⟨text, declared⟩
    have found := agrees name member
    rw [get?_texts, declared] at found
    rw [PlainText.evaluate_eq_text (expanded name text declared)]
    exact (Option.some.inj found).symm

theorem sameExpansion_iterate_scan (source : PlainIdentifiers) (count : Nat) :
    source.SameExpansion (scan^[count] source) :=
  Function.Iterate.rec (fun later => source.SameExpansion later) (.refl source)
    (fun later same => same.trans (sameExpansion_scan later)) count

theorem texts_iterate_scan (source : PlainIdentifiers) (count : Nat) :
    (scan^[count] source).texts = Identifiers.scan^[count] source.texts :=
  Function.Semiconj.iterate_right (fun source => (texts_scan source).symm) count source

/-! ## The number of scans -/

def pending (source : PlainIdentifiers) : List PlainText := source.values.filter fun text => !text.names.isEmpty

theorem pending_eq_nil_iff : source.pending = [] ↔ source.Expanded := by
  simp only [pending, List.filter_eq_nil_iff, OrderedMap.mem_values_iff, Expanded]
  constructor
  · intro closed name text declared
    simpa using closed text ⟨name, declared⟩
  · rintro expanded text ⟨name, declared⟩
    simp [expanded name text declared]

theorem length_pending_scan (source : PlainIdentifiers) :
    source.scan.pending.length =
      (source.pending.filter fun text => !(text.substitute source.ready).names.isEmpty).length := by
  rw [pending, scan, OrderedMap.values_map, List.filter_map, List.length_map, pending, List.filter_filter]
  congr 1
  apply List.filter_congr
  intro text _
  cases hasToken : text.names.isEmpty with
  | false => simp
  | true =>
    rw [List.isEmpty_iff] at hasToken
    simp [names_substitute_ready, hasToken]

/-- A scan that makes no further text ready is followed by one that changes nothing. -/
theorem stuck_scan_or_fewer (source : PlainIdentifiers) :
    source.scan.Stuck ∨ source.scan.pending.length < source.pending.length := by
  by_cases fewer : ∃ text ∈ source.pending, (text.substitute source.ready).names = []
  · right
    obtain ⟨text, member, closed⟩ := fewer
    rw [length_pending_scan]
    exact List.length_filter_lt_length_iff_exists.mpr ⟨text, member, by simp [closed]⟩
  · left
    intro name text declared parent member
    obtain ⟨written, _, rfl⟩ := get?_scan_eq_some_iff.mp declared
    obtain ⟨_, unready⟩ := mem_names_substitute_ready_iff.mp member
    -- a parent that becomes ready in the scan would make fewer texts pending
    refine ready_eq_none_iff.mpr fun value valueDeclared closed => ?_
    obtain ⟨former, formerDeclared, rfl⟩ := get?_scan_eq_some_iff.mp valueDeclared
    have hasToken : former.names ≠ [] := ready_eq_none_iff.mp unready former formerDeclared
    refine fewer ⟨former, List.mem_filter.mpr ⟨OrderedMap.mem_values_iff.mpr ⟨parent, formerDeclared⟩, ?_⟩, closed⟩
    simpa using hasToken

theorem Stuck.endsAfterScan (stuck : source.Stuck) : source.texts.EndsAfterScan := by
  rw [Identifiers.EndsAfterScan, texts_scan]
  exact .inr (texts_scan_eq_iff.mpr stuck)

theorem complete_of_stuck (stuck : source.Stuck) {bound : Nat} (positive : 0 < bound) :
    (source.texts.scansWithin bound).complete = true := by
  cases bound with
  | zero => omega
  | succ bound => rw [Identifiers.scansWithin_of_ends stuck.endsAfterScan]

theorem complete_of_pending_lt {bound : Nat} (enough : source.pending.length < bound) :
    (source.texts.scansWithin bound).complete = true := by
  induction bound generalizing source with
  | zero => omega
  | succ bound inductionHypothesis =>
    by_cases ends : source.texts.EndsAfterScan
    · rw [Identifiers.scansWithin_of_ends ends]
    · rw [Identifiers.scansWithin_of_goesOn ends, texts_scan]
      rcases stuck_scan_or_fewer source with stuck | fewer
      · -- only an expanded page has nothing pending, and its scans have ended
        have tokens : source.pending ≠ [] :=
          fun nothing => ends (pending_eq_nil_iff.mp nothing).stuck.endsAfterScan
        have positive := List.length_pos_iff.mpr tokens
        exact complete_of_stuck stuck (by omega)
      · exact inductionHypothesis (by omega)

theorem scans_complete (tokens : ¬ source.Expanded) : source.texts.scans.complete = true := by
  have size : source.texts.size = source.values.length := by
    simp [texts, OrderedMap.size, OrderedMap.map, OrderedMap.values]
  have somePending : 0 < source.pending.length := by
    rw [List.length_pos_iff]
    exact fun nothing => tokens (pending_eq_nil_iff.mp nothing)
  have atMost : source.pending.length ≤ source.values.length := List.length_filter_le _ _
  rw [Identifiers.scans, size]
  by_cases allPending : source.pending.length = source.values.length
  · -- every text has a token, so no parent is ready
    have stuck : source.Stuck := by
      intro name text _ parent _
      refine ready_eq_none_iff.mpr fun value declared closed => ?_
      have hasToken := List.length_filter_eq_length_iff.mp allPending value
        (OrderedMap.mem_values_iff.mpr ⟨parent, declared⟩)
      simp [closed] at hasToken
    exact complete_of_stuck stuck (by omega)
  · exact complete_of_pending_lt (by omega)

/-- The expansion of a plain page ends with some number of scans, after which no parent is
left to put in. -/
theorem expansion?_texts (source : PlainIdentifiers) :
    ∃ count, (scan^[count] source).Stuck ∧ source.texts.expansion? = some (scan^[count] source).texts := by
  by_cases expanded : source.Expanded
  · exact ⟨0, expanded.stuck, Identifiers.expansion?_of_isExpanded (isExpanded_texts_iff.mpr expanded)⟩
  · have complete := scans_complete expanded
    have reached := source.texts.scansWithin_eq_iterate source.texts.size
    have ends := Identifiers.isExpanded_or_scan_eq_of_complete complete
    rw [← texts_iterate_scan] at reached
    rw [reached, isExpanded_texts_iff, texts_scan, texts_scan_eq_iff] at ends
    exact ⟨_, ends.elim Expanded.stuck id, by rw [Identifiers.expansion?_of_complete complete, reached]⟩

theorem isExpanded_iff_of_expansion? {result : Identifiers} (returned : source.texts.expansion? = some result) :
    result.isExpanded = true ↔ ∀ name ∈ source.keys, source.Resolvable name := by
  obtain ⟨count, stuck, texts⟩ := source.expansion?_texts
  have same := source.sameExpansion_iterate_scan count
  cases texts.symm.trans returned
  rw [isExpanded_texts_iff, stuck.expanded_iff]
  simp only [same.keys, same.resolvable]

end PlainIdentifiers

/-- The identifiers that the expansion of a plain page ends with, whether it succeeds or not. -/
theorem Page.expand_plain {page : Page} {source : PlainIdentifiers} (plain : page.identifiers = source.texts) :
    ∃ final, source.SameExpansion final ∧ final.Stuck ∧
      ((final.Expanded ∧ ∃ answer, page.expand = .ok answer ∧ (answer.getD page).identifiers = final.texts) ∨
        (¬ final.Expanded ∧ ∃ error, page.expand = .error error)) := by
  obtain ⟨count, stuck, texts⟩ := source.expansion?_texts
  rw [← plain] at texts
  refine ⟨_, source.sameExpansion_iterate_scan count, stuck, ?_⟩
  by_cases expanded : (PlainIdentifiers.scan^[count] source).Expanded
  · obtain ⟨answer, succeeds, result⟩ :=
      expand_of_isExpanded texts (PlainIdentifiers.isExpanded_texts_iff.mpr expanded)
    exact .inl ⟨expanded, answer, succeeds, by rw [result]⟩
  · obtain ⟨_, _, fails⟩ := expand_of_not_isExpanded texts (mt PlainIdentifiers.isExpanded_texts_iff.mp expanded)
    exact .inr ⟨expanded, _, fails⟩

/-- A plain page is expanded exactly if all its names are resolvable, and the expanded texts
are the one solution of its equations. The scans end after at most one for each name. -/
theorem Page.expand_solves {page : Page} {source : PlainIdentifiers} (plain : page.identifiers = source.texts) :
    ((∃ answer, page.expand = .ok answer) ↔ ∀ name ∈ source.keys, source.Resolvable name) ∧
      (∀ answer, page.expand = .ok answer →
        (answer.getD page).identifiers.keys = page.identifiers.keys ∧
          ∀ assigned, source.Solves assigned ↔
            ∀ name ∈ source.keys, (answer.getD page).identifiers.get? name = some (assigned name)) ∧
      (page.identifiers.isExpanded = true ∨ page.identifiers.scans.complete = true) := by
  obtain ⟨final, same, stuck, outcome⟩ := expand_plain plain
  have resolvable : final.Expanded ↔ ∀ name ∈ source.keys, source.Resolvable name := by
    simp only [stuck.expanded_iff, same.keys, same.resolvable]
  refine ⟨?_, ?_, ?_⟩
  · rw [← resolvable]
    rcases outcome with ⟨expanded, answer, succeeds, _⟩ | ⟨unexpanded, error, fails⟩
    · exact iff_of_true ⟨answer, succeeds⟩ expanded
    · refine iff_of_false ?_ unexpanded
      rintro ⟨answer, succeeds⟩
      cases fails.symm.trans succeeds
  · intro answer succeeds
    rcases outcome with ⟨expanded, other, otherSucceeds, result⟩ | ⟨_, error, fails⟩
    · cases succeeds.symm.trans otherSucceeds
      rw [result]
      refine ⟨?_, fun assigned => ?_⟩
      · rw [plain, PlainIdentifiers.texts, PlainIdentifiers.texts, OrderedMap.keys_map, OrderedMap.keys_map, same.keys]
      · rw [← same.solves, ← same.keys]
        exact expanded.solves_iff assigned
    · cases fails.symm.trans succeeds
  · rw [plain]
    by_cases expanded : source.Expanded
    · exact .inl (PlainIdentifiers.isExpanded_texts_iff.mpr expanded)
    · exact .inr (PlainIdentifiers.scans_complete expanded)

namespace TableExample

def table : PlainName := ⟨"table", by decide, by simp⟩

def row : PlainName := ⟨"row", by decide, by simp⟩

/-- The cells come before their parents, and name one of them twice. -/
def source : PlainIdentifiers := .ofList
  [("cell", [.token row, .char '>' (by decide), .token table, .char ' ' (by decide), .token row]),
    ("row", [.token table, .char 'r' (by decide)]), ("table", [.char '#' (by decide)])]

def page : Page where
  importName := "table"
  url := "http://table.example/"
  identifiers := .ofList [("cell", "\x7b\x7b row \x7d\x7d>\x7b\x7b table \x7d\x7d \x7b\x7b row \x7d\x7d"),
    ("row", "\x7b\x7b table \x7d\x7dr"), ("table", "#")]

end TableExample

open TableExample in
theorem Page.table_expand_solves :
    page.identifiers = source.texts ∧ (∀ name ∈ source.keys, source.Resolvable name) ∧
      ∀ assigned, source.Solves assigned ↔
        assigned "cell" = "#r># #r" ∧ assigned "row" = "#r" ∧ assigned "table" = "#" := by
  have plain : page.identifiers = source.texts := by decide +kernel
  have expands : page.expand =
      .ok (some { page with identifiers := .ofList [("cell", "#r># #r"), ("row", "#r"), ("table", "#")] }) := by
    decide +kernel
  obtain ⟨resolvable, solution, _⟩ := Page.expand_solves plain
  refine ⟨plain, resolvable.mp ⟨_, expands⟩, fun assigned => ?_⟩
  have keys : source.keys = ["cell", "row", "table"] := by rfl
  rw [(solution _ expands).2, keys]
  constructor
  · intro agrees
    have found (name : String) (member : name ∈ ["cell", "row", "table"]) := (agrees name member).symm
    exact ⟨Option.some.inj (found "cell" (by simp)), Option.some.inj (found "row" (by simp)),
      Option.some.inj (found "table" (by simp))⟩
  · rintro ⟨cell, row, table⟩ name member
    simp only [List.mem_cons, List.not_mem_nil, or_false] at member
    rcases member with rfl | rfl | rfl
    · rw [cell]; rfl
    · rw [row]; rfl
    · rw [table]; rfl

end TestLinker
