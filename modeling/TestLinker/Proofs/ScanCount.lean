import Mathlib.Order.Bounds.Defs
import TestLinker.Proofs.ParentGraph

/-! # How many scans a plain page takes

A scan puts in the parents that have no tokens, and so it takes the last edge off every
chain of parents (`chainLength_scan_iff`). If all names can be resolved, the scans end when
no edge is left, and their number is the length of the longest chain. In any case they end
within as many scans as there are identifiers.
-/

namespace TestLinker

namespace PlainIdentifiers

variable {source : PlainIdentifiers}

/-- The lengths, in edges, of the chains of parents on a page. -/
def chainLengths (source : PlainIdentifiers) : Set Nat :=
  {edges | ∃ name ∈ source.keys, source.HasChain name edges}

theorem expanded_iff_not_refers : source.Expanded ↔ ∀ child parent, ¬ source.Refers child parent := by
  constructor
  · rintro expanded child parent ⟨text, declared, member⟩
    rw [expanded child text declared] at member
    cases member
  · intro noReference name text declared
    exact List.eq_nil_iff_forall_not_mem.mpr fun parent member => noReference name parent ⟨text, declared, member⟩

theorem expanded_iff_one_not_mem : source.Expanded ↔ 1 ∉ source.chainLengths := by
  rw [expanded_iff_not_refers]
  constructor
  · rintro noReference ⟨name, _, chain⟩
    obtain ⟨parent, refers, _⟩ := hasChain_succ_iff.mp chain
    exact noReference name parent refers
  · rintro noChain child parent ⟨text, declared, member⟩
    refine noChain ⟨child, OrderedMap.mem_keys_iff.mpr ⟨text, declared⟩, ?_⟩
    exact hasChain_succ_iff.mpr ⟨parent, ⟨text, declared, member⟩, hasChain_zero source parent⟩

theorem one_mem_of_not_expanded (tokens : ¬ source.Expanded) : 1 ∈ source.chainLengths := by
  by_contra noChain
  exact tokens (expanded_iff_one_not_mem.mpr noChain)

theorem one_mem_of_succ_mem {edges : Nat} (chain : edges + 1 ∈ source.chainLengths) : 1 ∈ source.chainLengths := by
  obtain ⟨name, declared, references⟩ := chain
  obtain ⟨parent, refers, _⟩ := hasChain_succ_iff.mp references
  exact ⟨name, declared, hasChain_succ_iff.mpr ⟨parent, refers, hasChain_zero source parent⟩⟩

/-! ## One scan shortens the chains -/

/-- A scan leaves the references to parents that have tokens themselves. -/
theorem refers_scan_iff {child parent : String} :
    source.scan.Refers child parent ↔ source.Refers child parent ∧ source.ready parent = none := by
  simp only [Refers, get?_scan_eq_some_iff]
  constructor
  · rintro ⟨_, ⟨written, declared, rfl⟩, member⟩
    obtain ⟨inWritten, unready⟩ := mem_names_substitute_ready_iff.mp member
    exact ⟨⟨written, declared, inWritten⟩, unready⟩
  · rintro ⟨⟨written, declared, member⟩, unready⟩
    exact ⟨_, ⟨written, declared, rfl⟩, mem_names_substitute_ready_iff.mpr ⟨member, unready⟩⟩

theorem ready_eq_none_of_refers {child parent : String} (refers : source.Refers child parent) :
    source.ready child = none := by
  obtain ⟨text, declared, member⟩ := refers
  refine ready_eq_none_iff.mpr fun value found closed => ?_
  cases declared.symm.trans found
  rw [closed] at member
  cases member

theorem exists_refers_of_not_ready {name : String} (resolvable : source.Resolvable name)
    (unready : source.ready name = none) : ∃ parent, source.Refers name parent := by
  obtain ⟨text, declared⟩ := OrderedMap.mem_keys_iff.mp resolvable.mem_keys
  have tokens : text.names ≠ [] := ready_eq_none_iff.mp unready text declared
  obtain ⟨parent, member⟩ := List.exists_mem_of_ne_nil _ tokens
  exact ⟨parent, text, declared, member⟩

theorem hasChain_scan_of_hasChain {name : String} {edges : Nat} (chain : source.HasChain name (edges + 2)) :
    source.scan.HasChain name (edges + 1) := by
  induction edges generalizing name with
  | zero =>
    obtain ⟨parent, refers, further⟩ := hasChain_succ_iff.mp chain
    obtain ⟨_, refersOn, _⟩ := hasChain_succ_iff.mp further
    have kept := refers_scan_iff.mpr ⟨refers, ready_eq_none_of_refers refersOn⟩
    exact hasChain_succ_iff.mpr ⟨parent, kept, hasChain_zero _ parent⟩
  | succ edges inductionHypothesis =>
    obtain ⟨parent, refers, further⟩ := hasChain_succ_iff.mp chain
    obtain ⟨_, refersOn, _⟩ := hasChain_succ_iff.mp further
    have kept := refers_scan_iff.mpr ⟨refers, ready_eq_none_of_refers refersOn⟩
    exact hasChain_succ_iff.mpr ⟨parent, kept, inductionHypothesis further⟩

theorem hasChain_of_hasChain_scan {name : String} (resolvable : source.Resolvable name) {edges : Nat}
    (chain : source.scan.HasChain name (edges + 1)) : source.HasChain name (edges + 2) := by
  induction edges generalizing name with
  | zero =>
    obtain ⟨parent, refersInScan, _⟩ := hasChain_succ_iff.mp chain
    obtain ⟨refers, unready⟩ := refers_scan_iff.mp refersInScan
    -- the parent has been left, so it has a parent itself
    obtain ⟨grandparent, refersOn⟩ := exists_refers_of_not_ready (resolvable.of_refers refers) unready
    have further := hasChain_succ_iff.mpr ⟨grandparent, refersOn, hasChain_zero source grandparent⟩
    exact hasChain_succ_iff.mpr ⟨parent, refers, further⟩
  | succ edges inductionHypothesis =>
    obtain ⟨parent, refersInScan, further⟩ := hasChain_succ_iff.mp chain
    obtain ⟨refers, _⟩ := refers_scan_iff.mp refersInScan
    exact hasChain_succ_iff.mpr ⟨parent, refers, inductionHypothesis (resolvable.of_refers refers) further⟩

theorem chainLength_scan_iff (resolvable : ∀ name ∈ source.keys, source.Resolvable name) {edges : Nat} :
    edges + 1 ∈ source.scan.chainLengths ↔ edges + 2 ∈ source.chainLengths := by
  have sameKeys : source.scan.keys = source.keys := OrderedMap.keys_map _ source
  constructor
  · rintro ⟨name, declared, chain⟩
    rw [sameKeys] at declared
    exact ⟨name, declared, hasChain_of_hasChain_scan (resolvable name declared) chain⟩
  · rintro ⟨name, declared, chain⟩
    exact ⟨name, sameKeys ▸ declared, hasChain_scan_of_hasChain chain⟩

theorem chainLength_le_succ (resolvable : ∀ name ∈ source.keys, source.Resolvable name) {longest : Nat}
    (shorter : ∀ edges ∈ source.scan.chainLengths, edges ≤ longest) :
    ∀ edges ∈ source.chainLengths, edges ≤ longest + 1 := by
  intro edges chain
  match edges with
  | 0 => exact Nat.zero_le _
  | 1 => exact Nat.le_add_left 1 longest
  | edges + 2 => exact Nat.succ_le_succ (shorter (edges + 1) ((chainLength_scan_iff resolvable).mpr chain))

/-! ## All scans -/

theorem expanded_scan_of_ends (resolvable : ∀ name ∈ source.keys, source.Resolvable name)
    (tokens : ¬ source.Expanded) (ends : source.texts.EndsAfterScan) : source.scan.Expanded := by
  rw [Identifiers.EndsAfterScan, texts_scan, isExpanded_texts_iff, texts_scan_eq_iff] at ends
  rcases ends with expanded | stuck
  · exact expanded
  · exact absurd (stuck.expanded_iff.mpr resolvable) tokens

/-- The scans of a page without missing parents and circles follow its longest chain. -/
theorem isGreatest_count (resolvable : ∀ name ∈ source.keys, source.Resolvable name) (tokens : ¬ source.Expanded)
    {bound : Nat} (complete : (source.texts.scansWithin bound).complete = true) :
    IsGreatest source.chainLengths (source.texts.scansWithin bound).count := by
  induction bound generalizing source with
  | zero => cases complete
  | succ bound inductionHypothesis =>
    by_cases ends : source.texts.EndsAfterScan
    · rw [Identifiers.scansWithin_of_ends ends]
      have noEdge := expanded_iff_one_not_mem.mp (expanded_scan_of_ends resolvable tokens ends)
      refine ⟨one_mem_of_not_expanded tokens, chainLength_le_succ resolvable fun edges chain => ?_⟩
      cases edges with
      | zero => exact Nat.le_refl 0
      | succ edges => exact absurd (one_mem_of_succ_mem chain) noEdge
    · rw [Identifiers.scansWithin_of_goesOn ends, texts_scan] at complete ⊢
      have tokensLeft : ¬ source.scan.Expanded := by
        intro expanded
        exact ends (.inl (by rwa [texts_scan, isExpanded_texts_iff]))
      have resolvableInScan : ∀ name ∈ source.scan.keys, source.scan.Resolvable name := by
        intro name declared
        rw [scan, OrderedMap.keys_map] at declared
        exact resolvable_scan_iff.mpr (resolvable name declared)
      obtain ⟨longest, longer⟩ := inductionHypothesis resolvableInScan tokensLeft complete
      refine ⟨?_, chainLength_le_succ resolvable longer⟩
      -- some edge is left in the scan, so its longest chain has lost one of the page's edges
      have positive := longer (one_mem_of_not_expanded tokensLeft)
      dsimp only
      cases count : (source.scan.texts.scansWithin bound).count with
      | zero => omega
      | succ edges => exact (chainLength_scan_iff resolvable).mp (count ▸ longest)

end PlainIdentifiers

/-- The scans of a plain page with a token end by themselves within as many scans as it has
identifiers, so a larger bound changes nothing. If all names can be resolved, their number is
the length of the longest chain of parents, which is smaller than the number of identifiers. -/
theorem Identifiers.scans_follow_chains {identifiers : Identifiers} {source : PlainIdentifiers}
    (plain : identifiers = source.texts) (tokens : identifiers.isExpanded = false) :
    identifiers.scans.complete = true ∧ identifiers.scans.count ≤ identifiers.size ∧
      (∀ bound, identifiers.size ≤ bound → identifiers.scansWithin bound = identifiers.scans) ∧
      ((∀ name ∈ source.keys, source.Resolvable name) →
        IsGreatest source.chainLengths identifiers.scans.count ∧
          identifiers.scans.count < identifiers.size) := by
  subst plain
  have unexpanded : ¬ source.Expanded := by
    rw [← PlainIdentifiers.isExpanded_texts_iff, tokens]
    exact Bool.false_ne_true
  have complete := PlainIdentifiers.scans_complete unexpanded
  refine ⟨complete, count_scansWithin_le _ _, fun bound enough => scansWithin_eq_of_complete complete enough, ?_⟩
  intro resolvable
  have greatest := PlainIdentifiers.isGreatest_count resolvable unexpanded complete
  obtain ⟨name, declared, chain⟩ := greatest.1
  refine ⟨greatest, ?_⟩
  have shorter := (resolvable name declared).edges_lt chain
  rwa [PlainIdentifiers.size_texts]

open TableExample in
/-- The row has to wait for the table and the cell for the row. -/
theorem Identifiers.table_scans_follow_chains :
    page.identifiers.scans.complete = true ∧ page.identifiers.scans.count = 2 ∧
      (∀ bound, 3 ≤ bound → page.identifiers.scansWithin bound = page.identifiers.scans) ∧
      IsGreatest source.chainLengths 2 := by
  have plain : page.identifiers = source.texts := by decide +kernel
  have count : page.identifiers.scans.count = 2 := by decide +kernel
  have table : source.Resolvable "table" := .intro (by rfl) (by simp [PlainText.names, Piece.names])
  have row : source.Resolvable "row" := by
    refine .intro (by rfl) fun parent member => ?_
    cases List.mem_singleton.mp member
    exact table
  have cell : source.Resolvable "cell" := by
    refine .intro (by rfl) fun parent member => ?_
    have among : parent = "row" ∨ parent = "table" ∨ parent = "row" := by
      simpa [PlainText.names, Piece.names, TableExample.row, TableExample.table] using member
    rcases among with rfl | rfl | rfl
    exacts [row, table, row]
  have resolvable : ∀ name ∈ source.keys, source.Resolvable name := by
    have keys : source.keys = ["cell", "row", "table"] := by rfl
    simp only [keys, List.forall_mem_cons]
    exact ⟨cell, row, table, List.forall_mem_nil _⟩
  obtain ⟨complete, _, larger, longest⟩ := Identifiers.scans_follow_chains plain (by decide +kernel)
  have greatest := (longest resolvable).1
  rw [count] at greatest
  exact ⟨complete, count, larger, greatest⟩

end TestLinker
