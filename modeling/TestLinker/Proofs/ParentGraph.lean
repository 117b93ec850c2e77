import Mathlib.Data.List.Perm.Subperm
import Mathlib.Logic.Relation
import TestLinker.Proofs.Expansion

/-! # Parents of parents

An identifier of a plain page refers to the parents whose tokens it has. It cannot be
resolved exactly if a path of such references leads to a name that the page lacks, or into
a circle (`not_resolvable_iff`). A chain of references that starts at a resolvable name
names nothing twice, so it is shorter than the page (`Resolvable.edges_lt`).
-/

namespace TestLinker.PlainIdentifiers

open Relation (TransGen ReflTransGen)

variable {source : PlainIdentifiers} {name child parent : String}

/-- The text of `child` has a token of `parent`. -/
def Refers (source : PlainIdentifiers) (child parent : String) : Prop :=
  ∃ text, source.get? child = some text ∧ parent ∈ text.names

theorem Resolvable.mem_keys (resolvable : source.Resolvable name) : name ∈ source.keys := by
  cases resolvable with
  | intro declared parents => exact OrderedMap.mem_keys_iff.mpr ⟨_, declared⟩

theorem Resolvable.of_refers (resolvable : source.Resolvable child) (refers : source.Refers child parent) :
    source.Resolvable parent := by
  cases resolvable with
  | intro declared parents =>
    obtain ⟨text, found, member⟩ := refers
    cases declared.symm.trans found
    exact parents parent member

theorem Resolvable.of_path (resolvable : source.Resolvable child) (path : ReflTransGen source.Refers child parent) :
    source.Resolvable parent := by
  induction path with
  | refl => exact resolvable
  | tail _ refers inductionHypothesis => exact inductionHypothesis.of_refers refers

theorem Resolvable.not_circular (resolvable : source.Resolvable name) : ¬ TransGen source.Refers name name := by
  induction resolvable with
  | @intro name text declared parents inductionHypothesis =>
    intro circle
    obtain ⟨parent, ⟨found, foundText, member⟩, back⟩ := TransGen.head'_iff.mp circle
    cases declared.symm.trans foundText
    -- the circle can be entered at the parent as well
    exact inductionHypothesis parent member (TransGen.tail' back ⟨text, declared, member⟩)

open Classical in
/-- Without missing names and circles a path of references goes up a finite page, where each
parent has fewer names above it than the child. -/
theorem resolvable_of_sound
    (sound : ∀ ancestor, ReflTransGen source.Refers name ancestor →
      ancestor ∈ source.keys ∧ ¬ TransGen source.Refers ancestor ancestor) :
    source.Resolvable name := by
  generalize size : (source.keys.filter fun key => TransGen source.Refers name key).length = above
  induction above using Nat.strongRecOn generalizing name with
  | ind above inductionHypothesis =>
    obtain ⟨text, declared⟩ := OrderedMap.mem_keys_iff.mp (sound name .refl).1
    refine .intro declared fun parent member => ?_
    have refers : source.Refers name parent := ⟨text, declared, member⟩
    have fewer : (source.keys.filter fun key => TransGen source.Refers parent key).length < above := by
      have nested : (source.keys.filter fun key => TransGen source.Refers parent key) =
          (source.keys.filter fun key => TransGen source.Refers name key).filter
            fun key => TransGen source.Refers parent key := by
        rw [List.filter_filter]
        apply List.filter_congr
        intro key _
        have higher : TransGen source.Refers parent key → TransGen source.Refers name key := .head refers
        by_cases path : TransGen source.Refers parent key <;> simp [path, higher]
      obtain ⟨parentDeclared, noCircle⟩ := sound parent (.single refers)
      rw [nested, ← size, List.length_filter_lt_length_iff_exists]
      exact ⟨parent, List.mem_filter.mpr ⟨parentDeclared, by simpa using .single refers⟩, by simpa using noCircle⟩
    exact inductionHypothesis _ fewer (fun ancestor path => sound ancestor (.head refers path)) rfl

/-- A name that is not resolvable is missing from the page, or on a circle, or it depends on
such a name. -/
theorem not_resolvable_iff :
    ¬ source.Resolvable name ↔ ∃ ancestor, ReflTransGen source.Refers name ancestor ∧
      (ancestor ∉ source.keys ∨ TransGen source.Refers ancestor ancestor) := by
  constructor
  · intro unresolvable
    by_contra sound
    push Not at sound
    exact unresolvable (resolvable_of_sound sound)
  · rintro ⟨ancestor, path, missing | circle⟩ resolvable
    · exact missing (resolvable.of_path path).mem_keys
    · exact (resolvable.of_path path).not_circular circle

/-! ## Chains of parents -/

/-- From `name` a chain of so many references leads from parent to parent. -/
def HasChain (source : PlainIdentifiers) (name : String) (edges : Nat) : Prop :=
  ∃ ancestors : List String, (name :: ancestors).IsChain source.Refers ∧ ancestors.length = edges

theorem hasChain_zero (source : PlainIdentifiers) (name : String) : source.HasChain name 0 :=
  ⟨[], .singleton name, rfl⟩

theorem hasChain_succ_iff {edges : Nat} :
    source.HasChain child (edges + 1) ↔ ∃ parent, source.Refers child parent ∧ source.HasChain parent edges := by
  constructor
  · rintro ⟨_ | ⟨parent, ancestors⟩, chain, length⟩
    · cases length
    · obtain ⟨refers, further⟩ := List.isChain_cons_cons.mp chain
      exact ⟨parent, refers, ancestors, further, Nat.succ.inj length⟩
  · rintro ⟨parent, refers, ancestors, further, rfl⟩
    exact ⟨parent :: ancestors, List.isChain_cons_cons.mpr ⟨refers, further⟩, rfl⟩

theorem Resolvable.edges_lt (resolvable : source.Resolvable name) {edges : Nat} (chain : source.HasChain name edges) :
    edges < source.size := by
  obtain ⟨ancestors, references, rfl⟩ := chain
  have paths : (name :: ancestors).Pairwise (TransGen source.Refers) :=
    List.isChain_iff_pairwise.mp (references.imp fun _ _ => TransGen.single)
  have resolvables : ∀ member ∈ name :: ancestors, source.Resolvable member := by
    rw [List.forall_mem_cons]
    exact ⟨resolvable, fun member inAncestors =>
      resolvable.of_path ((List.pairwise_cons.mp paths).1 member inAncestors).to_reflTransGen⟩
  have distinct : (name :: ancestors).Nodup := by
    refine paths.imp_of_mem fun {first second} member _ path same => ?_
    exact (resolvables first member).not_circular (same ▸ path)
  have declared : name :: ancestors ⊆ source.keys := fun member inChain => (resolvables member inChain).mem_keys
  have within := (List.subperm_of_subset distinct declared).length_le
  rw [OrderedMap.keys, List.length_map] at within
  exact within

end TestLinker.PlainIdentifiers
