/-! # Insertion-ordered maps

Tests, pages and data sets are written as lists of named items, and the order in
which the names are first written is kept. `OrderedMap` is such a list together
with the fact that no name occurs twice.

* `insert` replaces the value of a known key where it stands and appends a new key.
* `insertIfNew` keeps the value of a known key.
* `ofList` reads pairs from left to right: the last value of a key wins, at the
  position where the key was first seen.
* `withValues` and `mapM` change values and leave the keys alone.
-/

namespace TestLinker

/-- A map that remembers the order in which its keys were first inserted. -/
structure OrderedMap (κ α : Type) where
  entries : List (κ × α)
  nodup_keys : (entries.map Prod.fst).Nodup
deriving DecidableEq

namespace OrderedMap

variable {κ α β ε : Type}

def empty : OrderedMap κ α := ⟨[], List.nodup_nil⟩

instance : EmptyCollection (OrderedMap κ α) := ⟨empty⟩

instance : Inhabited (OrderedMap κ α) := ⟨empty⟩

def keys (m : OrderedMap κ α) : List κ := m.entries.map Prod.fst

def values (m : OrderedMap κ α) : List α := m.entries.map Prod.snd

def size (m : OrderedMap κ α) : Nat := m.entries.length

def isEmpty (m : OrderedMap κ α) : Bool := m.entries.isEmpty

def get? [DecidableEq κ] (m : OrderedMap κ α) (key : κ) : Option α := m.entries.lookup key

def contains [DecidableEq κ] (m : OrderedMap κ α) (key : κ) : Bool := decide (key ∈ m.keys)

/-! ## Insertion -/

def insertEntry [DecidableEq κ] (key : κ) (value : α) : List (κ × α) → List (κ × α)
  | [] => [(key, value)]
  | (k, v) :: rest =>
    if k = key then (k, value) :: rest else (k, v) :: insertEntry key value rest

/-- A known key leaves the list of keys as it is; a new one goes to its end. -/
theorem map_fst_insertEntry [DecidableEq κ] (key : κ) (value : α) (entries : List (κ × α)) :
    (insertEntry key value entries).map Prod.fst =
      if key ∈ entries.map Prod.fst then entries.map Prod.fst
      else entries.map Prod.fst ++ [key] := by
  induction entries with
  | nil => simp [insertEntry]
  | cons entry rest ih =>
    obtain ⟨k, v⟩ := entry
    by_cases h : k = key
    · simp [insertEntry, h]
    · have h' : ¬ key = k := fun e => h e.symm
      simp only [insertEntry, if_neg h, List.map_cons, ih, List.mem_cons, h', false_or]
      split <;> rfl

def insert [DecidableEq κ] (m : OrderedMap κ α) (key : κ) (value : α) : OrderedMap κ α where
  entries := insertEntry key value m.entries
  nodup_keys := by
    rw [map_fst_insertEntry]
    split
    · exact m.nodup_keys
    · rename_i hnew
      refine List.nodup_append.2 ⟨m.nodup_keys, by simp, ?_⟩
      intro a ha b hb hab
      rw [List.mem_singleton] at hb
      exact hnew (hb ▸ hab ▸ ha)

def insertIfNew [DecidableEq κ] (m : OrderedMap κ α) (key : κ) (value : α) : OrderedMap κ α :=
  if m.contains key then m else m.insert key value

def ofList [DecidableEq κ] (pairs : List (κ × α)) : OrderedMap κ α :=
  pairs.foldl (fun m pair => m.insert pair.1 pair.2) empty

/-! ## Changing the values -/

/-- Pairing keys with values keeps the keys' order, and drops the last keys if the
    values run out. -/
theorem map_fst_zip_sublist (keys : List κ) (values : List α) :
    ((keys.zip values).map Prod.fst).Sublist keys := by
  induction keys generalizing values with
  | nil => simp
  | cons k rest ih =>
    cases values with
    | nil => simp
    | cons v vs => simpa using ih vs

/-- The map with the same keys and the given values, in order. Keys beyond the last
    value are dropped. -/
def withValues (m : OrderedMap κ α) (values : List β) : OrderedMap κ β where
  entries := m.keys.zip values
  nodup_keys := m.nodup_keys.sublist (map_fst_zip_sublist m.keys values)

def map (f : κ → α → β) (m : OrderedMap κ α) : OrderedMap κ β where
  entries := m.entries.map fun entry => (entry.1, f entry.1 entry.2)
  nodup_keys := by simpa [Function.comp_def] using m.nodup_keys

/-- Applies `f` to the entries in order and keeps the keys; the first failure is the
    failure of the whole. -/
def mapM (f : κ → α → Except ε β) (m : OrderedMap κ α) : Except ε (OrderedMap κ β) :=
  m.withValues <$> m.entries.mapM fun entry => f entry.1 entry.2

end OrderedMap

end TestLinker
