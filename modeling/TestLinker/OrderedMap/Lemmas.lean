import TestLinker.OrderedMap.Basic

/-! # Looking into insertion-ordered maps

One equation per operation, through the two views of a map: its list of entries and
its look-up `get?`. `get?_eq_some_iff` joins the views, because no key occurs twice.
-/

namespace TestLinker

namespace OrderedMap

variable {κ α β ε : Type}

theorem ext_entries {m n : OrderedMap κ α} (h : m.entries = n.entries) : m = n := by
  cases m; cases n; cases h; rfl

@[simp] theorem entries_empty : (empty : OrderedMap κ α).entries = [] := rfl

@[simp] theorem keys_empty : (empty : OrderedMap κ α).keys = [] := rfl

/-! ## Keys and values -/

theorem insertEntry_of_not_mem [DecidableEq κ] {key : κ} {value : α}
    {entries : List (κ × α)} (fresh : key ∉ entries.map Prod.fst) :
    insertEntry key value entries = entries ++ [(key, value)] := by
  induction entries with
  | nil => rfl
  | cons entry rest inductionHypothesis =>
    obtain ⟨different, absent⟩ := List.ne_and_not_mem_of_not_mem_cons fresh
    rw [insertEntry, if_neg (Ne.symm different), inductionHypothesis absent]
    rfl

@[simp] theorem keys_map (f : κ → α → β) (m : OrderedMap κ α) : (m.map f).keys = m.keys := by
  simp [keys, map, Function.comp_def]

theorem values_map (f : α → β) (m : OrderedMap κ α) : (m.map fun _ => f).values = m.values.map f := by
  simp [values, map, Function.comp_def]

theorem keys_prefix_insert [DecidableEq κ] (m : OrderedMap κ α) (key : κ) (value : α) :
    m.keys <+: (m.insert key value).keys := by
  have inserted : (m.insert key value).keys = if key ∈ m.keys then m.keys else m.keys ++ [key] :=
    map_fst_insertEntry key value m.entries
  rw [inserted]
  split
  · exact List.prefix_rfl
  · exact List.prefix_append _ _

theorem withValues_values (m : OrderedMap κ α) : m.withValues m.values = m := by
  apply ext_entries
  show (m.entries.map Prod.fst).zip (m.entries.map Prod.snd) = m.entries
  rw [List.zip_map', List.map_id']

/-! ## Look-up -/

theorem lookup_eq_some_iff_mem [DecidableEq κ] {entries : List (κ × α)}
    (hnodup : (entries.map Prod.fst).Nodup) {key : κ} {value : α} :
    entries.lookup key = some value ↔ (key, value) ∈ entries := by
  induction entries with
  | nil => simp
  | cons entry rest ih =>
    obtain ⟨k, v⟩ := entry
    rw [List.map_cons, List.nodup_cons] at hnodup
    by_cases h : key = k
    · subst h
      have hrest : (key, value) ∉ rest := fun hmem => hnodup.1 (List.mem_map.2 ⟨_, hmem, rfl⟩)
      simp [hrest, eq_comm]
    · have hbeq : (key == k) = false := by simpa using h
      simp [List.lookup_cons, hbeq, ih hnodup.2, h]

/-- A value is found under a key exactly if the map holds that entry. -/
theorem get?_eq_some_iff [DecidableEq κ] {m : OrderedMap κ α} {key : κ} {value : α} :
    m.get? key = some value ↔ (key, value) ∈ m.entries :=
  lookup_eq_some_iff_mem m.nodup_keys

theorem mem_keys_iff [DecidableEq κ] {m : OrderedMap κ α} {key : κ} :
    key ∈ m.keys ↔ ∃ value, m.get? key = some value := by
  simp only [keys, List.mem_map, get?_eq_some_iff]
  constructor
  · rintro ⟨⟨k, v⟩, hentry, rfl⟩
    exact ⟨v, hentry⟩
  · rintro ⟨v, hentry⟩
    exact ⟨_, hentry, rfl⟩

theorem get?_eq_none_iff [DecidableEq κ] {m : OrderedMap κ α} {key : κ} :
    m.get? key = none ↔ key ∉ m.keys := by
  rw [mem_keys_iff, not_exists, Option.eq_none_iff_forall_ne_some]

theorem mem_values_iff [DecidableEq κ] {m : OrderedMap κ α} {value : α} :
    value ∈ m.values ↔ ∃ key, m.get? key = some value := by
  simp only [values, List.mem_map, get?_eq_some_iff]
  constructor
  · rintro ⟨⟨k, v⟩, hentry, rfl⟩
    exact ⟨k, hentry⟩
  · rintro ⟨k, hentry⟩
    exact ⟨_, hentry, rfl⟩

@[simp] theorem get?_empty [DecidableEq κ] (key : κ) :
    (empty : OrderedMap κ α).get? key = none := rfl

theorem get?_insert [DecidableEq κ] (m : OrderedMap κ α) (key k : κ) (value : α) :
    (m.insert key value).get? k = if key = k then some value else m.get? k := by
  show (insertEntry key value m.entries).lookup k = if key = k then some value else m.entries.lookup k
  induction m.entries with
  | nil =>
    by_cases h : key = k
    · simp [insertEntry, h]
    · have hbeq : (k == key) = false := by simpa using fun e : k = key => h e.symm
      simp [insertEntry, List.lookup_cons, h, hbeq]
  | cons entry rest ih =>
    obtain ⟨k', v'⟩ := entry
    by_cases hkey : k' = key
    · subst hkey
      by_cases h : k' = k
      · simp [insertEntry, h]
      · have hbeq : (k == k') = false := by simpa using fun e : k = k' => h e.symm
        simp [insertEntry, List.lookup_cons, h, hbeq]
    · simp only [insertEntry, if_neg hkey, List.lookup_cons, ih]
      by_cases h : k = k'
      · subst h
        have hne : ¬ key = k := fun e => hkey e.symm
        simp [hne]
      · have hbeq : (k == k') = false := by simpa using h
        simp [hbeq]

theorem get?_map [DecidableEq κ] (f : κ → α → β) (m : OrderedMap κ α) (key : κ) :
    (m.map f).get? key = (m.get? key).map (f key) := by
  show (m.entries.map fun entry => (entry.1, f entry.1 entry.2)).lookup key =
    (m.entries.lookup key).map (f key)
  induction m.entries with
  | nil => rfl
  | cons entry rest ih =>
    obtain ⟨k, v⟩ := entry
    by_cases h : key = k
    · subst h; simp
    · have hbeq : (key == k) = false := by simpa using h
      simp [List.lookup_cons, hbeq, ih]

/-! ## Mapped maps -/

theorem map_map {γ : Type} (f : κ → α → β) (g : κ → β → γ) (m : OrderedMap κ α) :
    (m.map f).map g = m.map fun key value => g key (f key value) :=
  ext_entries (by simp [map, Function.comp_def])

theorem map_eq_map_iff [DecidableEq κ] {f g : κ → α → β} {m : OrderedMap κ α} :
    m.map f = m.map g ↔ ∀ key value, m.get? key = some value → f key value = g key value := by
  constructor
  · intro h key value hv
    have hfound := congrArg (fun n => n.get? key) h
    simpa [get?_map, hv] using hfound
  · intro h
    refine ext_entries (List.map_congr_left ?_)
    rintro ⟨key, value⟩ hentry
    simp [h key value (get?_eq_some_iff.2 hentry)]

theorem map_eq_self_iff [DecidableEq κ] {f : κ → α → α} {m : OrderedMap κ α} :
    m.map f = m ↔ ∀ key value, m.get? key = some value → f key value = value := by
  have kept : m.map (fun _ value => value) = m := ext_entries (List.map_id' m.entries)
  conv => lhs; rhs; rw [← kept]
  exact map_eq_map_iff

/-! ## Rearranged maps -/

section

variable {m n : OrderedMap κ α}

theorem get?_of_perm [DecidableEq κ] (order : m.entries.Perm n.entries) (key : κ) :
    m.get? key = n.get? key := by
  ext value
  rw [get?_eq_some_iff, get?_eq_some_iff, order.mem_iff]

theorem values_perm (order : m.entries.Perm n.entries) : m.values.Perm n.values := order.map _

theorem map_perm (f : κ → α → β) (order : m.entries.Perm n.entries) :
    (m.map f).entries.Perm (n.map f).entries := order.map _

end

end OrderedMap

end TestLinker
