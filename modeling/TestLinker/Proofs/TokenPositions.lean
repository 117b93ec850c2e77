import TestLinker.Proofs.Tokens

/-! # Where the tokens of a text start

Reading a text goes from position to position and looks whether a token starts there
(`nameAtStart?_eq_some_iff`). So the names that it yields are those of all tokens, also of
tokens that start inside another one, in the order of their positions (`located`), and a name
is yielded exactly if its token occurs in the text.
-/

namespace TestLinker.Parent

/-- What may stand between the braces of a token. -/
structure IsParentName (name : String) : Prop where
  nonempty : name ≠ ""
  noClosing : '}' ∉ name.toList
  noDollar : '$' ∉ name.toList

/-- The token of a name starts at a position of a text. -/
structure TokenAt (text : String) (position : Nat) (name : String) : Prop where
  isParentName : IsParentName name
  starts : ("\x7b\x7b " ++ name ++ " \x7d\x7d").toList <+: text.toList.drop position

theorem token_eq (name : String) : token name = "\x7b\x7b " ++ name ++ " \x7d\x7d" :=
  String.toList_inj.mp (by simp [token, tokenChars])

theorem toList_token (name : String) : (token name).toList = tokenChars name.toList := String.toList_ofList

theorem isName_iff {name : String} : IsName name.toList ↔ IsParentName name := by
  constructor
  · rintro ⟨nonempty, chars⟩
    have allowed {c : Char} (forbidden : isNameChar c = false) : c ∉ name.toList :=
      fun member => by simp [chars c member] at forbidden
    exact ⟨by simpa using nonempty, allowed rfl, allowed rfl⟩
  · rintro ⟨nonempty, noClosing, noDollar⟩
    refine ⟨by simpa using nonempty, fun c member => ?_⟩
    have notClosing : c ≠ '}' := fun equal => noClosing (equal ▸ member)
    have notDollar : c ≠ '$' := fun equal => noDollar (equal ▸ member)
    simp [isNameChar, notClosing, notDollar]

/-! ## One position -/

theorem exists_rest_of_nameAfterOpening? {text name : List Char} (found : nameAfterOpening? text = some name) :
    ∃ rest, text = name ++ ' ' :: '}' :: '}' :: rest := by
  unfold nameAfterOpening? at found
  split at found
  · rename_i c reversed rest taken left
    cases found
    have front : text.takeWhile isNameChar = (c :: reversed).reverse ++ [' '] := by
      rw [← List.reverse_reverse (text.takeWhile isNameChar), taken, List.reverse_cons]
    refine ⟨rest, ?_⟩
    calc
      text = text.takeWhile isNameChar ++ text.dropWhile isNameChar := List.takeWhile_append_dropWhile.symm
      _ = (c :: reversed).reverse ++ ' ' :: '}' :: '}' :: rest := by
        rw [front, left, List.append_assoc, List.singleton_append]
  · cases found

/-- The scanner finds a name exactly if a token starts, and then it is the name of that token. -/
theorem nameAtStart?_eq_some_iff {text name : List Char} :
    nameAtStart? text = some name ↔ IsName name ∧ tokenChars name <+: text := by
  constructor
  · intro found
    refine ⟨isName_of_nameAtStart? found, ?_⟩
    unfold nameAtStart? at found
    split at found
    · obtain ⟨rest, rfl⟩ := exists_rest_of_nameAfterOpening? found
      exact ⟨rest, by simp [tokenChars]⟩
    · cases found
  · rintro ⟨isName, rest, rfl⟩
    exact isName.nameAtStart? rest

/-! ## All positions -/

/-- The names of the tokens of a text, each with the position where its token starts. -/
def located : List Char → List (Nat × List Char)
  | [] => []
  | c :: rest =>
    ((nameAtStart? (c :: rest)).map (0, ·)).toList ++ (located rest).map (Prod.map (· + 1) id)

theorem map_snd_located (text : List Char) : (located text).map Prod.snd = namesOf text := by
  induction text with
  | nil => rfl
  | cons c rest inductionHypothesis =>
    have shifted : ((located rest).map (Prod.map (· + 1) id)).map Prod.snd = namesOf rest := by
      rw [List.map_map, ← inductionHypothesis]
      rfl
    rw [located, namesOf, List.map_append, shifted]
    cases nameAtStart? (c :: rest) <;> rfl

theorem mem_located_iff {text name : List Char} {position : Nat} :
    (position, name) ∈ located text ↔ nameAtStart? (text.drop position) = some name := by
  induction text generalizing position with
  | nil => simp [located, nameAtStart?]
  | cons c rest inductionHypothesis =>
    rw [located, List.mem_append]
    cases position with
    | zero => simp
    | succ position => simp [inductionHypothesis]

theorem located_sorted (text : List Char) : (located text).Pairwise fun first second => first.1 < second.1 := by
  induction text with
  | nil => exact .nil
  | cons c rest inductionHypothesis =>
    have shifted : ((located rest).map (Prod.map (· + 1) id)).Pairwise fun first second => first.1 < second.1 :=
      List.pairwise_map.mpr (inductionHypothesis.imp Nat.succ_lt_succ)
    rw [located]
    cases nameAtStart? (c :: rest) with
    | none => exact shifted
    | some name => exact List.pairwise_cons.mpr ⟨List.forall_mem_map.mpr fun entry _ => Nat.succ_pos entry.1, shifted⟩

theorem infix_iff_exists_drop {part text : List Char} : part <:+: text ↔ ∃ position, part <+: text.drop position := by
  constructor
  · rintro ⟨before, after, rfl⟩
    exact ⟨before.length, after, by simp⟩
  · rintro ⟨position, starts⟩
    exact starts.isInfix.trans (List.drop_suffix position text).isInfix

theorem tokenAt_iff {text name : String} {position : Nat} :
    TokenAt text position name ↔ nameAtStart? (text.toList.drop position) = some name.toList := by
  rw [nameAtStart?_eq_some_iff, isName_iff, ← toList_token, token_eq]
  exact ⟨fun ⟨isParentName, starts⟩ => ⟨isParentName, starts⟩, fun ⟨isParentName, starts⟩ => ⟨isParentName, starts⟩⟩

theorem mem_names_iff {text name : String} :
    name ∈ names text ↔ IsParentName name ∧ (token name).toList <:+: text.toList := by
  have starts : name ∈ names text ↔ ∃ position, (position, name.toList) ∈ located text.toList := by
    simp [names, ← map_snd_located, ← String.toList_inj]
  simp only [starts, mem_located_iff, nameAtStart?_eq_some_iff, exists_and_left, isName_iff, toList_token,
    infix_iff_exists_drop]

theorem firstName?_eq_none_iff {text : String} :
    firstName? text = none ↔ ∀ name, IsParentName name → ¬ (token name).toList <:+: text.toList := by
  simp only [firstName?, List.head?_eq_none_iff, List.eq_nil_iff_forall_not_mem, mem_names_iff, not_and]

/-- The token of a name is read as this name, also if further tokens start inside the name. -/
theorem firstName?_token_iff {name : String} : firstName? (token name) = some name ↔ IsParentName name := by
  constructor
  · intro first
    exact (mem_names_iff.mp (List.mem_of_mem_head? first)).1
  · intro isParentName
    have opens := (isName_iff.mpr isParentName).nameAtStart? []
    rw [tokenChars_append] at opens
    have tokenChars_eq : tokenChars name.toList = '{' :: (tokenTail name.toList ++ []) := by
      rw [← tokenChars_append, List.append_nil]
    rw [firstName?, names, toList_token, tokenChars_eq, namesOf, opens, List.map_cons, String.ofList_toList]
    rfl

/-- Reading a text yields the name of every token that starts somewhere in it, in the order of
the positions, and no position has two tokens. So the names are those whose tokens occur in the
text, and there is none exactly if no token occurs. -/
theorem names_locate_tokens (text : String) :
    (∃ found : List (Nat × String),
        (found.Pairwise fun first second => first.1 < second.1) ∧
          (∀ position name, (position, name) ∈ found ↔ TokenAt text position name) ∧
          names text = found.map Prod.snd) ∧
      (∀ position name other, TokenAt text position name → TokenAt text position other → other = name) ∧
      (∀ name, token name = "\x7b\x7b " ++ name ++ " \x7d\x7d") ∧
      (∀ name, name ∈ names text ↔ IsParentName name ∧ (token name).toList <:+: text.toList) ∧
      (firstName? text = none ↔ ∀ name, IsParentName name → ¬ (token name).toList <:+: text.toList) ∧
      ∀ name, firstName? (token name) = some name ↔ IsParentName name := by
  refine ⟨⟨(located text.toList).map (Prod.map id String.ofList), ?_, fun position name => ?_, ?_⟩,
    fun position name other first second => ?_, token_eq, fun _ => mem_names_iff, firstName?_eq_none_iff,
    fun _ => firstName?_token_iff⟩
  · exact List.pairwise_map.mpr (located_sorted text.toList)
  · rw [tokenAt_iff, ← mem_located_iff]
    simp [← String.toList_inj]
  · rw [names, ← map_snd_located, List.map_map, List.map_map]
    rfl
  · have same := (tokenAt_iff.mp second).symm.trans (tokenAt_iff.mp first)
    exact String.toList_inj.mp (Option.some.inj same)

/-- The name of the first token runs up to the closing braces, and the second token starts inside it. -/
theorem nested_names_locate_tokens :
    TokenAt "\x7b\x7b list \x7b\x7b item \x7d\x7d" 0 "list \x7b\x7b item" ∧
      (∀ other, TokenAt "\x7b\x7b list \x7b\x7b item \x7d\x7d" 0 other → other = "list \x7b\x7b item") ∧
      IsParentName "item" ∧ "item" ∈ names "\x7b\x7b list \x7b\x7b item \x7d\x7d" ∧
      firstName? (token "list \x7b\x7b item") = some "list \x7b\x7b item" := by
  obtain ⟨_, unique, _, yielded, _, first⟩ := names_locate_tokens "\x7b\x7b list \x7b\x7b item \x7d\x7d"
  have outer : TokenAt "\x7b\x7b list \x7b\x7b item \x7d\x7d" 0 "list \x7b\x7b item" :=
    tokenAt_iff.mpr (by decide +kernel)
  have item : IsParentName "item" := ⟨by decide, by decide +kernel, by decide +kernel⟩
  have occurs : (token "item").toList <:+: "\x7b\x7b list \x7b\x7b item \x7d\x7d".toList :=
    ⟨"\x7b\x7b list ".toList, [], by decide +kernel⟩
  exact ⟨outer, fun other => unique 0 _ other outer, item, (yielded "item").mpr ⟨item, occurs⟩,
    (first _).mpr outer.isParentName⟩

end TestLinker.Parent
