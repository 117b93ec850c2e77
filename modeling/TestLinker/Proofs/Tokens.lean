import Mathlib.Data.List.TakeWhile
import TestLinker.Page.Parent

/-! # Tokens and what stands between them

A part of a text is inert if no token starts in it, whatever comes after it. So reading
names and replacing tokens pass over it (`Inert.namesOf_append`, `Inert.replaceAll_append`).
A token that is inert behind its first brace is read as its name and replaced as a whole
(`IsName.namesOf_token`, `IsName.replaceAll_token`).
-/

namespace TestLinker.Parent

/-- The names that tokens can have. -/
structure IsName (name : List Char) : Prop where
  nonempty : name ≠ []
  chars : ∀ c ∈ name, isNameChar c = true

/-- A part of a text in which no token starts, not even together with what comes after it. -/
inductive Inert : List Char → Prop where
  | nil : Inert []
  | cons {c : Char} {part : List Char} (closed : ∀ rest, nameAtStart? (c :: (part ++ rest)) = none)
      (further : Inert part) : Inert (c :: part)

/-! ## Reading a name -/

theorem nameAtStart?_of_ne {c : Char} (noBrace : c ≠ '{') (rest : List Char) : nameAtStart? (c :: rest) = none := by
  unfold nameAtStart?
  split
  · rename_i opened
    exact absurd (List.cons.inj opened).1 noBrace
  · rfl

theorem isName_of_nameAfterOpening? {text name : List Char} (found : nameAfterOpening? text = some name) :
    IsName name := by
  unfold nameAfterOpening? at found
  split at found
  · rename_i c reversed _ taken _
    cases found
    refine ⟨by simp, fun d member => ?_⟩
    have inTaken : d ∈ text.takeWhile isNameChar := by
      rw [← List.mem_reverse, taken]
      exact List.mem_cons_of_mem _ (List.mem_reverse.mp member)
    exact List.mem_takeWhile_imp inTaken
  · cases found

theorem isName_of_nameAtStart? {text name : List Char} (found : nameAtStart? text = some name) : IsName name := by
  unfold nameAtStart? at found
  split at found
  · exact isName_of_nameAfterOpening? found
  · cases found

theorem isName_of_mem_namesOf {text name : List Char} (member : name ∈ namesOf text) : IsName name := by
  induction text with
  | nil => cases member
  | cons c rest inductionHypothesis =>
    rw [namesOf] at member
    split at member
    · rename_i found
      rcases List.mem_cons.mp member with rfl | later
      · exact isName_of_nameAtStart? found
      · exact inductionHypothesis later
    · exact inductionHypothesis member

theorem isName_of_mem_names {text name : String} (member : name ∈ names text) : IsName name.toList := by
  obtain ⟨chars, found, rfl⟩ := List.mem_map.mp member
  rw [String.toList_ofList]
  exact isName_of_mem_namesOf found

namespace IsName

variable {name : List Char}

theorem nameAfterOpening? (isName : IsName name) (rest : List Char) :
    nameAfterOpening? (name ++ ' ' :: '}' :: '}' :: rest) = some name := by
  have taken : (name ++ ' ' :: '}' :: '}' :: rest).takeWhile isNameChar = name ++ [' '] := by
    rw [List.takeWhile_append_of_pos isName.chars]
    rfl
  have left : (name ++ ' ' :: '}' :: '}' :: rest).dropWhile isNameChar = '}' :: '}' :: rest := by
    rw [List.dropWhile_append_of_pos isName.chars]
    rfl
  rw [Parent.nameAfterOpening?, taken, left, List.reverse_append, List.reverse_singleton, List.singleton_append]
  cases reversed : name.reverse with
  | nil => exact absurd (List.reverse_eq_nil_iff.mp reversed) isName.nonempty
  | cons last others =>
    have restored : (last :: others).reverse = name := by rw [← reversed, List.reverse_reverse]
    exact congrArg some restored

theorem nameAtStart? (isName : IsName name) (rest : List Char) :
    nameAtStart? (tokenChars name ++ rest) = some name := by
  simpa [Parent.nameAtStart?, tokenChars] using isName.nameAfterOpening? rest

/-- A text starts with the token of one name at most. -/
theorem eq_of_token_starts {other rest : List Char} (isName : IsName name) (otherIsName : IsName other)
    (starts : tokenChars name <+: tokenChars other ++ rest) : name = other := by
  obtain ⟨tail, equal⟩ := starts
  have sameName := congrArg Parent.nameAtStart? equal
  rw [isName.nameAtStart?, otherIsName.nameAtStart?] at sameName
  exact Option.some.inj sameName

end IsName

/-! ## Parts without tokens -/

namespace Inert

variable {part : List Char}

theorem of_not_mem (plain : '{' ∉ part) : Inert part := by
  induction part with
  | nil => exact .nil
  | cons c others inductionHypothesis =>
    rw [List.mem_cons, not_or] at plain
    exact .cons (fun _ => nameAtStart?_of_ne (Ne.symm plain.1) _) (inductionHypothesis plain.2)

theorem namesOf_append (inert : Inert part) (rest : List Char) : namesOf (part ++ rest) = namesOf rest := by
  induction inert with
  | nil => rfl
  | cons closed _ inductionHypothesis =>
    rw [List.cons_append, namesOf, closed rest]
    exact inductionHypothesis

theorem replaceAll_append {name : List Char} (isName : IsName name) (value : List Char) (inert : Inert part)
    (rest : List Char) :
    Text.replaceAll (tokenChars name) value (part ++ rest) =
      part ++ Text.replaceAll (tokenChars name) value rest := by
  induction inert with
  | nil => rfl
  | @cons c others closed _ inductionHypothesis =>
    have noMatch : ¬ tokenChars name <+: c :: (others ++ rest) := by
      rintro ⟨tail, starts⟩
      have found := isName.nameAtStart? tail
      rw [starts, closed rest] at found
      cases found
    rw [List.cons_append, Text.replaceAll_cons_of_no_match _ _ _ _ noMatch, inductionHypothesis]
    rfl

end Inert

/-! ## Tokens -/

/-- The part of a token behind its first brace. -/
def tokenTail (name : List Char) : List Char := '{' :: ' ' :: (name ++ [' ', '}', '}'])

theorem tokenChars_append (name rest : List Char) : tokenChars name ++ rest = '{' :: (tokenTail name ++ rest) := by
  simp [tokenChars, tokenTail]

/-- The second brace of a token is followed by a space, so it starts nothing. -/
theorem inert_tokenTail_of_not_mem {name : List Char} (plain : '{' ∉ name) : Inert (tokenTail name) :=
  .cons (fun _ => rfl) (.of_not_mem (by simp [plain]))

namespace IsName

variable {name : List Char}

theorem namesOf_token (isName : IsName name) (single : Inert (tokenTail name)) (rest : List Char) :
    namesOf (tokenChars name ++ rest) = name :: namesOf rest := by
  have opens := isName.nameAtStart? rest
  rw [tokenChars_append] at opens ⊢
  rw [namesOf, opens]
  exact congrArg _ (single.namesOf_append rest)

theorem replaceAll_token {wanted : List Char} (wantedIsName : IsName wanted) (value : List Char) (isName : IsName name)
    (single : Inert (tokenTail name)) (rest : List Char) :
    Text.replaceAll (tokenChars wanted) value (tokenChars name ++ rest) =
      (if name = wanted then value else tokenChars name) ++ Text.replaceAll (tokenChars wanted) value rest := by
  by_cases same : name = wanted
  · rw [if_pos same, same]
    exact Text.replaceAll_append _ _ _ (by simp [tokenChars])
  · have otherToken : ¬ tokenChars wanted <+: '{' :: (tokenTail name ++ rest) := by
      rw [← tokenChars_append]
      exact fun starts => same (wantedIsName.eq_of_token_starts isName starts).symm
    rw [if_neg same, tokenChars_append, tokenChars_append, Text.replaceAll_cons_of_no_match _ _ _ _ otherToken,
      single.replaceAll_append wantedIsName]

end IsName

end TestLinker.Parent
