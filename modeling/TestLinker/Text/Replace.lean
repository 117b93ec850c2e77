/-! # Replacing the occurrences of a text

Occurrences are found from left to right and do not overlap: after a match the search
goes on behind it, and the text that was put in is not searched again.
-/

namespace TestLinker.Text

/-- Skips `skip` characters that belong to a match already made, then copies the text
with each occurrence of `pattern` replaced. -/
def replaceFrom (pattern replacement : List Char) : Nat → List Char → List Char
  | _, [] => []
  | skip + 1, _ :: rest => replaceFrom pattern replacement skip rest
  | 0, c :: rest =>
    if pattern.isPrefixOf (c :: rest) then
      replacement ++ replaceFrom pattern replacement (pattern.length - 1) rest
    else c :: replaceFrom pattern replacement 0 rest

/-- The text with each occurrence of the non-empty `pattern` replaced. -/
def replaceAll (pattern replacement text : List Char) : List Char :=
  replaceFrom pattern replacement 0 text

theorem replaceFrom_eq_replaceAll_drop (pattern replacement : List Char) (skip : Nat)
    (text : List Char) :
    replaceFrom pattern replacement skip text =
      replaceAll pattern replacement (text.drop skip) := by
  induction text generalizing skip with
  | nil => cases skip <;> simp [replaceAll, replaceFrom]
  | cons c rest ih =>
    cases skip with
    | zero => rfl
    | succ skip => simpa [replaceFrom] using ih skip

@[simp] theorem replaceAll_nil (pattern replacement : List Char) :
    replaceAll pattern replacement [] = [] := rfl

theorem replaceAll_append (pattern replacement text : List Char) (h : pattern ≠ []) :
    replaceAll pattern replacement (pattern ++ text) =
      replacement ++ replaceAll pattern replacement text := by
  cases pattern with
  | nil => exact absurd rfl h
  | cons p ps =>
    have hmatch : (p :: ps).isPrefixOf (p :: (ps ++ text)) = true :=
      List.isPrefixOf_iff_prefix.2 ⟨text, rfl⟩
    show replaceFrom (p :: ps) replacement 0 (p :: (ps ++ text)) = _
    rw [replaceFrom, if_pos hmatch, replaceFrom_eq_replaceAll_drop]
    simp

theorem replaceAll_cons_of_no_match (pattern replacement : List Char) (c : Char)
    (text : List Char) (h : ¬ pattern <+: c :: text) :
    replaceAll pattern replacement (c :: text) = c :: replaceAll pattern replacement text := by
  have hmatch : ¬ pattern.isPrefixOf (c :: text) = true :=
    fun e => h (List.isPrefixOf_iff_prefix.1 e)
  show replaceFrom pattern replacement 0 (c :: text) = _
  rw [replaceFrom, if_neg hmatch]
  rfl

end TestLinker.Text
