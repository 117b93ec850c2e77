import TestLinker.LinkError.Basic

/-! # Passes that may leave a value alone

A pass over a value answers `none` if there was nothing to do, and `some` new value
otherwise. The new value may happen to be equal to the old one; it still counts as
changed. A pass over many values leaves the whole alone exactly if it leaves every value
alone, and it stops at the first failure.
-/

namespace TestLinker

/-- A step of linking: it fails, leaves its value alone, or answers a new value. -/
abbrev Pass (α : Type) := α → Except LinkError (Option α)

namespace Pass

variable {κ α : Type}

def each (pass : Pass α) : Pass (List α)
  | [] => .ok none
  | value :: rest => do
    let head ← pass value
    let tail ← each pass rest
    if head.isNone && tail.isNone then return none
    return some (head.getD value :: tail.getD rest)

def eachValue (pass : Pass α) : Pass (OrderedMap κ α) := fun m =>
  Option.map m.withValues <$> each pass m.values

theorem each_cons_of_error {pass : Pass α} {value : α} {rest : List α} {error : LinkError}
    (hhead : pass value = .error error) : each pass (value :: rest) = .error error := by
  simp [each, hhead, bind, Except.bind]

theorem each_cons_of_ok_of_error {pass : Pass α} {value : α} {rest : List α}
    {head : Option α} {error : LinkError} (hhead : pass value = .ok head)
    (htail : each pass rest = .error error) : each pass (value :: rest) = .error error := by
  simp [each, hhead, htail, bind, Except.bind]

theorem each_cons_of_ok {pass : Pass α} {value : α} {rest : List α} {head : Option α}
    {tail : Option (List α)} (hhead : pass value = .ok head)
    (htail : each pass rest = .ok tail) :
    each pass (value :: rest) =
      .ok (if head.isNone && tail.isNone then none
        else some (head.getD value :: tail.getD rest)) := by
  simp only [each, hhead, htail, bind, Except.bind, pure, Except.pure]
  split <;> rfl

theorem each_eq_ok_none_iff {pass : Pass α} {values : List α} :
    each pass values = .ok none ↔ ∀ value ∈ values, pass value = .ok none := by
  induction values with
  | nil => simp [each]
  | cons value rest ih =>
    rw [List.forall_mem_cons, ← ih]
    cases hhead : pass value with
    | error error => simp [each_cons_of_error hhead]
    | ok head =>
      cases htail : each pass rest with
      | error error => simp [each_cons_of_ok_of_error hhead htail]
      | ok tail => cases head <;> cases tail <;> simp [each_cons_of_ok hhead htail]

end Pass

end TestLinker
