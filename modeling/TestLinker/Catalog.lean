import TestLinker.LinkError.Basic

/-! # Catalogues of named items

Pages, reusable steps and data collections are kept in catalogues and looked up by the
name under which they are imported. Names are compared exactly.
-/

namespace TestLinker

abbrev Catalog (α : Type) := OrderedMap String α

namespace Catalog

variable {α : Type}

/-- Looks an item up. A failure names the kind and the name that was asked for. -/
def find (kind : ItemKind) (items : Catalog α) (name : String) : Except UnknownItem α :=
  match items.get? name with
  | some item => .ok item
  | none => .error ⟨kind, name⟩

theorem find_eq_ok_iff {kind : ItemKind} {items : Catalog α} {name : String} {item : α} :
    items.find kind name = .ok item ↔ items.get? name = some item := by
  unfold find
  cases items.get? name <;> simp

theorem find_eq_error_iff {kind : ItemKind} {items : Catalog α} {name : String}
    {missing : UnknownItem} :
    items.find kind name = .error missing ↔
      items.get? name = none ∧ missing = ⟨kind, name⟩ := by
  unfold find
  cases items.get? name <;> simp [eq_comm]

end Catalog

/-- The identifiers that a step or a page declares: the text of each element name. -/
abbrev Identifiers := OrderedMap String String

def Identifiers.find (identifiers : Identifiers) (name : String) : Except UnknownItem String :=
  Catalog.find .identifier identifiers name

end TestLinker
