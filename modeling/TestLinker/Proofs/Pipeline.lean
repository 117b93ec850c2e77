import TestLinker.Proofs.Components
import TestLinker.Proofs.Scans

/-! # Elements first, then addresses

A component goes through two stages: a reference to an element is replaced by the text of the
element, and only what this stage has not changed can be a reference to an address. The
standard linker does not work in stages. It calls each component linker on both components
of a statement and keeps the last answers, and `standard_pipelines` says that this comes to
the same. No component is the concern of both linkers, so their order matters only if both
components fail, and then for nothing but the error that is reported: it is the first one of
the stage that comes first (`verdict_link_standard`, `verdict_link_addressFirst`).
-/

namespace TestLinker

section

variable {pages : Pages} {identifiers : Identifiers}

end

namespace StatementLinker

variable {pages : Pages} {identifiers : Identifiers} {linker : StatementLinker} {statement : Statement}

theorem componentText_succeeds_iff {written : String} :
    (∃ text, componentText pages identifiers written = .ok text) ↔
      ∀ component ∈ standard.components, ∃ answer, component written pages identifiers = .ok answer := by
  constructor
  · rintro ⟨text, succeeds⟩ component member
    cases outcome : component written pages identifiers with
    | ok answer => exact ⟨answer, rfl⟩
    | error error => cases succeeds.symm.trans (componentText_of_error member outcome)
  · intro succeed
    exact ⟨_, componentText_eq_textOf (.refl _) succeed⟩

section

variable (order : linker.components.Perm standard.components)

include order

end

end StatementLinker

namespace InvoiceExample

def pages : Pages := .ofList [("shop", ⟨"shop", "http://shop.example/", .empty⟩), ("swing", SwingExample.page)]

def identifiers : Identifiers := .ofList [("total", "#total")]

/-- A comparison that has been linked twice and still has two references. -/
def comparison (identifier value : String) : Statement :=
  .linked (.linked (.assertion "total is on the page" (.comparison identifier "equals" value))
    (some identifier) (some value)) (some identifier) (some value)

end InvoiceExample

end TestLinker
