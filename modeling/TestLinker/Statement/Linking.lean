import TestLinker.Component
import TestLinker.Statement.Basic

/-! # Linking a statement

Several component linkers are tried in turn, each on the identifier and then on the value
of the statement as they were before linking. If several of them answer for a component,
the last answer counts; a component for which none answers stays as it is. A statement
about which no linker has said anything is left alone.
-/

namespace TestLinker

structure StatementLinker where
  components : List ComponentLinker

namespace StatementLinker

/-- The linker of tests: elements first, then addresses of pages. -/
def standard : StatementLinker := ⟨[elementComponent, urlComponent]⟩

instance : Inhabited StatementLinker := ⟨standard⟩

def ask (linker : ComponentLinker) (pages : Pages) (identifiers : Identifiers) :
    Option String → Except LinkError (Option String)
  | none => .ok none
  | some component => linker component pages identifiers

/-- The last answers of the linkers for an identifier and for a value. -/
def answers (pages : Pages) (identifiers : Identifiers) (identifier value : Option String) :
    List ComponentLinker → Except LinkError (Option String × Option String)
  | [] => .ok (none, none)
  | linker :: rest => do
    let forIdentifier ← ask linker pages identifiers identifier
    let forValue ← ask linker pages identifiers value
    -- the later linkers are given the same components, and their answers come first
    let later ← answers pages identifiers identifier value rest
    return (later.1.or forIdentifier, later.2.or forValue)

/-- Links the components of a statement; `none` means that no linker has answered. -/
def link (linker : StatementLinker) (statement : Statement) (pages : Pages)
    (identifiers : Identifiers) : Except LinkError (Option Statement) := do
  let found ← answers pages identifiers statement.identifier? statement.value? linker.components
  match found with
  | (none, none) => return none
  | (identifier, value) =>
    return some (.linked statement (identifier.or statement.identifier?)
      (value.or statement.value?))

end StatementLinker

end TestLinker
