/-! # Statements

A statement is one line of a step: an action on the page under test or an assertion
about it. It carries at most two *components* that can hold references, the identifier
of the element it is about and a value; which of them it carries is fixed by its kind.

Linking keeps a statement as it was written and records its linked components beside
it, so the source text can be shown in messages.
-/

namespace TestLinker

inductive Action where
  | interaction (verb identifier : String)
  | input (identifier value : String)
  | wait (duration : String)
  | noArguments (verb : String)
deriving DecidableEq, Repr

inductive Assertion where
  /-- The element is on the page, or, if `negated`, it is not. -/
  | existence (identifier : String) (negated : Bool)
  | comparison (identifier operator value : String)
deriving DecidableEq, Repr

namespace Action

def identifier? : Action → Option String
  | interaction _ identifier => some identifier
  | input identifier _ => some identifier
  | wait _ | noArguments _ => none

/-- The value that the action supplies; the duration of a wait is one. -/
def value? : Action → Option String
  | input _ value => some value
  | wait duration => some duration
  | interaction _ _ | noArguments _ => none

end Action

namespace Assertion

def identifier : Assertion → String
  | existence identifier _ => identifier
  | comparison identifier _ _ => identifier

def value? : Assertion → Option String
  | comparison _ _ value => some value
  | existence _ _ => none

end Assertion

/-- A line of a step, as it was written or after linking. -/
inductive Statement where
  | action (source : String) (kind : Action)
  | assertion (source : String) (kind : Assertion)
  /-- A statement together with its linked components. -/
  | linked (written : Statement) (identifier value : Option String)
deriving DecidableEq, Repr

namespace Statement

def source : Statement → String
  | action source _ => source
  | assertion source _ => source
  | linked written _ _ => written.source

def identifier? : Statement → Option String
  | action _ kind => kind.identifier?
  | assertion _ kind => some kind.identifier
  | linked _ identifier _ => identifier

def value? : Statement → Option String
  | action _ kind => kind.value?
  | assertion _ kind => kind.value?
  | linked _ _ value => value

/-- Whether the statement was written as an action. -/
def isAction : Statement → Bool
  | action _ _ => true
  | assertion _ _ => false
  | linked written _ _ => written.isAction

end Statement

end TestLinker
