import TestLinker.OrderedMap.Lemmas

/-! # Where a fault happened

A fault is raised deep inside a test. On its way out each enclosing layer adds what
only that layer knows: the text of the statement, the name of the step, the name of
the test. A `Location` holds at most one entry for each of these scopes, innermost
first; an entry that is already there is never overwritten, so the innermost layer
that knows a scope decides it.
-/

namespace TestLinker

/-- The layers that locate a fault, from the outermost to the innermost. -/
inductive Scope where
  | test
  | step
  | content
deriving DecidableEq, Repr

def Scope.label : Scope → String
  | .test => "test"
  | .step => "step"
  | .content => "content"

/-- What is known about where a fault happened, in the order in which it was attached. -/
abbrev Location := OrderedMap Scope String

namespace Location

def attach (location : Location) (scope : Scope) (text : String) : Location :=
  location.insertIfNew scope text

def attachAll (location : Location) (attached : List (Scope × String)) : Location :=
  attached.foldl (fun known entry => known.attach entry.1 entry.2) location

/-- The location made of the given entries, of which the first of each scope counts. -/
def ofList (attached : List (Scope × String)) : Location := attachAll .empty attached

def showEntry (entry : Scope × String) : String := entry.1.label ++ ": " ++ entry.2

/-- Puts the location in front of a message: the entries from the outermost to the
innermost, separated by commas, then a colon. Without entries the message stands alone. -/
def report (location : Location) (message : String) : String :=
  if location.isEmpty then message
  else ", ".intercalate (location.entries.reverse.map showEntry) ++ ": " ++ message

theorem entries_attach (location : Location) (scope : Scope) (text : String) :
    (location.attach scope text).entries =
      if scope ∈ location.keys then location.entries else location.entries ++ [(scope, text)] := by
  by_cases known : scope ∈ location.keys
  · simp [attach, OrderedMap.insertIfNew, OrderedMap.contains, known]
  · rw [attach, OrderedMap.insertIfNew, OrderedMap.contains, if_neg (by simpa using known), if_neg known]
    exact OrderedMap.insertEntry_of_not_mem known

end Location

end TestLinker
