import Diagnosis.Problem.Basic

/-!
# Records

A record is a problem together with the place where it was found, the names of the nested
properties that lead to it, and with the name that the compiler suggests in its stead, if it
suggests one.
-/

namespace Diagnosis

/-- A problem at a place. -/
structure Record where
  /-- The properties that lead to the problem, the outermost first. -/
  path : List String
  /-- The problem. -/
  problem : Problem
  /-- The name that is suggested. -/
  suggestion : Option String := none
  deriving DecidableEq

/-- The path with a dot between its properties. -/
def Record.dottedPath (r : Record) : String := ".".intercalate r.path

/-- The texts of a record. -/
def Record.strings (r : Record) : List String :=
  r.path ++ r.problem.strings ++ r.suggestion.toList

end Diagnosis
