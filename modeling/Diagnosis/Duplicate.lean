import Diagnosis.Distinct
import Diagnosis.Record

/-!
# Duplicate records

Compilers repeat themselves. Two records count as the same report if they agree on the dotted path,
on the kind of problem, on the source type and on the name or module that was not found, where a
problem without one of these has an empty text in its place. Target types, flags and suggestions do
not tell records apart.
-/

namespace Diagnosis.Record

/-- What tells reports apart. -/
structure Key where
  /-- The path with dots between its properties. -/
  path : String
  /-- The kind of the problem. -/
  tag : String
  /-- The source type. -/
  sourceType : String
  /-- The name that cannot be found. -/
  name : String
  /-- The module that cannot be found. -/
  moduleName : String
  deriving DecidableEq

/-- The key of a record. -/
def key (r : Record) : Key where
  path := r.dottedPath
  tag := r.problem.tag
  sourceType := r.problem.sourceType?.getD ""
  name := r.problem.name?.getD ""
  moduleName := r.problem.moduleName?.getD ""

/-- The records without the repetitions of an earlier one. -/
def dedup (records : List Record) : List Record := distinctBy key [] records

end Diagnosis.Record
