import Diagnosis.Problem.Basic
import Diagnosis.TypeText.ObjectLiteral

/-!
# What a line contributes

A line of a diagnostic may enter a nested property, report problems, or suggest a name for the
problem before it.

A line that two types do not fit together is looked into if both are object types: the properties
of which only the target is an array are reported one by one, in the source's order, and take the
place of the report on the whole types.
-/

namespace Diagnosis

/-- A problem, and the property under which it is reported if there is one of its own. -/
structure Finding where
  /-- The property below the path of the line. -/
  property : Option String := none
  /-- The problem. -/
  problem : Problem
  deriving DecidableEq

/-- What a line contributes to a diagnosis. -/
inductive Contribution where
  /-- The lines nested below are about a property. -/
  | enter (property : String)
  /-- The line reports problems. -/
  | report (findings : List Finding)
  /-- The line suggests a name. -/
  | suggest (name : String)
  deriving DecidableEq

namespace Finding

/-- The array mismatch of a property of the source, if the target has the property too and only
there its type mentions an array. -/
def arrayMismatch? (target : ObjectType) (s : Property) : Option Finding :=
  match target.get? s.name with
  | some t =>
    if !t.valueType.isEmpty && Text.contains t.valueType "[]" && !Text.contains s.valueType "[]"
    then some ⟨some s.name, .typeMismatch (.array s.valueType t.valueType)⟩
    else none
  | none => none

/-- The array mismatches of the properties of two types that both open with a brace. -/
def arrayMismatches (source target : String) : List Finding :=
  if ['{'].isPrefixOf source.toList && ['{'].isPrefixOf target.toList then
    (ObjectLiteral.read source.toList).properties.filterMap
      (arrayMismatch? (ObjectLiteral.read target.toList))
  else []

/-- The findings on a source type that is not assignable to a target type. -/
def ofTypes (source target : String) : List Finding :=
  match arrayMismatches source target with
  | [] => [{ problem := .typeMismatch (.ofTypes source target) }]
  | findings => findings

end Finding

/-- The contribution of one problem. -/
def Contribution.problem (p : Problem) : Contribution := report [{ problem := p }]

end Diagnosis
