import Diagnosis.TypeText.Basic

/-!
# Differences between two types

A source type, the one that was given, is compared with a target type, the one that was expected.
Two object types are compared property by property, one level deep: the types of the properties are
texts, and they agree if they have the same words. Two other types agree if their texts do. An
object type never agrees with a type that is none.
-/

namespace Diagnosis

/-- A difference between a source type and a target type. -/
inductive Difference where
  /-- The target asks for a property that the source lacks. -/
  | missingInSource (property expectedType : String)
  /-- The source has a property that the target does not know. -/
  | extraInSource (property actualType : String)
  /-- Both have the property, with different types. -/
  | valueMismatch (property actualType expectedType : String)
  /-- One of the types is an object type and the other is not. -/
  | structureMismatch (actualText expectedText : String)
  /-- Neither type is an object type and their texts differ. -/
  | primitiveMismatch (actual expected : String)
  deriving DecidableEq

namespace Difference

/-- The property that a difference is about, if it is about one. -/
def property? : Difference → Option String
  | missingInSource property _ => some property
  | extraInSource property _ => some property
  | valueMismatch property _ _ => some property
  | structureMismatch _ _ => none
  | primitiveMismatch _ _ => none

/-- The difference between two object types at one name. -/
def atName? (source target : ObjectType) (name : String) : Option Difference :=
  match source.get? name, target.get? name with
  | none, some t => some (missingInSource name t.valueType)
  | some s, none => some (extraInSource name s.valueType)
  | some s, some t =>
    if Text.normalize s.valueType = Text.normalize t.valueType then none
    else some (valueMismatch name s.valueType t.valueType)
  | none, none => none

/-- The differences between two types that have been read. The texts are quoted if one of the types
is an object type and the other is not. -/
def ofTypes (sourceText targetText : String) (source target : TypeText) : List Difference :=
  match source, target with
  | .primitive s, .primitive t => if s = t then [] else [primitiveMismatch s t]
  | .object s, .object t => (source.unionNames target).filterMap (atName? s t)
  | _, _ => [structureMismatch sourceText targetText]

/-- The differences between the types written by two texts. -/
def between (source target : String) : List Difference :=
  ofTypes source target (.ofString source) (.ofString target)

end Difference

end Diagnosis
