import Diagnosis.TypeText.ObjectLiteral

/-!
# The text of a type

A diagnostic quotes types as text. A text that opens with a brace is an object type, of which the
properties are read; every other text, arrays, unions and functions included, is kept as it is.
-/

namespace Diagnosis

/-- A type as a diagnostic quotes it. -/
inductive TypeText where
  /-- A type that is not looked into. -/
  | primitive (text : String)
  /-- An object type. -/
  | object (type : ObjectType)

namespace TypeText

/-- Reads the text of a type. Blanks at its ends do not count. -/
def ofString (s : String) : TypeText :=
  match Text.strip s.toList with
  | '{' :: rest => .object (ObjectLiteral.read ('{' :: rest))
  | text => .primitive (String.ofList text)

/-- Whether the type is an object type. -/
def isObject : TypeText → Bool
  | .primitive _ => false
  | .object _ => true

/-- The properties of a type; a type that is not an object has none. -/
def properties : TypeText → List Property
  | .primitive _ => []
  | .object type => type.properties

/-- A search through the properties of an object type finds what its index leads to. -/
theorem get?_properties_object (type : ObjectType) (name : String) :
    Property.get? (object type).properties name = type.get? name :=
  (type.get?_eq name).symm

/-- The names of the properties of two types: those of the first in its order, then the further
ones of the second in its order. -/
def unionNames (a b : TypeText) : List String :=
  Property.names a.properties ++
    (Property.names b.properties).filter fun n => !(Property.names a.properties).contains n

/-- A few words for a type in a narrow place: an array or an object type by its kind, and any
other by its text. -/
def summary (s : String) : String :=
  let text := Text.strip s.toList
  if Text.occursIn ['[', ']'] text then "array"
  else match text with
    | '{' :: _ => "object"
    | _ => String.ofList text

end TypeText

end Diagnosis
