import Diagnosis.Text.Pieces

/-!
# Type mismatches

The commonest diagnostic says that a source type is not assignable to a target type. The two texts
are kept together with what can be told from them at a glance: whether an array was expected, and
whether generic, union or literal types are involved.
-/

namespace Diagnosis

/-! ## Kinds of type texts -/

namespace TypeText

/-- Whether a text ends in the brackets of an array type, up to blanks. -/
def isArray (cs : List Char) : Bool := [']', '['].isPrefixOf (Text.stripRight cs).reverse

/-- Whether a text is a `readonly` type whose rest opens with a square bracket. -/
def isReadonlyArray (cs : List Char) : Bool :=
  match "readonly".toList.isPrefixOf? cs with
  | some rest => ['['].isPrefixOf (Text.stripLeft rest)
  | none => false

/-- Whether a text has at least two characters and its first and its last are quotation marks of a
class. -/
def isEnclosed (mark : Char → Bool) : List Char → Bool
  | first :: second :: rest => mark first && mark ((second :: rest).getLast (by simp))
  | _ => false

/-- Whether a text is written as a literal type: a quoted text, a number of ASCII digits, a truth
value or a template. -/
def isLiteral (cs : List Char) : Bool :=
  isEnclosed (fun c => c == '"' || c == '\'') cs
    || !cs.isEmpty && cs.all Char.isDigit
    || cs == "true".toList
    || cs == "false".toList
    || isEnclosed (· == '\x60') cs
    || Text.occursIn ['$', '{'] cs

end TypeText

/-! ## Mismatches -/

/-- A source type that is not assignable to a target type. -/
structure TypeMismatch where
  /-- The type that was given. -/
  sourceType : String
  /-- The type that was expected. -/
  targetType : String
  /-- An array was expected and something else was given. -/
  isArrayMismatch : Bool := false
  /-- One of the types is generic. -/
  isGeneric : Bool := false
  /-- One of the types is a union. -/
  isUnion : Bool := false
  /-- One of the types is a literal type or a `readonly` array. -/
  isLiteral : Bool := false
  /-- One of the types is a `readonly` array. -/
  isReadonlyArray : Bool := false
  /-- The mismatch is one of an argument and a parameter. -/
  isArgument : Bool := false
  deriving DecidableEq

namespace TypeMismatch

/-- The mismatch of two types, with everything that can be told from their texts. -/
def ofTypes (source target : String) : TypeMismatch :=
  let either (test : List Char → Bool) := test source.toList || test target.toList
  let isReadonlyArray := either TypeText.isReadonlyArray
  { sourceType := source
    targetType := target
    isArrayMismatch := TypeText.isArray target.toList && !TypeText.isArray source.toList
    isGeneric := either (·.contains '<')
    isUnion := either (Text.occursIn " | ".toList)
    isLiteral := either TypeText.isLiteral || isReadonlyArray
    isReadonlyArray := isReadonlyArray }

/-- The mismatch of a property's types of which only the target is an array. Nothing else is told
about the two. -/
def array (source target : String) : TypeMismatch :=
  { sourceType := source, targetType := target, isArrayMismatch := true }

/-- The mismatch as one of an argument and a parameter. -/
def asArgument (m : TypeMismatch) : TypeMismatch := { m with isArgument := true }

end TypeMismatch

end Diagnosis
