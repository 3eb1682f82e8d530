import Diagnosis.Shape.Basic
import Diagnosis.Shape.Contribution
import Diagnosis.Shape.PropertyList
import Diagnosis.Wording

/-!
# The rules of the shapes

For each shape there is a rule: the wordings by which a line of the shape is known, whether what it
reports concerns the nested property of its place or the diagnostic as a whole, the shape that takes
precedence over it on the same line, and what the line contributes.
-/

namespace Diagnosis

/-- What the problems of a line are about. -/
inductive Scope where
  /-- The nested property in which the line stands. -/
  | current
  /-- The diagnostic as a whole. -/
  | root
  deriving DecidableEq

/-- How the lines of a shape are known and what they contribute. -/
structure Rule where
  /-- The wordings of the shape; at the same place in a line the first one counts. -/
  wordings : List Wording
  /-- What the problems of the line are about. -/
  scope : Scope := .current
  /-- The shape that takes precedence: a line that has it too contributes nothing here. -/
  unless? : Option Shape := none
  /-- What a line with the given fields contributes. -/
  contribution : Fields → Contribution

namespace Shape

open Wording

/-- The rule of a shape. -/
def rule : Shape → Rule
  | propertyIncompatible =>
    { wordings := [text "Types of property " ++ quoted ++ text " are incompatible"]
      contribution := fun f => .enter (f.text 0) }
  | typeMismatch =>
    { wordings := [text "Type " ++ quoted ++ text " is not assignable to type " ++ quoted]
      contribution := fun f => .report (Finding.ofTypes (f.text 0) (f.text 1)) }
  | missingProperties =>
    { wordings := [text "is missing the following properties" ++ [.skip (· != ':')] ++ text ": " ++
        upTo '.']
      contribution := fun f => .problem (.missing (PropertyList.read (f.text 0))) }
  | notExist =>
    { wordings := [text "Property " ++ quoted ++ text " does not exist on type " ++ quoted]
      contribution := fun f => .problem (.notExist (f.text 0) (f.text 1)) }
  | cannotFindName =>
    { wordings := [text "Cannot find name " ++ quoted]
      scope := .root
      contribution := fun f => .problem (.cannotFindName (f.text 0)) }
  | cannotFindModule =>
    { wordings := [text "Cannot find module " ++ quoted]
      scope := .root
      contribution := fun f => .problem (.cannotFindModule (f.text 0)) }
  | didYouMean =>
    { wordings := [text "Did you mean " ++ quoted ++ text "?"]
      contribution := fun f => .suggest (f.text 0) }
  | noOverload =>
    { wordings := [text "No overload matches this call"]
      contribution := fun _ => .problem .noOverload }
  | implicitAny =>
    { wordings := [text "Parameter " ++ quoted ++ text " implicitly has an " ++ quotedWord "any" ++
        text " type"]
      scope := .root
      contribution := fun f => .problem (.implicitAny (f.text 0)) }
  | argumentMismatch =>
    { wordings := [text "Argument of type " ++ quoted ++
        text " is not assignable to parameter of type " ++ quoted]
      unless? := some typeMismatch
      contribution := fun f =>
        .problem (.typeMismatch (TypeMismatch.ofTypes (f.text 0) (f.text 1)).asArgument) }
  | unknownType =>
    { wordings := [text "Object is of type " ++ quotedWord "unknown"]
      contribution := fun _ => .problem .unknownType }
  | possiblyUndefined =>
    { wordings := [text "Object is possibly " ++ quotedWord "undefined"]
      contribution := fun _ => .problem .possiblyUndefined }
  | possiblyNull =>
    { wordings := [text "Object is possibly " ++ quotedWord "null"]
      contribution := fun _ => .problem .possiblyNull }
  | possiblyNullOrUndefined =>
    { wordings := [text "Object is possibly " ++ quotedWord "null" ++ text " or " ++
        quotedWord "undefined"]
      contribution := fun _ => .problem .possiblyNullOrUndefined }
  | argumentCount =>
    { wordings :=
        [text "Expected " ++ digits ++ text "-" ++ digits ++ text " arguments, but got " ++ digits,
          text "Expected " ++ digits ++ text "-" ++ digits ++ text " argument, but got " ++ digits,
          text "Expected " ++ digits ++ text " arguments, but got " ++ digits,
          text "Expected " ++ digits ++ text " argument, but got " ++ digits]
      contribution := fun f =>
        match f with
        | [_, _, _] => .problem (.argumentCount (f.count 0) (f.count 1) (f.count 2))
        | _ => .problem (.argumentCount (f.count 0) (f.count 0) (f.count 1)) }
  | notCallable =>
    { wordings := [text "This expression is not callable"]
      contribution := fun _ => .problem .notCallable }
  | notConstructable =>
    { wordings := [text "This expression is not constructable"]
      contribution := fun _ => .problem .notConstructable }
  | mustReturn =>
    { wordings := [text "A function whose declared type is neither " ++ quotedWord "void" ++
        text " nor " ++ quotedWord "any" ++ text " must return a value"]
      contribution := fun _ => .problem .mustReturn }
  | operator =>
    { wordings := [text "Operator " ++ quoted ++ text " cannot be applied to types " ++ quoted ++
        text " and " ++ quoted]
      contribution := fun f => .problem (.operatorError (f.text 0) (f.text 1) (f.text 2)) }
  | constraint =>
    { wordings := [text "Type " ++ quoted ++ text " does not satisfy the constraint " ++ quoted]
      contribution := fun f => .problem (.constraintError (f.text 0) (f.text 1)) }
  | conversionMistake =>
    { wordings := [text "Conversion of type " ++ quoted ++ text " to type " ++ quoted ++
        text " may be a mistake"]
      contribution := fun f => .problem (.conversionMistake (f.text 0) (f.text 1)) }
  | baseProperty =>
    { wordings := [text "Property " ++ quoted ++ text " in type " ++ quoted ++
        text " is not assignable to the same property in base type " ++ quoted]
      contribution := fun f =>
        .problem (.basePropertyMismatch (f.text 0) (f.text 1) (f.text 2)) }
  | missingPropsFrom =>
    { wordings := [text "Type " ++ quoted ++
        text " is missing the following properties from type " ++ quoted ++ text ":" ++
        [.skip Text.isBlank] ++ upTo '\n']
      unless? := some missingProperties
      contribution := fun f =>
        .problem (.missingPropsFrom (f.text 0) (f.text 1) (PropertyList.readEnglish (f.text 2))) }
  | unintentionalComparison =>
    { wordings :=
        [text "This condition will always return " ++ quoted,
          text "This comparison will always return " ++ quoted,
          text "This comparison appears to be unintentional"]
      contribution := fun f => .problem (.unintentionalComparison (f.getD 0 "false")) }
  | usedBeforeAssigned =>
    { wordings := [text "Variable " ++ quoted ++ text " is used before being assigned"]
      scope := .root
      contribution := fun f => .problem (.usedBeforeAssigned (f.text 0)) }
  | noInitializer =>
    { wordings := [text "Property " ++ quoted ++
        text " has no initializer and is not definitely assigned"]
      scope := .root
      contribution := fun f => .problem (.noInitializer (f.text 0)) }
  | undefinedNotAssignable =>
    { wordings := [text "Type " ++ quotedWord "undefined" ++ text " is not assignable to type " ++
        quoted]
      unless? := some typeMismatch
      contribution := fun f => .problem (.undefinedNotAssignable (f.text 0)) }
  | nullNotAssignable =>
    { wordings := [text "Type " ++ quotedWord "null" ++ text " is not assignable to type " ++
        quoted]
      unless? := some typeMismatch
      contribution := fun f => .problem (.nullNotAssignable (f.text 0)) }
  | genericArgsRequired =>
    { wordings := [text "Generic type " ++ quoted ++ text " requires " ++ digits ++
        text " type argument(s)"]
      contribution := fun f => .problem (.genericArgsRequired (f.text 0) (f.count 1)) }
  | typeAsValue =>
    { wordings := [quoted ++ text " only refers to a type, but is being used as a value here"]
      scope := .root
      contribution := fun f => .problem (.typeAsValue (f.text 0)) }
  | valueAsType =>
    { wordings := [quoted ++ text " refers to a value, but is being used as a type here"]
      scope := .root
      contribution := fun f => .problem (.valueAsType (f.text 0)) }
  | syntaxExpected =>
    { wordings := [quoted ++ text " expected"]
      scope := .root
      contribution := fun f => .problem (.syntaxExpected (f.text 0)) }
  | interfaceExtends =>
    { wordings := [text "Interface " ++ quoted ++ text " incorrectly extends interface " ++ quoted]
      contribution := fun f => .problem (.interfaceExtendError (f.text 0) (f.text 1)) }
  | classImplements =>
    { wordings := [text "Class " ++ quoted ++ text " incorrectly implements interface " ++ quoted]
      contribution := fun f => .problem (.classImplementError (f.text 0) (f.text 1)) }
  | indexAccess =>
    { wordings := [text "Element implicitly has an " ++ quotedWord "any" ++
        text " type because expression of type " ++ quoted ++
        text " can't be used to index type " ++ quoted]
      contribution := fun f => .problem (.indexAccessError (f.text 0) (f.text 1)) }
  | invalidIndexType =>
    { wordings := [text "Type " ++ quoted ++ text " cannot be used as an index type"]
      contribution := fun f => .problem (.invalidIndexType (f.text 0)) }
  | cannotIndex =>
    { wordings := [text "Type " ++ quoted ++ text " cannot be used to index type " ++ quoted]
      contribution := fun f => .problem (.cannotIndex (f.text 0) (f.text 1)) }

/-- The fields of a line that has the shape. -/
def fields? (shape : Shape) (line : List Char) : Option Fields :=
  Wording.find? shape.rule.wordings line

end Shape

end Diagnosis
