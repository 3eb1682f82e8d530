import Diagnosis.Analysis
import Diagnosis.Json.Text

/-!
# Exporting an analysis

An analysis is exported as a JSON object. A record is one flat object: its path, what its problem
says, and the suggestion if there is one. What a problem says begins with its kind, but for a type
mismatch, which has no kind and is known by that.
-/

namespace Diagnosis

/-- A type mismatch as members of an object. -/
def TypeMismatch.members (m : TypeMismatch) : List (String × Json) :=
  [("sourceType", .str m.sourceType), ("targetType", .str m.targetType),
    ("isArrayMismatch", .bool m.isArrayMismatch), ("isGeneric", .bool m.isGeneric),
    ("isUnion", .bool m.isUnion), ("isLiteral", .bool m.isLiteral),
    ("isReadonlyArray", .bool m.isReadonlyArray), ("isArgument", .bool m.isArgument)]

namespace Problem

/-- What a problem mentions, as members of an object. -/
def details : Problem → List (String × Json)
  | typeMismatch m => m.members
  | missing missingProps => [("missingProps", .strings missingProps)]
  | notExist propName onType => [("propName", .str propName), ("onType", .str onType)]
  | cannotFindName name => [("name", .str name)]
  | cannotFindModule moduleName => [("moduleName", .str moduleName)]
  | implicitAny paramName => [("paramName", .str paramName)]
  | argumentCount expectedMin expectedMax got =>
    [("expectedMin", .num expectedMin.toNat), ("expectedMax", .num expectedMax.toNat),
      ("got", .num got.toNat)]
  | operatorError operator leftType rightType =>
    [("operator", .str operator), ("leftType", .str leftType), ("rightType", .str rightType)]
  | constraintError sourceType constraint =>
    [("sourceType", .str sourceType), ("constraint", .str constraint)]
  | conversionMistake sourceType targetType =>
    [("sourceType", .str sourceType), ("targetType", .str targetType)]
  | basePropertyMismatch propName childType baseType =>
    [("propName", .str propName), ("childType", .str childType), ("baseType", .str baseType)]
  | missingPropsFrom sourceType targetType missingProps =>
    [("sourceType", .str sourceType), ("targetType", .str targetType),
      ("missingProps", .strings missingProps)]
  | unintentionalComparison result => [("result", .str result)]
  | usedBeforeAssigned varName => [("varName", .str varName)]
  | noInitializer propName => [("propName", .str propName)]
  | undefinedNotAssignable targetType => [("targetType", .str targetType)]
  | nullNotAssignable targetType => [("targetType", .str targetType)]
  | genericArgsRequired genericType requiredCount =>
    [("genericType", .str genericType), ("requiredCount", .num requiredCount.toNat)]
  | typeAsValue typeName => [("typeName", .str typeName)]
  | valueAsType valueName => [("valueName", .str valueName)]
  | syntaxExpected expected => [("expected", .str expected)]
  | interfaceExtendError childInterface parentInterface =>
    [("childInterface", .str childInterface), ("parentInterface", .str parentInterface)]
  | classImplementError className interfaceName =>
    [("className", .str className), ("interfaceName", .str interfaceName)]
  | indexAccessError indexType objectType =>
    [("indexType", .str indexType), ("objectType", .str objectType)]
  | invalidIndexType indexType => [("indexType", .str indexType)]
  | cannotIndex indexType objectType =>
    [("indexType", .str indexType), ("objectType", .str objectType)]
  | noOverload | unknownType | possiblyUndefined | possiblyNull | possiblyNullOrUndefined
  | notCallable | notConstructable | mustReturn => []

/-- A problem as members of an object. -/
def members (p : Problem) : List (String × Json) :=
  match p.mismatch? with
  | some _ => p.details
  | none => ("kind", .str p.tag) :: p.details

end Problem

/-- A record as a JSON object. -/
def Record.toJson (r : Record) : Json :=
  .obj (("path", .strings r.path) :: r.problem.members
    ++ r.suggestion.toList.map fun name => ("suggestion", .str name))

namespace Analysis

/-- An analysis as a JSON object. -/
def toJson (a : Analysis) : Json :=
  .obj [("problems", .arr (a.problems.map Record.toJson)),
    ("isArrayObjectMismatch", .bool a.isArrayObjectMismatch),
    ("originalError", .str a.text),
    ("errorCode", .ofOption a.errorCode),
    ("errorCodes", .strings a.errorCodes)]

/-- The JSON text of an analysis, on one line. -/
def compactJson (a : Analysis) : String := a.toJson.compact

/-- The JSON text of an analysis, on indented lines. -/
def prettyJson (a : Analysis) : String := a.toJson.pretty

end Analysis

end Diagnosis
