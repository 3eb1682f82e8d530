import Diagnosis.Problem.Basic

/-!
# Details of problems

A detail says in one sentence what went wrong, with the names, types and counts that the diagnostic
mentions.
-/

namespace Diagnosis

/-- A text between single quotation marks. -/
def inQuotes (s : String) : String := "'" ++ s ++ "'"

/-- Texts with a comma between them. -/
def commaList (texts : List String) : String := ", ".intercalate texts

/-- A count in decimal digits. -/
def countText (n : UInt32) : String := n.toNat.repr

/-- What went wrong in a type mismatch. -/
def TypeMismatch.detail (m : TypeMismatch) : String :=
  if m.isArgument then
    "argument " ++ inQuotes m.sourceType ++ " is not assignable to parameter "
      ++ inQuotes m.targetType
  else inQuotes m.sourceType ++ " is not assignable to " ++ inQuotes m.targetType

/-- What went wrong. -/
def Problem.detail : Problem → String
  | typeMismatch m => m.detail
  | missing missingProps => "missing " ++ commaList missingProps
  | notExist propName onType => inQuotes propName ++ " does not exist on " ++ inQuotes onType
  | cannotFindName name => inQuotes name ++ " is not declared"
  | cannotFindModule moduleName => inQuotes moduleName ++ " cannot be resolved"
  | noOverload => "no overload accepts these arguments"
  | implicitAny paramName => "parameter " ++ inQuotes paramName ++ " has no type"
  | unknownType => "value must be narrowed before use"
  | possiblyUndefined => "value may be undefined"
  | possiblyNull => "value may be null"
  | possiblyNullOrUndefined => "value may be null or undefined"
  | argumentCount expectedMin expectedMax got =>
    let expected :=
      if expectedMin = expectedMax then countText expectedMin
      else countText expectedMin ++ "-" ++ countText expectedMax
    "expected " ++ expected ++ ", got " ++ countText got
  | notCallable => "expression is not a function"
  | notConstructable => "expression is not a constructor"
  | mustReturn => "function does not return on every path"
  | operatorError operator leftType rightType =>
    inQuotes operator ++ " between " ++ inQuotes leftType ++ " and " ++ inQuotes rightType
  | constraintError sourceType constraint =>
    inQuotes sourceType ++ " does not satisfy " ++ inQuotes constraint
  | conversionMistake sourceType targetType =>
    inQuotes sourceType ++ " to " ++ inQuotes targetType
  | basePropertyMismatch propName childType baseType =>
    inQuotes propName ++ " in " ++ inQuotes childType ++ " differs from base " ++ inQuotes baseType
  | missingPropsFrom sourceType targetType missingProps =>
    inQuotes sourceType ++ " lacks " ++ commaList missingProps ++ " from " ++ inQuotes targetType
  | unintentionalComparison result => "always " ++ inQuotes result
  | usedBeforeAssigned varName => inQuotes varName ++ " is read before assignment"
  | noInitializer propName => inQuotes propName ++ " is never initialized"
  | undefinedNotAssignable targetType => "'undefined' to " ++ inQuotes targetType
  | nullNotAssignable targetType => "'null' to " ++ inQuotes targetType
  | genericArgsRequired genericType requiredCount =>
    inQuotes genericType ++ " needs " ++ countText requiredCount ++ " type argument(s)"
  | typeAsValue typeName => inQuotes typeName ++ " is a type"
  | valueAsType valueName => inQuotes valueName ++ " is a value"
  | syntaxExpected expected => inQuotes expected ++ " expected"
  | interfaceExtendError childInterface parentInterface =>
    inQuotes childInterface ++ " extends " ++ inQuotes parentInterface
  | classImplementError className interfaceName =>
    inQuotes className ++ " implements " ++ inQuotes interfaceName
  | indexAccessError indexType objectType =>
    inQuotes indexType ++ " cannot index " ++ inQuotes objectType
  | invalidIndexType indexType => inQuotes indexType ++ " is not an index type"
  | cannotIndex indexType objectType =>
    inQuotes indexType ++ " cannot index " ++ inQuotes objectType

end Diagnosis
