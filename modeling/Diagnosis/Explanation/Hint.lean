import Diagnosis.Explanation.Detail
import Diagnosis.Record

/-!
# Hints

Every problem comes with a hint how it may be mended. A name that the compiler suggests goes before
all other advice.
-/

namespace Diagnosis

/-- Whether the name of a module is a path. -/
def isModulePath (moduleName : String) : Bool :=
  match moduleName.toList with
  | c :: _ => c == '.' || c == '/'
  | [] => false

/-- How a type mismatch may be mended. -/
def TypeMismatch.hint (m : TypeMismatch) : String :=
  if m.isArrayMismatch then "wrap the value in an array: [value] as " ++ m.targetType
  else if m.isArgument then
    "the function expects " ++ inQuotes m.targetType ++ " but received " ++ inQuotes m.sourceType
      ++ "; check the argument"
  else "change the value to match " ++ inQuotes m.targetType

/-- How a problem may be mended. -/
def Problem.hint : Problem → String
  | typeMismatch m => m.hint
  | missing missingProps => "add the missing properties: " ++ commaList missingProps
  | notExist propName onType =>
    "check " ++ inQuotes propName ++ " for typos or declare it on " ++ inQuotes onType
  | cannotFindName name =>
    inQuotes name ++ " is not defined; check for typos, a missing import or declaration"
  | cannotFindModule moduleName =>
    if isModulePath moduleName then "check that the path " ++ inQuotes moduleName ++ " exists"
    else "npm install " ++ moduleName ++ " (or @types/" ++ moduleName ++ ")"
  | noOverload => "compare the arguments with each overload signature"
  | implicitAny paramName => "annotate the parameter: " ++ paramName ++ ": Type"
  | unknownType => "narrow first, e.g. if (typeof value === \"string\") \x7b ... \x7d"
  | possiblyUndefined => "use optional chaining (obj?.prop) or check obj !== undefined"
  | possiblyNull => "use optional chaining (obj?.prop) or check obj !== null"
  | possiblyNullOrUndefined =>
    "use optional chaining (obj?.prop) or nullish coalescing (obj ?? fallback)"
  | argumentCount .. => "check the function signature"
  | notCallable => "make sure the right variable is being called"
  | notConstructable => "use `new` only with classes and constructors"
  | mustReturn => "return a value on every code path"
  | operatorError .. => "convert the operands to compatible types"
  | constraintError _ constraint => "pass a type argument that satisfies " ++ inQuotes constraint
  | conversionMistake _ targetType =>
    "convert through unknown: value as unknown as " ++ targetType
  | basePropertyMismatch _ _ baseType =>
    "make the property type compatible with " ++ inQuotes baseType
  | missingPropsFrom _ _ missingProps => "add the missing properties: " ++ commaList missingProps
  | unintentionalComparison _ => "the operands have no overlap; check the comparison"
  | usedBeforeAssigned varName => "initialize it: let " ++ varName ++ " = value;"
  | noInitializer propName =>
    "initialize it, assign it in the constructor or declare " ++ propName ++ "!: Type"
  | undefinedNotAssignable targetType =>
    "provide a value or widen the type to " ++ targetType ++ " | undefined"
  | nullNotAssignable targetType =>
    "provide a value or widen the type to " ++ targetType ++ " | null"
  | genericArgsRequired genericType _ => "supply type arguments, e.g. " ++ genericType ++ "<string>"
  | typeAsValue typeName =>
    inQuotes typeName ++ " exists only at compile time; use a value or a type guard"
  | valueAsType valueName => "use typeof " ++ valueName ++ " in type positions"
  | syntaxExpected expected => "insert " ++ inQuotes expected
  | interfaceExtendError _ parentInterface =>
    "make the overridden members compatible with " ++ inQuotes parentInterface
  | classImplementError _ interfaceName =>
    "implement every member of " ++ inQuotes interfaceName ++ " with matching types"
  | indexAccessError _ objectType =>
    "index with keyof " ++ objectType ++ " or add an index signature"
  | invalidIndexType _ => "index with string, number or symbol"
  | cannotIndex _ objectType => "index with keyof " ++ objectType ++ " or add an index signature"

/-- How the problem of a record may be mended. -/
def Record.hint (r : Record) : String :=
  match r.suggestion with
  | some name => "did you mean " ++ inQuotes name ++ "?"
  | none => r.problem.hint

end Diagnosis
