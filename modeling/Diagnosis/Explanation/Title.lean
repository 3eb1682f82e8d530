import Diagnosis.Problem.Basic

/-!
# Titles of problems

A title says in a few words what sort of problem there is. Problems of a specific kind have fixed
titles. A type mismatch is titled by what is told about its types: generic types come before unions,
these before literal types and these before arrays, where it is enough that the text as a whole
speaks of a missing array.
-/

namespace Diagnosis

/-- The title of a type mismatch, given whether the whole text says that an array is missing. -/
def TypeMismatch.title (arrayExpected : Bool) (m : TypeMismatch) : String :=
  if m.isGeneric then "Generic type mismatch"
  else if m.isUnion then "Union type mismatch"
  else if m.isLiteral then "Literal type mismatch"
  else if m.isArrayMismatch || arrayExpected then "Array type mismatch"
  else "Type mismatch"

/-- The title of a problem, given whether the whole text says that an array is missing. -/
def Problem.title (arrayExpected : Bool) : Problem → String
  | typeMismatch m => m.title arrayExpected
  | missing _ | notExist .. | missingPropsFrom .. => "Missing property"
  | cannotFindName _ => "Name not found"
  | cannotFindModule _ => "Module not found"
  | noOverload => "No matching overload"
  | implicitAny _ => "Implicit any"
  | unknownType => "Value of type unknown"
  | possiblyUndefined => "Possibly undefined"
  | possiblyNull => "Possibly null"
  | possiblyNullOrUndefined => "Possibly null or undefined"
  | argumentCount .. => "Wrong number of arguments"
  | notCallable => "Not callable"
  | notConstructable => "Not constructable"
  | mustReturn => "Missing return value"
  | operatorError .. => "Invalid operand types"
  | constraintError .. => "Constraint not satisfied"
  | conversionMistake .. => "Suspicious conversion"
  | basePropertyMismatch .. => "Incompatible override"
  | unintentionalComparison _ => "Unintentional comparison"
  | usedBeforeAssigned _ => "Used before assignment"
  | noInitializer _ => "Missing initializer"
  | undefinedNotAssignable _ => "Undefined not assignable"
  | nullNotAssignable _ => "Null not assignable"
  | genericArgsRequired .. => "Missing type arguments"
  | typeAsValue _ => "Type used as value"
  | valueAsType _ => "Value used as type"
  | syntaxExpected _ => "Syntax error"
  | interfaceExtendError .. => "Incorrect interface extension"
  | classImplementError .. => "Incorrect interface implementation"
  | indexAccessError .. | invalidIndexType _ | cannotIndex .. => "Invalid index"

end Diagnosis
