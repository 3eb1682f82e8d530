/-!
# Shapes

A shape is one of the forms that a line of a diagnostic can have. A line may have several of them
at once, and it is tried for them in a fixed order.
-/

namespace Diagnosis

/-- A form of a line. The order of the constructors is the order in which lines are tried. -/
inductive Shape where
  /-- The types of a property are incompatible; the lines below say how. -/
  | propertyIncompatible
  /-- A type is not assignable to another one. -/
  | typeMismatch
  /-- Properties are missing. -/
  | missingProperties
  /-- A type has no such property. -/
  | notExist
  /-- A name is not defined. -/
  | cannotFindName
  /-- A module cannot be resolved. -/
  | cannotFindModule
  /-- A name is suggested. -/
  | didYouMean
  /-- No overload of a function accepts a call. -/
  | noOverload
  /-- A parameter has no type annotation. -/
  | implicitAny
  /-- An argument is not assignable to a parameter. -/
  | argumentMismatch
  /-- An object's type is `unknown`. -/
  | unknownType
  /-- An object may be `undefined`. -/
  | possiblyUndefined
  /-- An object may be `null`. -/
  | possiblyNull
  /-- An object may be `null` or `undefined`. -/
  | possiblyNullOrUndefined
  /-- A call has too few or too many arguments. -/
  | argumentCount
  /-- An expression that is no function is called. -/
  | notCallable
  /-- An expression that is no constructor is used as one. -/
  | notConstructable
  /-- A function must return a value. -/
  | mustReturn
  /-- An operator does not apply to the types of its operands. -/
  | operator
  /-- A type argument does not satisfy its constraint. -/
  | constraint
  /-- A conversion between unrelated types. -/
  | conversionMistake
  /-- A property does not fit the one that it overrides. -/
  | baseProperty
  /-- Properties that a target type asks for are missing from a source type. -/
  | missingPropsFrom
  /-- A comparison always has the same result. -/
  | unintentionalComparison
  /-- A variable is used before it has a value. -/
  | usedBeforeAssigned
  /-- A property is not initialised. -/
  | noInitializer
  /-- The value `undefined` is not assignable to a type. -/
  | undefinedNotAssignable
  /-- The value `null` is not assignable to a type. -/
  | nullNotAssignable
  /-- A generic type lacks its type arguments. -/
  | genericArgsRequired
  /-- A type is used as a value. -/
  | typeAsValue
  /-- A value is used as a type. -/
  | valueAsType
  /-- A token is missing. -/
  | syntaxExpected
  /-- An interface does not fit the one that it extends. -/
  | interfaceExtends
  /-- A class does not fit the interface that it implements. -/
  | classImplements
  /-- An expression of some type cannot index an object of some type. -/
  | indexAccess
  /-- A type cannot be an index. -/
  | invalidIndexType
  /-- A type cannot index another one. -/
  | cannotIndex
  deriving DecidableEq

/-- All shapes, in the order in which lines are tried. -/
def Shape.all : List Shape :=
  [.propertyIncompatible, .typeMismatch, .missingProperties, .notExist, .cannotFindName,
    .cannotFindModule, .didYouMean, .noOverload, .implicitAny, .argumentMismatch, .unknownType,
    .possiblyUndefined, .possiblyNull, .possiblyNullOrUndefined, .argumentCount, .notCallable,
    .notConstructable, .mustReturn, .operator, .constraint, .conversionMistake, .baseProperty,
    .missingPropsFrom, .unintentionalComparison, .usedBeforeAssigned, .noInitializer,
    .undefinedNotAssignable, .nullNotAssignable, .genericArgsRequired, .typeAsValue, .valueAsType,
    .syntaxExpected, .interfaceExtends, .classImplements, .indexAccess, .invalidIndexType,
    .cannotIndex]

/-- Every shape is tried. -/
theorem Shape.mem_all (s : Shape) : s ∈ all := by cases s <;> decide

/-- No shape is tried twice. -/
theorem Shape.nodup_all : all.Nodup := by decide

end Diagnosis
