import Diagnosis.Problem.Mismatch

/-!
# Problems

A problem is what one diagnostic says, with the names, types and counts that it mentions. There is
one constructor for each kind of diagnostic that is recognised, and the problem's tag is the name of
its kind.
-/

namespace Diagnosis

/-- What a diagnostic says. -/
inductive Problem where
  /-- A type is not assignable to another one. -/
  | typeMismatch (mismatch : TypeMismatch)
  /-- Properties are missing. -/
  | missing (missingProps : List String)
  /-- A type has no such property. -/
  | notExist (propName onType : String)
  /-- A name is not defined. -/
  | cannotFindName (name : String)
  /-- A module cannot be resolved. -/
  | cannotFindModule (moduleName : String)
  /-- No overload of a function accepts the call. -/
  | noOverload
  /-- A parameter has no type annotation. -/
  | implicitAny (paramName : String)
  /-- An object's type is `unknown`. -/
  | unknownType
  /-- An object may be `undefined`. -/
  | possiblyUndefined
  /-- An object may be `null`. -/
  | possiblyNull
  /-- An object may be `null` or `undefined`. -/
  | possiblyNullOrUndefined
  /-- A call has too few or too many arguments. -/
  | argumentCount (expectedMin expectedMax got : UInt32)
  /-- An expression that is no function is called. -/
  | notCallable
  /-- An expression that is no constructor is used as one. -/
  | notConstructable
  /-- A function must return a value. -/
  | mustReturn
  /-- An operator does not apply to the types of its operands. -/
  | operatorError (operator leftType rightType : String)
  /-- A type argument does not satisfy its constraint. -/
  | constraintError (sourceType constraint : String)
  /-- A conversion between unrelated types. -/
  | conversionMistake (sourceType targetType : String)
  /-- A property does not fit the one that it overrides. -/
  | basePropertyMismatch (propName childType baseType : String)
  /-- Properties that a target type asks for are missing from a source type. -/
  | missingPropsFrom (sourceType targetType : String) (missingProps : List String)
  /-- A comparison always has the same result. -/
  | unintentionalComparison (result : String)
  /-- A variable is used before it has a value. -/
  | usedBeforeAssigned (varName : String)
  /-- A property is not initialised. -/
  | noInitializer (propName : String)
  /-- The value `undefined` is not assignable to a type. -/
  | undefinedNotAssignable (targetType : String)
  /-- The value `null` is not assignable to a type. -/
  | nullNotAssignable (targetType : String)
  /-- A generic type lacks its type arguments. -/
  | genericArgsRequired (genericType : String) (requiredCount : UInt32)
  /-- A type is used as a value. -/
  | typeAsValue (typeName : String)
  /-- A value is used as a type. -/
  | valueAsType (valueName : String)
  /-- A token is missing. -/
  | syntaxExpected (expected : String)
  /-- An interface does not fit the one that it extends. -/
  | interfaceExtendError (childInterface parentInterface : String)
  /-- A class does not fit the interface that it implements. -/
  | classImplementError (className interfaceName : String)
  /-- An expression of some type cannot index an object of some type. -/
  | indexAccessError (indexType objectType : String)
  /-- A type cannot be an index. -/
  | invalidIndexType (indexType : String)
  /-- A type cannot index another one. -/
  | cannotIndex (indexType objectType : String)
  deriving DecidableEq

/-- Groups of problems that belong together when they are shown. -/
inductive Category where
  /-- Modules that cannot be resolved. -/
  | module
  /-- Names that are not defined. -/
  | notFound
  /-- Generic types and overloads. -/
  | generic
  /-- Objects that may be `null` or `undefined`. -/
  | nullable
  /-- Objects of the type `unknown`. -/
  | unknown
  /-- Counts of arguments. -/
  | argument
  /-- Calls of what cannot be called. -/
  | callable
  /-- Operands. -/
  | operator
  /-- Constraints on type arguments. -/
  | constraint
  /-- Interfaces that are extended or implemented. -/
  | inheritance
  /-- Indexed access. -/
  | index
  /-- Literal types. -/
  | literal
  /-- Union types. -/
  | union
  deriving DecidableEq

/-- The name of a category. -/
def Category.name : Category → String
  | module => "module"
  | notFound => "notFound"
  | generic => "generic"
  | nullable => "nullable"
  | unknown => "unknown"
  | argument => "argument"
  | callable => "callable"
  | operator => "operator"
  | constraint => "constraint"
  | inheritance => "inheritance"
  | index => "index"
  | literal => "literal"
  | union => "union"

/-- The category of a mismatch: literal types come before generic ones and these before unions. -/
def TypeMismatch.category? (m : TypeMismatch) : Option Category :=
  if m.isLiteral then some .literal
  else if m.isGeneric then some .generic
  else if m.isUnion then some .union
  else none

namespace Problem

/-- The details of a type mismatch. All other problems are of a specific kind and have none. -/
def mismatch? : Problem → Option TypeMismatch
  | typeMismatch m => some m
  | _ => none

/-- The name of the kind of a problem. -/
def tag : Problem → String
  | typeMismatch _ => "type"
  | missing _ => "missing"
  | notExist .. => "notExist"
  | cannotFindName _ => "cannotFindName"
  | cannotFindModule _ => "cannotFindModule"
  | noOverload => "noOverload"
  | implicitAny _ => "implicitAny"
  | unknownType => "unknownType"
  | possiblyUndefined => "possiblyUndefined"
  | possiblyNull => "possiblyNull"
  | possiblyNullOrUndefined => "possiblyNullOrUndefined"
  | argumentCount .. => "argumentCount"
  | notCallable => "notCallable"
  | notConstructable => "notConstructable"
  | mustReturn => "mustReturn"
  | operatorError .. => "operatorError"
  | constraintError .. => "constraintError"
  | conversionMistake .. => "conversionMistake"
  | basePropertyMismatch .. => "basePropertyMismatch"
  | missingPropsFrom .. => "missingPropsFrom"
  | unintentionalComparison _ => "unintentionalComparison"
  | usedBeforeAssigned _ => "usedBeforeAssigned"
  | noInitializer _ => "noInitializer"
  | undefinedNotAssignable _ => "undefinedNotAssignable"
  | nullNotAssignable _ => "nullNotAssignable"
  | genericArgsRequired .. => "genericArgsRequired"
  | typeAsValue _ => "typeAsValue"
  | valueAsType _ => "valueAsType"
  | syntaxExpected _ => "syntaxExpected"
  | interfaceExtendError .. => "interfaceExtendError"
  | classImplementError .. => "classImplementError"
  | indexAccessError .. => "indexAccessError"
  | invalidIndexType _ => "invalidIndexType"
  | cannotIndex .. => "cannotIndex"

/-- The names, types and tokens that a problem mentions. -/
def strings : Problem → List String
  | typeMismatch m => [m.sourceType, m.targetType]
  | missing missingProps => missingProps
  | notExist propName onType => [propName, onType]
  | cannotFindName name => [name]
  | cannotFindModule moduleName => [moduleName]
  | implicitAny paramName => [paramName]
  | noOverload | unknownType | possiblyUndefined | possiblyNull | possiblyNullOrUndefined
  | argumentCount .. | notCallable | notConstructable | mustReturn => []
  | operatorError operator leftType rightType => [operator, leftType, rightType]
  | constraintError sourceType constraint => [sourceType, constraint]
  | conversionMistake sourceType targetType => [sourceType, targetType]
  | basePropertyMismatch propName childType baseType => [propName, childType, baseType]
  | missingPropsFrom sourceType targetType missingProps => sourceType :: targetType :: missingProps
  | unintentionalComparison result => [result]
  | usedBeforeAssigned varName => [varName]
  | noInitializer propName => [propName]
  | undefinedNotAssignable targetType | nullNotAssignable targetType => [targetType]
  | genericArgsRequired genericType _ => [genericType]
  | typeAsValue typeName => [typeName]
  | valueAsType valueName => [valueName]
  | syntaxExpected expected => [expected]
  | interfaceExtendError childInterface parentInterface => [childInterface, parentInterface]
  | classImplementError className interfaceName => [className, interfaceName]
  | indexAccessError indexType objectType | cannotIndex indexType objectType =>
    [indexType, objectType]
  | invalidIndexType indexType => [indexType]

/-- The source type of the problems that have one. -/
def sourceType? : Problem → Option String
  | typeMismatch m => some m.sourceType
  | constraintError sourceType _ => some sourceType
  | conversionMistake sourceType _ => some sourceType
  | missingPropsFrom sourceType _ _ => some sourceType
  | _ => none

/-- The target type of the problems that have one. -/
def targetType? : Problem → Option String
  | typeMismatch m => some m.targetType
  | conversionMistake _ targetType => some targetType
  | missingPropsFrom _ targetType _ => some targetType
  | undefinedNotAssignable targetType => some targetType
  | nullNotAssignable targetType => some targetType
  | _ => none

/-- The name that cannot be found. -/
def name? : Problem → Option String
  | cannotFindName name => some name
  | _ => none

/-- The module that cannot be found. -/
def moduleName? : Problem → Option String
  | cannotFindModule moduleName => some moduleName
  | _ => none

/-- The category of a problem, if it belongs to one. -/
def category? : Problem → Option Category
  | typeMismatch m => m.category?
  | cannotFindModule _ => some .module
  | cannotFindName _ => some .notFound
  | noOverload => some .generic
  | possiblyUndefined | possiblyNull | possiblyNullOrUndefined => some .nullable
  | unknownType => some .unknown
  | argumentCount .. => some .argument
  | notCallable | notConstructable => some .callable
  | operatorError .. => some .operator
  | constraintError .. => some .constraint
  | interfaceExtendError .. | classImplementError .. => some .inheritance
  | indexAccessError .. | invalidIndexType _ | cannotIndex .. => some .index
  | _ => none

end Problem

end Diagnosis
