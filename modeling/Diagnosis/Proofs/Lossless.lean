import Diagnosis.Export
import Diagnosis.Proofs.Readability

/-!
# Exports without loss

An analysis can be read back from what it is exported as. A record is one flat object, so its path,
the members of its problem and its suggestion are found by their keys; a problem without a kind is a
type mismatch, and the kind of any other one tells which members it has (`Record.ofJson?_toJson`).

Together with the unique readability of JSON texts it follows that the text of an analysis, on one
line or on indented ones, is the text of no other (`Analysis.export_lossless`).
-/

namespace Diagnosis

/-! ## Members of an object -/

namespace Json

/-- The string that a value is. -/
def str? : Json → Option String
  | str s => some s
  | _ => none

/-- The truth value that a value is. -/
def bool? : Json → Option Bool
  | bool b => some b
  | _ => none

/-- The count that a value is. -/
def count? : Json → Option UInt32
  | num n => some (UInt32.ofNat n)
  | _ => none

/-- The elements that a value is an array of, if each of them can be read. -/
def listOf? {α : Type} (read? : Json → Option α) : Json → Option (List α)
  | arr elements => elements.mapM read?
  | _ => none

/-- The strings that a value is an array of. -/
def strings? (v : Json) : Option (List String) := listOf? str? v

theorem listOf?_map {α : Type} {write : α → Json} {read? : Json → Option α}
    (h : ∀ x, read? (write x) = some x) (xs : List α) :
    listOf? read? (arr (xs.map write)) = some xs := by
  rw [listOf?]
  induction xs with
  | nil => rfl
  | cons x xs ih => simp [h, ih]

theorem count?_toNat (n : UInt32) : (num n.toNat).count? = some n := by
  rw [count?, UInt32.ofNat_toNat]

theorem strings?_strings (values : List String) : (strings values).strings? = some values := by
  have hstr (s : String) : (str s).str? = some s := rfl
  exact listOf?_map hstr values

/-- The member of an object with a key, the first one if there are several. -/
def member? (v : Json) (key : String) : Option Json :=
  match v with
  | obj members => members.lookup key
  | _ => none

/-- The string that an object has for a key. -/
def text? (v : Json) (key : String) : Option String := (v.member? key).bind str?

/-- The truth value that an object has for a key. -/
def flag? (v : Json) (key : String) : Option Bool := (v.member? key).bind bool?

/-- The count that an object has for a key. -/
def countAt? (v : Json) (key : String) : Option UInt32 := (v.member? key).bind count?

/-- The strings that an object has for a key. -/
def texts? (v : Json) (key : String) : Option (List String) := (v.member? key).bind strings?

end Json

/-! ## Problems -/

/-- The type mismatch that a JSON object tells. -/
def TypeMismatch.ofJson? (v : Json) : Option TypeMismatch := do
  return {
    sourceType := ← v.text? "sourceType"
    targetType := ← v.text? "targetType"
    isArrayMismatch := ← v.flag? "isArrayMismatch"
    isGeneric := ← v.flag? "isGeneric"
    isUnion := ← v.flag? "isUnion"
    isLiteral := ← v.flag? "isLiteral"
    isReadonlyArray := ← v.flag? "isReadonlyArray"
    isArgument := ← v.flag? "isArgument" }

namespace Problem

/-- The problem of a kind that a JSON object tells. -/
def ofKind? (v : Json) : String → Option Problem
  | "missing" => return missing (← v.texts? "missingProps")
  | "notExist" => return notExist (← v.text? "propName") (← v.text? "onType")
  | "cannotFindName" => return cannotFindName (← v.text? "name")
  | "cannotFindModule" => return cannotFindModule (← v.text? "moduleName")
  | "noOverload" => some noOverload
  | "implicitAny" => return implicitAny (← v.text? "paramName")
  | "unknownType" => some unknownType
  | "possiblyUndefined" => some possiblyUndefined
  | "possiblyNull" => some possiblyNull
  | "possiblyNullOrUndefined" => some possiblyNullOrUndefined
  | "argumentCount" =>
    return argumentCount (← v.countAt? "expectedMin") (← v.countAt? "expectedMax")
      (← v.countAt? "got")
  | "notCallable" => some notCallable
  | "notConstructable" => some notConstructable
  | "mustReturn" => some mustReturn
  | "operatorError" =>
    return operatorError (← v.text? "operator") (← v.text? "leftType")
      (← v.text? "rightType")
  | "constraintError" =>
    return constraintError (← v.text? "sourceType") (← v.text? "constraint")
  | "conversionMistake" =>
    return conversionMistake (← v.text? "sourceType") (← v.text? "targetType")
  | "basePropertyMismatch" =>
    return basePropertyMismatch (← v.text? "propName") (← v.text? "childType")
      (← v.text? "baseType")
  | "missingPropsFrom" =>
    return missingPropsFrom (← v.text? "sourceType") (← v.text? "targetType")
      (← v.texts? "missingProps")
  | "unintentionalComparison" => return unintentionalComparison (← v.text? "result")
  | "usedBeforeAssigned" => return usedBeforeAssigned (← v.text? "varName")
  | "noInitializer" => return noInitializer (← v.text? "propName")
  | "undefinedNotAssignable" => return undefinedNotAssignable (← v.text? "targetType")
  | "nullNotAssignable" => return nullNotAssignable (← v.text? "targetType")
  | "genericArgsRequired" =>
    return genericArgsRequired (← v.text? "genericType") (← v.countAt? "requiredCount")
  | "typeAsValue" => return typeAsValue (← v.text? "typeName")
  | "valueAsType" => return valueAsType (← v.text? "valueName")
  | "syntaxExpected" => return syntaxExpected (← v.text? "expected")
  | "interfaceExtendError" =>
    return interfaceExtendError (← v.text? "childInterface")
      (← v.text? "parentInterface")
  | "classImplementError" =>
    return classImplementError (← v.text? "className") (← v.text? "interfaceName")
  | "indexAccessError" =>
    return indexAccessError (← v.text? "indexType") (← v.text? "objectType")
  | "invalidIndexType" => return invalidIndexType (← v.text? "indexType")
  | "cannotIndex" => return cannotIndex (← v.text? "indexType") (← v.text? "objectType")
  | _ => none

/-- The problem that a JSON object tells: a type mismatch if it has no kind. -/
def ofJson? (v : Json) : Option Problem :=
  match v.member? "kind" with
  | none => (TypeMismatch.ofJson? v).map typeMismatch
  | some kind => kind.str?.bind (ofKind? v)

/-- No other member of a record has the key of a member of its problem, so the problem is read back
from the whole record. -/
theorem ofJson?_toJson (r : Record) : ofJson? r.toJson = some r.problem := by
  obtain ⟨path, problem, suggestion⟩ := r
  cases problem with
  | typeMismatch m => cases suggestion <;> rfl
  | missing missingProps =>
    show (Json.strings missingProps).strings? >>= _ = _
    rw [Json.strings?_strings]
    rfl
  | missingPropsFrom sourceType targetType missingProps =>
    show (Json.strings missingProps).strings? >>= _ = _
    rw [Json.strings?_strings]
    rfl
  | argumentCount expectedMin expectedMax got =>
    show (Json.num expectedMin.toNat).count? >>= (fun min =>
      (Json.num expectedMax.toNat).count? >>= fun max =>
        (Json.num got.toNat).count? >>= fun got => pure (argumentCount min max got)) = _
    rw [Json.count?_toNat, Json.count?_toNat, Json.count?_toNat]
    rfl
  | genericArgsRequired genericType requiredCount =>
    show (Json.num requiredCount.toNat).count? >>= (fun count =>
      pure (genericArgsRequired genericType count)) = _
    rw [Json.count?_toNat]
    rfl
  | _ => rfl

end Problem

/-! ## Records -/

namespace Record

/-- The record that a JSON object tells. -/
def ofJson? (v : Json) : Option Record := do
  return {
    path := ← v.texts? "path"
    problem := ← Problem.ofJson? v
    suggestion := v.text? "suggestion" }

/-- A record has a kind unless its problem is a type mismatch. -/
theorem member?_kind (r : Record) : r.toJson.member? "kind" =
    if r.problem.mismatch? = none then some (.str r.problem.tag) else none := by
  obtain ⟨path, problem, suggestion⟩ := r
  cases problem <;> cases suggestion <;> rfl

theorem text?_suggestion (r : Record) : r.toJson.text? "suggestion" = r.suggestion := by
  obtain ⟨path, problem, suggestion⟩ := r
  cases problem <;> cases suggestion <;> rfl

/-- A record is read back. -/
theorem ofJson?_toJson (r : Record) : ofJson? r.toJson = some r := by
  have hpath : r.toJson.texts? "path" = some r.path := Json.strings?_strings r.path
  rw [ofJson?, hpath, Problem.ofJson?_toJson, text?_suggestion]
  rfl

end Record

/-! ## Analyses -/

namespace Analysis

/-- The analysis that a JSON object tells. -/
def ofJson? (v : Json) : Option Analysis := do
  return {
    problems := ← (v.member? "problems").bind (Json.listOf? Record.ofJson?)
    isArrayObjectMismatch := ← v.flag? "isArrayObjectMismatch"
    text := ← v.text? "originalError"
    errorCode := v.text? "errorCode"
    errorCodes := ← v.texts? "errorCodes" }

/-- An analysis is read back. -/
theorem ofJson?_toJson (a : Analysis) : ofJson? a.toJson = some a := by
  have hproblems : (a.toJson.member? "problems").bind (Json.listOf? Record.ofJson?) =
      some a.problems := Json.listOf?_map Record.ofJson?_toJson a.problems
  have hcode : a.toJson.text? "errorCode" = a.errorCode := by
    obtain ⟨problems, isArrayObjectMismatch, text, errorCode, errorCodes⟩ := a
    cases errorCode <;> rfl
  have hcodes : a.toJson.texts? "errorCodes" = some a.errorCodes :=
    Json.strings?_strings a.errorCodes
  rw [ofJson?, hproblems, hcode, hcodes]
  rfl

theorem toJson_injective {a b : Analysis} (h : a.toJson = b.toJson) : a = b := by
  have hread := congrArg ofJson? h
  rw [ofJson?_toJson, ofJson?_toJson] at hread
  exact Option.some.inj hread

theorem eq_of_write_eq {layout : Json.Layout} (hlayout : layout.IsSpaced) {a b : Analysis}
    (h : String.ofList (Json.write layout 0 a.toJson) =
      String.ofList (Json.write layout 0 b.toJson)) : a = b :=
  toJson_injective (Json.write_injective hlayout (String.ofList_injective h))

/-- Analyses with the same JSON text are the same, be the text on one line or on indented lines. An
analysis, and every record of it, is read back from its JSON value, where a record has a kind unless
its problem is a type mismatch. -/
theorem export_lossless :
    (∀ a b : Analysis, a.compactJson = b.compactJson ↔ a = b) ∧
    (∀ a b : Analysis, a.prettyJson = b.prettyJson ↔ a = b) ∧
    (∀ a : Analysis, ofJson? a.toJson = some a) ∧
    ∀ r : Record, Record.ofJson? r.toJson = some r ∧
      (r.toJson.member? "kind" = none ↔ ∃ m, r.problem = .typeMismatch m) := by
  refine ⟨fun a b => ⟨eq_of_write_eq Json.Layout.isSpaced_compact, ?_⟩,
    fun a b => ⟨eq_of_write_eq Json.Layout.isSpaced_indented, ?_⟩, ofJson?_toJson, fun r => ?_⟩
  · exact congrArg compactJson
  · exact congrArg prettyJson
  · refine ⟨Record.ofJson?_toJson r, ?_⟩
    rw [Record.member?_kind]
    cases r.problem <;> simp [Problem.mismatch?]

end Analysis

end Diagnosis
