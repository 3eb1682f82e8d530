import Diagnosis.TypeText.Difference

/-!
# Types side by side

To show two types next to each other, their properties are put into rows, one for each name that
either of them knows. What a row says about its property is what the comparison of the types says;
where the comparison does not speak about single properties, because one of the types is no object
type, a row says on which side its property stands.
-/

namespace Diagnosis

/-- What a row says about its property. -/
inductive RowStatus where
  /-- The types agree on the property. -/
  | ok
  /-- Both types have the property, with different types of its value. -/
  | valueMismatch
  /-- Only the target has the property. -/
  | missingInSource
  /-- Only the source has the property. -/
  | extraInSource
  deriving DecidableEq

/-- One property of two types that stand side by side. -/
structure AlignedRow where
  /-- The name of the property. -/
  property : String
  /-- What is shown on the side of the source. -/
  sourceDisplay : String
  /-- What is shown on the side of the target. -/
  targetDisplay : String
  /-- What the row says about the property. -/
  status : RowStatus
  deriving DecidableEq

/-- Two types side by side. -/
inductive Alignment where
  /-- Neither type is an object type: their texts, and whether these are equal. -/
  | primitive (source target : String) (equal : Bool)
  /-- At least one type is an object type. -/
  | object (rows : List AlignedRow)

namespace Alignment

/-- Whether the two sides differ anywhere. -/
def hasDifferences : Alignment → Bool
  | primitive _ _ equal => !equal
  | object rows => rows.any fun row => row.status != .ok

/-- What the presence of a property on the two sides says about it. -/
def presenceStatus : Option Property → Option Property → RowStatus
  | none, some _ => .missingInSource
  | some _, none => .extraInSource
  | _, _ => .ok

/-- What a row says about a property of the two types. -/
def status (differences : List Difference) (name : String) (source target : Option Property) :
    RowStatus :=
  match differences.find? fun d => d.property? == some name with
  | some (.valueMismatch ..) => .valueMismatch
  | some (.missingInSource ..) => .missingInSource
  | some (.extraInSource ..) => .extraInSource
  | _ => presenceStatus source target

/-- What is shown on one side: the side's own property, or else the other side's with a remark in
the place of the type. -/
def sideDisplay (own other : Option Property) (remark : String) : String :=
  match own, other with
  | some p, _ => p.display
  | none, some p => p.displayWith remark
  | none, none => ""

/-- The row of a name. -/
def row (differences : List Difference) (source target : TypeText) (name : String) : AlignedRow :=
  let s := Property.get? source.properties name
  let t := Property.get? target.properties name
  { property := name
    sourceDisplay := sideDisplay s t "(missing)"
    targetDisplay := sideDisplay t s "(extra)"
    status := status differences name s t }

/-- The types written by two texts, side by side. -/
def between (source target : String) : Alignment :=
  match TypeText.ofString source, TypeText.ofString target with
  | .primitive s, .primitive t => .primitive s t (s == t)
  | s, t => .object ((s.unionNames t).map (row (Difference.ofTypes source target s t) s t))

end Alignment

end Diagnosis
