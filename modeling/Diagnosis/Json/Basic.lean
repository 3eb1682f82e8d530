/-!
# JSON values

The values that an analysis is exported as: null, truth values, natural numbers, strings, arrays,
and objects whose members have an order.
-/

namespace Diagnosis

/-- A JSON value. -/
inductive Json where
  /-- The null value. -/
  | null
  /-- A truth value. -/
  | bool (value : Bool)
  /-- A natural number. -/
  | num (value : Nat)
  /-- A string. -/
  | str (value : String)
  /-- An array. -/
  | arr (elements : List Json)
  /-- An object, with its members in order. -/
  | obj (members : List (String × Json))

namespace Json

/-- An array of strings. -/
def strings (values : List String) : Json := arr (values.map str)

/-- A string, or null in the place of one. -/
def ofOption : Option String → Json
  | some value => str value
  | none => null

end Json

end Diagnosis
