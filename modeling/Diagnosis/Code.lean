import Diagnosis.Distinct
import Diagnosis.Text.Digit

/-!
# Error codes

The compiler numbers its diagnostics: a code is `TS` with four decimal digits after it. Codes are
looked for from left to right, and the characters of one code are not part of another.
-/

namespace Diagnosis.Code

/-- The code at the start of a text. -/
def here? : List Char → Option String
  | 'T' :: 'S' :: a :: b :: c :: d :: _ =>
    if [a, b, c, d].all Text.isDecimalDigit then some (String.ofList ['T', 'S', a, b, c, d])
    else none
  | _ => none

/-- The codes in a text, from left to right, once a number of characters have been passed over. -/
def occurrences : Nat → List Char → List String
  | _, [] => []
  | skip + 1, _ :: rest => occurrences skip rest
  | 0, c :: rest =>
    match here? (c :: rest) with
    | some code => code :: occurrences 5 rest
    | none => occurrences 0 rest

/-- The codes in a text, without repetitions, in the order of their first occurrence. -/
def ofText (s : String) : List String := distinct (occurrences 0 s.toList)

end Diagnosis.Code
