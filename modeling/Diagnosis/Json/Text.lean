import Diagnosis.Json.Basic

/-!
# The text of a JSON value

A JSON value is written on one line or spread over indented lines. Both texts follow the same rules
and differ in two things, the break before each element or member and the text between the key of a
member and its value. An array or object without elements has no break.

In a string, quotation marks, backslashes and the control characters of ASCII are escaped, five of
the latter by a letter and the others by four hexadecimal digits, and all other characters are
written as they are.
-/

namespace Diagnosis.Json

/-! ## Strings -/

/-- The hexadecimal digit of a number below 16. -/
def hexDigit (n : Nat) : Char := Nat.digitChar n

/-- A character as it is written in a string. -/
def escaped (c : Char) : List Char :=
  if c = '"' then ['\\', '"']
  else if c = '\\' then ['\\', '\\']
  else if c = '\n' then ['\\', 'n']
  else if c = '\r' then ['\\', 'r']
  else if c = '\t' then ['\\', 't']
  else if c = '\x08' then ['\\', 'b']
  else if c = '\x0c' then ['\\', 'f']
  else if c.toNat < 32 then ['\\', 'u', '0', '0', hexDigit (c.toNat / 16), hexDigit (c.toNat % 16)]
  else [c]

/-- A string between its quotation marks. -/
def quoted (s : String) : List Char := '"' :: s.toList.flatMap escaped ++ ['"']

/-! ## Values -/

/-- How the text of a value is spread over lines. -/
structure Layout where
  /-- The text before an element at some depth. -/
  lineBreak : Nat → List Char
  /-- The text between the key of a member and its value. -/
  colon : List Char

/-- Everything on one line and without blanks. -/
def Layout.compact : Layout where
  lineBreak := fun _ => []
  colon := [':']

/-- A line for each element, indented by two spaces for each level of depth. -/
def Layout.indented : Layout where
  lineBreak := fun depth => '\n' :: List.replicate (2 * depth) ' '
  colon := [':', ' ']

/-- Items between brackets at some depth. -/
def bracketed (layout : Layout) (depth : Nat) (opening closing : Char) :
    List (List Char) → List Char
  | [] => [opening, closing]
  | items =>
    opening :: [','].intercalate (items.map fun item => layout.lineBreak (depth + 1) ++ item)
      ++ layout.lineBreak depth ++ [closing]

mutual

/-- The text of a value at some depth. -/
def write (layout : Layout) (depth : Nat) : Json → List Char
  | null => ['n', 'u', 'l', 'l']
  | bool true => ['t', 'r', 'u', 'e']
  | bool false => ['f', 'a', 'l', 's', 'e']
  | num n => Nat.toDigits 10 n
  | str s => quoted s
  | arr elements => bracketed layout depth '[' ']' (writeElements layout (depth + 1) elements)
  | obj members => bracketed layout depth '{' '}' (writeMembers layout (depth + 1) members)

/-- The texts of values at some depth. -/
def writeElements (layout : Layout) (depth : Nat) : List Json → List (List Char)
  | [] => []
  | value :: rest => write layout depth value :: writeElements layout depth rest

/-- The texts of members at some depth. -/
def writeMembers (layout : Layout) (depth : Nat) : List (String × Json) → List (List Char)
  | [] => []
  | (key, value) :: rest =>
    (quoted key ++ layout.colon ++ write layout depth value) :: writeMembers layout depth rest

end

/-- The text of a value on one line. -/
def compact (value : Json) : String := String.ofList (write .compact 0 value)

/-- The text of a value on indented lines. -/
def pretty (value : Json) : String := String.ofList (write .indented 0 value)

end Diagnosis.Json
