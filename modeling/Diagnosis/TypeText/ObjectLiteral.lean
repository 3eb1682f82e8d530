import Diagnosis.Text.Pieces
import Diagnosis.TypeText.Object

/-!
# Reading an object literal type

The text `{ name: type; name?: type }` is read in one pass from left to right. A colon ends a name
and a semicolon ends a property, but only where the brackets that were opened and closed so far
balance: the types of the properties are not read any further, they stay text with all that they
hold inside brackets.

Brackets of all kinds are counted alike, and nothing demands that they match. The count may fall
below zero (the `>` of an arrow closes a bracket that nothing opened), and then no colon and no
semicolon counts until it is back at zero; at the end of the text what was read last is a property
if it has both a name and a type.
-/

namespace Diagnosis

/-- What stands before the colon of a property. -/
structure Label where
  /-- The name. -/
  name : String
  /-- Whether the label ends in the mark of an optional property. -/
  optional : Bool
  deriving DecidableEq

/-- The label written by a text. The name leaves out the first question mark, wherever it is. -/
def Label.ofText (cs : List Char) : Label :=
  let raw := Text.strip cs
  ⟨String.ofList (raw.erase '?'), raw.getLast? == some '?'⟩

namespace ObjectLiteral

/-- How a character changes the depth of brackets. -/
def bracketStep : Char → Int
  | '{' | '[' | '(' | '<' => 1
  | '}' | ']' | ')' | '>' => -1
  | _ => 0

/-- What is known after a part of an object literal's body has been read. -/
structure Reader where
  /-- The properties that are complete. -/
  object : ObjectType := .empty
  /-- Brackets opened less brackets closed. The count has no bound here; texts with 2^31 or more
  unbalanced brackets, for which 32 bits are too few, are left out. -/
  depth : Int := 0
  /-- The label of the current property, once its colon has been read. -/
  label : Option Label := none
  /-- What was read after the last colon or semicolon that counts, the newest character first. -/
  pending : List Char := []

namespace Reader

/-- The type of the current property as far as it has been read. -/
def value (r : Reader) : String := String.ofList (Text.strip r.pending.reverse)

/-- The properties with the current one, provided that it has a name. -/
def withCurrent (r : Reader) : ObjectType :=
  match r.label with
  | some label =>
    if label.name.isEmpty then r.object else r.object.insert ⟨label.name, label.optional, r.value⟩
  | none => r.object

/-- Reads one character. -/
def step (r : Reader) (c : Char) : Reader :=
  let depth := r.depth + bracketStep c
  if depth == 0 && c == ':' && r.label.isNone then
    { r with depth := depth, label := some (Label.ofText r.pending.reverse), pending := [] }
  else if depth == 0 && c == ';' then
    { object := r.withCurrent, depth := depth, label := none, pending := [] }
  else
    { r with depth := depth, pending := c :: r.pending }

/-- The properties once the body has been read. A last property without a type is left out. -/
def finish (r : Reader) : ObjectType := if r.value.isEmpty then r.object else r.withCurrent

end Reader

/-- The body of an object literal: the text without blanks at its ends and then without a brace at
either end. -/
def body (cs : List Char) : List Char :=
  let opened := match Text.strip cs with
    | '{' :: rest => rest
    | rest => rest
  if opened.getLast? == some '}' then opened.dropLast else opened

/-- The object type written by an object literal. -/
def read (cs : List Char) : ObjectType := ((body cs).foldl Reader.step {}).finish

end ObjectLiteral

end Diagnosis
