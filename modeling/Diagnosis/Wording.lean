import Diagnosis.Text.Digit
import Diagnosis.Text.Blank

/-!
# Wordings

A wording is the text of a message with gaps for the names, types and counts that it mentions. It
is a sequence of pieces, and it is read from left to right without going back: a piece that accepts
a run of characters takes all it can get. In the wordings of diagnostics this loses no match. What
comes after a run begins with a character that the run does not accept; only blanks may be followed
by a field that accepts blanks too, and there a line, which does not end in a blank, has more to
give.

A wording is looked for anywhere in a line, and the first place where it can be read decides.
-/

namespace Diagnosis

/-- Whether a character is a quotation mark. -/
def isQuote (c : Char) : Bool := c == '\'' || c == '"'

/-- A piece of a wording. -/
inductive Piece where
  /-- Exactly these characters. -/
  | exactly (text : List Char)
  /-- A quotation mark, single or double. -/
  | quote
  /-- A run of characters of a class, which may be empty and is not kept. -/
  | skip (accepts : Char → Bool)
  /-- A run of characters of a class, which is not empty and is kept as a field. -/
  | field (accepts : Char → Bool)

namespace Piece

/-- The piece that is read as exactly the characters of a string. -/
def ofString (s : String) : Piece := exactly s.toList

/-- Reads a piece at the start of a text: the field that it keeps, if it keeps one, and the rest. -/
def read? : Piece → List Char → Option (List String × List Char)
  | exactly text, cs => (text.isPrefixOf? cs).map fun rest => ([], rest)
  | quote, c :: rest => if isQuote c then some ([], rest) else none
  | quote, [] => none
  | skip accepts, cs => some ([], cs.dropWhile accepts)
  | field accepts, cs =>
    match cs.takeWhile accepts with
    | [] => none
    | run => some ([String.ofList run], cs.dropWhile accepts)

end Piece

/-- What fills the gaps of a message, in the order of the gaps. -/
abbrev Fields := List String

namespace Fields

/-- The field at a position; it is empty if there is none. -/
def text (fields : Fields) (i : Nat) : String := fields.getD i ""

/-- The count at a position. -/
def count (fields : Fields) (i : Nat) : UInt32 := Text.countOfDigits (fields.text i).toList

end Fields

/-- A message with gaps. -/
abbrev Wording := List Piece

namespace Wording

/-- A text that is part of every message of the wording. -/
def text (s : String) : Wording := [.ofString s]

/-- A field between quotation marks. -/
def quoted : Wording := [.quote, .field fun c => !isQuote c, .quote]

/-- A given word between quotation marks. -/
def quotedWord (s : String) : Wording := [.quote, .ofString s, .quote]

/-- A field of decimal digits. -/
def digits : Wording := [.field Text.isDecimalDigit]

/-- A field of everything up to a character. -/
def upTo (stop : Char) : Wording := [.field (· != stop)]

/-- Reads a wording at the start of a text: its fields and the rest. -/
def read? : Wording → List Char → Option (Fields × List Char)
  | [], cs => some ([], cs)
  | piece :: rest, cs =>
    match piece.read? cs with
    | some (fields, cs) => (read? rest cs).map fun r => (fields ++ r.1, r.2)
    | none => none

/-- Two wordings are read one after the other. -/
theorem read?_append (first second : Wording) (cs : List Char) :
    read? (first ++ second) cs =
      (read? first cs).bind fun r => (read? second r.2).map fun q => (r.1 ++ q.1, q.2) := by
  induction first generalizing cs with
  | nil => simp [read?]
  | cons piece rest ih =>
    simp only [List.cons_append, read?]
    cases piece.read? cs with
    | none => rfl
    | some r =>
      simp only [ih, Option.map_bind, Option.bind_map]
      congr 1
      funext q
      simp [Function.comp_def]

/-- The fields of the first of several wordings that stands at the start of a text. -/
def readAny? (wordings : List Wording) (cs : List Char) : Option Fields :=
  wordings.findSome? fun w => (w.read? cs).map Prod.fst

/-- The fields of the leftmost place in a text where one of several wordings stands. -/
def find? (wordings : List Wording) : List Char → Option Fields
  | [] => readAny? wordings []
  | c :: rest =>
    match readAny? wordings (c :: rest) with
    | some fields => some fields
    | none => find? wordings rest

end Wording

end Diagnosis
