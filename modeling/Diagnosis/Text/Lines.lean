import Diagnosis.Text.Pieces

/-!
# Lines

A diagnostic is read line by line. A line ends at a line feed, blank lines carry nothing, and of
every other line two things matter: how far it is indented and the text that remains without the
blanks at both ends.

Printed text has a second notion of line, in which a carriage return right before the line feed
belongs to the line's end and a final line end opens no further line.
-/

namespace Diagnosis.Text

/-- A line that is not blank. -/
structure Line where
  /-- The number of blanks in front of the text. -/
  indent : Nat
  /-- The text without the blanks at both ends. -/
  text : List Char
  deriving Repr, DecidableEq

/-- The line held by a piece of text, or nothing if the piece is blank. -/
def Line.ofPiece? (piece : List Char) : Option Line :=
  match strip piece with
  | [] => none
  | text => some ⟨indentation piece, text⟩

theorem Line.text_of_ofPiece? {piece : List Char} {line : Line} (h : ofPiece? piece = some line) :
    line.text = strip piece := by
  rw [ofPiece?] at h
  split at h
  · cases h
  · cases h
    rfl

/-- The lines of a text that ends its lines at line feeds, without the blank ones. -/
def lines (cs : List Char) : List Line := (cutAt (· == '\n') cs).filterMap Line.ofPiece?

/-- Two texts on lines of their own have the lines of the one and then those of the other. -/
theorem lines_append (a b : List Char) : lines (a ++ '\n' :: b) = lines a ++ lines b := by
  simp [lines, cutAt_append_cons]

/-! ## Printed lines -/

/-- Puts a character in front of the first line; a text without lines gets one. -/
def consLine (c : Char) : List (List Char) → List (List Char)
  | [] => [[c]]
  | line :: rest => (c :: line) :: rest

/-- The lines of a text that ends its lines at `\n` or `\r\n`. An end at the very end of the text
opens no further line. -/
def printedLines : List Char → List (List Char)
  | [] => []
  | '\n' :: rest => [] :: printedLines rest
  | '\r' :: '\n' :: rest => [] :: printedLines rest
  | c :: rest => consLine c (printedLines rest)

end Diagnosis.Text
