/-!
# Blank characters

Text is cut into lines, fields and words at blanks, and a blank is a character with the Unicode
property White_Space. The property holds of the control characters tab to carriage return, of the
spaces and of the line and paragraph separators, but of no zero-width character.

Here are the class itself, the removal of blanks at the ends of a text, and the count of blanks in
front of it, which is its indentation.
-/

namespace Diagnosis.Text

/-- The code points with the property White_Space, as ranges with both ends included. -/
def blankRanges : List (Nat × Nat) :=
  [(0x09, 0x0D), (0x20, 0x20), (0x85, 0x85), (0xA0, 0xA0), (0x1680, 0x1680), (0x2000, 0x200A),
    (0x2028, 0x2029), (0x202F, 0x202F), (0x205F, 0x205F), (0x3000, 0x3000)]

/-- Whether a character is a blank. -/
def isBlank (c : Char) : Bool :=
  blankRanges.any fun r => decide (r.1 ≤ c.toNat) && decide (c.toNat ≤ r.2)

/-- The blanks of ASCII are blanks. -/
theorem isBlank_of_isWhitespace {c : Char} (h : c.isWhitespace = true) : isBlank c = true := by
  simp only [Char.isWhitespace, Bool.or_eq_true, decide_eq_true_eq] at h
  rcases h with ((rfl | rfl) | rfl) | rfl <;> decide

/-! ## Blanks at the ends of a text -/

/-- The text without the blanks in front. -/
def stripLeft (cs : List Char) : List Char := cs.dropWhile isBlank

/-- The text without the blanks at its end. -/
def stripRight (cs : List Char) : List Char := (stripLeft cs.reverse).reverse

/-- The text without the blanks at both ends. -/
def strip (cs : List Char) : List Char := stripRight (stripLeft cs)

/-- The text without the blanks at both ends. -/
def trim (s : String) : String := String.ofList (strip s.toList)

/-- The number of blanks in front of a text. -/
def indentation (cs : List Char) : Nat := (cs.takeWhile isBlank).length

@[simp] theorem strip_nil : strip [] = [] := rfl

@[simp] theorem toList_trim (s : String) : (trim s).toList = strip s.toList := by simp [trim]

/-- A text splits into its indentation and the rest. -/
theorem length_stripLeft (cs : List Char) : indentation cs + (stripLeft cs).length = cs.length := by
  rw [indentation, stripLeft, ← List.length_append, List.takeWhile_append_dropWhile]

end Diagnosis.Text
