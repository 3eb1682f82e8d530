import Diagnosis.PathMode

/-!
# Nesting

While a diagnostic is read, the nested properties that have been entered are kept with the
indentation of the lines that entered them, the innermost first. In the indented mode a line leaves
the properties that do not enclose it, from the innermost outwards.
-/

namespace Diagnosis

/-- A property that has been entered. -/
structure Segment where
  /-- The indentation of the line that entered it. -/
  depth : Nat
  /-- The name of the property. -/
  property : String
  deriving DecidableEq

/-- The nested properties at some place of a diagnostic. -/
structure Nesting where
  /-- How long a property stays entered. -/
  mode : PathMode
  /-- The properties that have been entered, the innermost first. -/
  segments : List Segment := []
  deriving DecidableEq

namespace Nesting

/-- The nesting at a line with the given indentation. -/
def atIndent (n : Nesting) (indent : Nat) : Nesting :=
  match n.mode with
  | .monotonic => n
  | .indented => { n with segments := n.segments.dropWhile fun s => decide (indent ≤ s.depth) }

/-- The nesting after a line with the given indentation has entered a property. -/
def enter (n : Nesting) (indent : Nat) (property : String) : Nesting :=
  { n with segments := ⟨indent, property⟩ :: n.segments }

/-- The names of the properties, the outermost first. -/
def path (n : Nesting) : List String := (n.segments.map Segment.property).reverse

/-- A property that is entered comes last on the path. -/
theorem path_enter (n : Nesting) (indent : Nat) (property : String) :
    (n.enter indent property).path = n.path ++ [property] := by
  simp [path, enter]

/-- The nesting at a line in the monotonic mode is the nesting before it. -/
theorem atIndent_monotonic (segments : List Segment) (indent : Nat) :
    atIndent ⟨.monotonic, segments⟩ indent = ⟨.monotonic, segments⟩ := rfl

end Nesting

end Diagnosis
