/-!
# Options of a report

A report is either rich, with a block for each problem, or short, with a line for each problem. The
options that stand for a whole report are `colored` for a terminal, `plain` for a log and `short`.
-/

namespace Diagnosis

/-- How much is said about each problem. -/
inductive Style where
  /-- A block for each problem. -/
  | rich
  /-- A line for each problem. -/
  | short
  deriving DecidableEq

/-- What a report shows. -/
structure Options where
  /-- Whether texts have colours. -/
  colored : Bool := true
  /-- How much is said about each problem. -/
  style : Style := .rich
  /-- Whether the types of a mismatch are shown side by side. -/
  aligned : Bool := true
  /-- Whether hints are given. -/
  hints : Bool := true
  /-- Whether the text itself is shown at the end. -/
  trace : Bool := false
  deriving DecidableEq

namespace Options

/-- A coloured report with everything but the text itself. -/
def full : Options := {}

/-- The same without colours. -/
def plain : Options := { colored := false }

/-- A line for each problem and nothing more. -/
def short : Options := { style := .short, aligned := false, hints := false }

end Options

end Diagnosis
