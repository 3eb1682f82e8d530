import Diagnosis.Failure
import Diagnosis.Text.Blank

/-!
# Path modes

Lines of a diagnostic may enter nested properties. The path mode says how long a property stays
entered: for the rest of the text, or as long as the lines are indented deeper than the one that
entered it.
-/

namespace Diagnosis

/-- How long a property stays on the path. -/
inductive PathMode where
  /-- A property stays on the path for the rest of the text. -/
  | monotonic
  /-- A property stays on the path until a line that is not blank is indented no deeper than the
  line that entered it. -/
  | indented
  deriving DecidableEq

namespace PathMode

/-- The name of a path mode. -/
def name : PathMode → String
  | monotonic => "monotonic"
  | indented => "indented"

/-- The path mode of a name. Blanks at the ends of the name do not count, nor does the case of its
ASCII letters. -/
def ofName (s : String) : Except Failure PathMode :=
  let key := (Text.strip s.toList).map Char.toLower
  if key = monotonic.name.toList then .ok monotonic
  else if key = indented.name.toList then .ok indented
  else .error (.unknownPathMode s)

/-- The path mode of a path mode's name is the path mode itself. -/
theorem ofName_name (mode : PathMode) : ofName mode.name = .ok mode := by
  cases mode <;> rfl

end PathMode

end Diagnosis
