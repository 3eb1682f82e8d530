import Diagnosis.PathMode

/-!
# Configuration

An analysis can be told how long nested properties stay on the path and whether repeated reports are
dropped.
-/

namespace Diagnosis

/-- How a text is analysed. -/
structure Config where
  /-- How long nested properties stay on the path. -/
  pathMode : PathMode := .monotonic
  /-- Whether repeated reports are dropped. -/
  dedup : Bool := true
  deriving DecidableEq

/-- The configuration with the settings that are given in the place of its own. The name of a path
mode that does not exist leaves everything as it was. -/
def Config.set (config : Config) (pathMode : Option String) (dedup : Option Bool) :
    Except Failure Config :=
  match pathMode with
  | none => .ok { config with dedup := dedup.getD config.dedup }
  | some name =>
    match PathMode.ofName name with
    | .ok mode => .ok { pathMode := mode, dedup := dedup.getD config.dedup }
    | .error failure => .error failure

end Diagnosis
