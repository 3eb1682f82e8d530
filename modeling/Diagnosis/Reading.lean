import Diagnosis.Nesting
import Diagnosis.Record
import Diagnosis.Shape.Rule
import Diagnosis.Text.Lines

/-!
# Reading a diagnostic

A diagnostic is read line by line, and each line is tried for every shape in turn. A line that has a
shape contributes what the shape's rule says, unless it has the shape that takes precedence as well.
A property that a line enters is on the path from there on, also for the shapes that the same line
is tried for later.

Reading yields events, the problems and the suggestions in the order in which they were met. A
suggestion then goes to the last problem before it and replaces the suggestion that the problem may
have had; a suggestion before the first problem is lost.
-/

namespace Diagnosis

/-- What reading meets. -/
inductive Event where
  /-- A problem. -/
  | record (r : Record)
  /-- A name that is suggested. -/
  | suggestion (name : String)
  deriving DecidableEq

/-- The record of a finding on a line with the given nesting. -/
def Finding.record (scope : Scope) (nesting : Nesting) (finding : Finding) : Record :=
  let place := match scope with
    | .current => nesting.path
    | .root => []
  { path := place ++ finding.property.toList, problem := finding.problem }

namespace Nesting

/-- Adds a contribution of a line: the nesting from there on and the events. -/
def contribute (nesting : Nesting) (indent : Nat) (scope : Scope) :
    Contribution → Nesting × List Event
  | .enter property => (nesting.enter indent property, [])
  | .report findings => (nesting, findings.map fun f => .record (f.record scope nesting))
  | .suggest name => (nesting, [.suggestion name])

/-- Tries a line for shapes, given the shapes that it is known to have. -/
def readShapes (line : Text.Line) : List Shape → List Shape → Nesting → Nesting × List Event
  | [], _, nesting => (nesting, [])
  | shape :: rest, matched, nesting =>
    match shape.fields? line.text with
    | none => readShapes line rest matched nesting
    | some fields =>
      let rule := shape.rule
      let matched := shape :: matched
      if rule.unless?.any matched.contains then readShapes line rest matched nesting
      else
        let here := nesting.contribute line.indent rule.scope (rule.contribution fields)
        let later := readShapes line rest matched here.1
        (later.1, here.2 ++ later.2)

/-- Reads a line: the nesting after it and its events. -/
def readLine (nesting : Nesting) (line : Text.Line) : Nesting × List Event :=
  readShapes line Shape.all [] (nesting.atIndent line.indent)

/-- Reads lines: the nesting after them and their events. -/
def readLines : Nesting → List Text.Line → Nesting × List Event
  | nesting, [] => (nesting, [])
  | nesting, line :: rest =>
    let here := nesting.readLine line
    let later := readLines here.1 rest
    (later.1, here.2 ++ later.2)

/-- Lines are read one part after the other, the second part in the nesting that the first one
leaves. -/
theorem readLines_append (nesting : Nesting) (first second : List Text.Line) :
    nesting.readLines (first ++ second) =
      ((readLines (nesting.readLines first).1 second).1,
        (nesting.readLines first).2 ++ (readLines (nesting.readLines first).1 second).2) := by
  induction first generalizing nesting with
  | nil => rfl
  | cons line rest ih => simp [readLines, ih]

end Nesting

/-! ## Suggestions -/

/-- Adds an event to the records so far, the newest of which comes first. -/
def Event.attach (records : List Record) : Event → List Record
  | .record r => r :: records
  | .suggestion name =>
    match records with
    | [] => []
    | last :: earlier => { last with suggestion := some name } :: earlier

namespace Record

/-- The records of events, each with the last suggestion that was met before the next problem. -/
def ofEvents (events : List Event) : List Record := (events.foldl Event.attach []).reverse

/-- The records of a diagnostic. -/
def ofText (mode : PathMode) (text : String) : List Record :=
  ofEvents (Nesting.readLines { mode := mode } (Text.lines text.toList)).2

end Record

end Diagnosis
