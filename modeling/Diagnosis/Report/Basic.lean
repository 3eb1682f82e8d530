import Diagnosis.Analysis
import Diagnosis.Explanation.Hint
import Diagnosis.Explanation.Title
import Diagnosis.Report.Options
import Diagnosis.Report.SideBySide

/-!
# Reports

A report is the text that shows an analysis to a person. It has up to three parts: the problems, or
the remark that there are none; the advice to wrap an object in an array, if that mends mismatches;
and the text itself with its indentation made visible.

Every part is a list of lines, and every line ends in a line feed.
-/

namespace Diagnosis.Report

open Diagnosis.Span

/-! ## Problems -/

/-- The lines of an analysis without problems. -/
def emptyLines (a : Analysis) : List (List Span) :=
  [toned .warning "No problems recognized."] ::
    if a.errorCodes.isEmpty then [] else [[plain ("codes: " ++ commaList a.errorCodes)]]

/-- The number of problems and the error codes. -/
def heading (a : Analysis) : String :=
  let noun := if a.problems.length = 1 then "problem" else "problems"
  let codes := if a.errorCodes.isEmpty then "" else " [" ++ commaList a.errorCodes ++ "]"
  "Found " ++ a.problems.length.repr ++ " " ++ noun ++ codes

/-- The lines above the blocks of the problems. -/
def headingLines (a : Analysis) : List (List Span) :=
  [toned .error (heading a)] ::
    if a.isArrayObjectMismatch then
      [[toned .warning "⚠", plain " ",
        toned .warning "an object was given where an array is expected"]]
    else []

/-- The lines that say what a problem is. -/
def detailLines (options : Options) (p : Problem) : List (List Span) :=
  match p.mismatch?, options.aligned with
  | some m, true => SideBySide.lines m.sourceType m.targetType
  | _, _ => [[plain "   ", plain p.detail]]

/-- The block of a problem. -/
def block (options : Options) (arrayExpected : Bool) (number : Nat) (r : Record) :
    List (List Span) :=
  let title := [plain (number.repr ++ ". "), toned .error (r.problem.title arrayExpected)]
  let place :=
    if r.path.isEmpty then []
    else [[plain "   ", toned .muted "at:", plain " ", plain (" → ".intercalate r.path)]]
  let hint :=
    if options.hints then [[plain "   ", toned .help "help:", plain " ", plain r.hint]] else []
  title :: place ++ detailLines options r.problem ++ hint

/-- The line of a problem in a short report. -/
def shortLine (arrayExpected : Bool) (number : Nat) (r : Record) : List Span :=
  let place := if r.path.isEmpty then "" else "[" ++ r.dottedPath ++ "] "
  let text := place ++ r.problem.title arrayExpected ++ ": " ++ r.problem.detail
  [plain (number.repr ++ ". " ++ text)]

/-- The lines of the problems, counted from one. -/
def problemLines (options : Options) (a : Analysis) : List (List Span) :=
  let numbered := a.problems.zipIdx 1
  match options.style with
  | .rich =>
    headingLines a ++
      numbered.flatMap fun (r, number) => [] :: block options a.isArrayObjectMismatch number r
  | .short => numbered.map fun (r, number) => shortLine a.isArrayObjectMismatch number r

/-! ## Advice -/

/-- The records of type mismatches that an array would mend. -/
def arrayMismatches (a : Analysis) : List Record :=
  a.problems.filter fun r => r.problem.mismatch?.any TypeMismatch.isArrayMismatch

/-- The properties whose values belong into an array. Where none is known, `data` stands for it. -/
def arrayProperties (a : Analysis) : List String :=
  match distinct ((arrayMismatches a).filterMap fun r => r.path.getLast?) with
  | [] => ["data"]
  | properties => properties

/-- The lines of the advice to wrap an object in an array, if it applies. -/
def arrayAdvice (a : Analysis) : List (List Span) :=
  if (arrayMismatches a).isEmpty && !a.isArrayObjectMismatch then []
  else
    [[], [toned .help "fix:", plain " wrap the object in an array"]] ++
      (arrayProperties a).map fun property =>
        [plain "   ", toned .error (property ++ ": \x7b ... \x7d"), plain " → ",
          toned .correct (property ++ ": [\x7b ... \x7d]")]

/-! ## The text itself -/

/-- The lines of a text as a report shows them. -/
def textLines (text : String) : List Text.Line :=
  (Text.printedLines text.toList).filterMap Text.Line.ofPiece?

/-- A line of the text, with a guide for every two blanks of its indentation. -/
def traceLine (line : Text.Line) : List Span :=
  let guides := (List.replicate (line.indent / 2) "│ ".toList).flatten
  [plain "   ", toned .muted (String.ofList guides), plain (String.ofList line.text)]

/-- The lines that show the text itself. -/
def traceLines (a : Analysis) : List (List Span) :=
  [[], [toned .muted "error trace:"]] ++ (textLines a.text).map traceLine

/-! ## The whole report -/

/-- The lines of a report. -/
def lines (options : Options) (a : Analysis) : List (List Span) :=
  let advice := if options.hints then arrayAdvice a else []
  let trace := if options.trace then traceLines a else []
  if a.problems.isEmpty then emptyLines a ++ trace
  else problemLines options a ++ advice ++ trace

end Report

/-- The report on an analysis. -/
def Analysis.render (a : Analysis) (options : Options) : String :=
  Span.writeLines options.colored (Report.lines options a)

/-- The report on an analysis as plain text, without a line end at its end. -/
def Analysis.display (a : Analysis) : String :=
  String.ofList (Text.stripRight (a.render .plain).toList)

end Diagnosis
