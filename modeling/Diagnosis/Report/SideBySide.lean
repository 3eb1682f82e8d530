import Diagnosis.Report.Span
import Diagnosis.TypeText.Alignment

/-!
# The types of a mismatch side by side

Two types that are not object types are shown below each other, each with a summary of it if that
says more than the type itself. If one of the types is an object type, their properties are shown in
two columns, of which the left one is as wide as the widest entry in it, its heading included.
-/

namespace Diagnosis

/-- The tone of a row. -/
def RowStatus.tone : RowStatus → Tone
  | ok => .muted
  | valueMismatch | extraInSource => .error
  | missingInSource => .warning

/-- The mark in front of a row. -/
def RowStatus.mark : RowStatus → String
  | ok => " "
  | valueMismatch => "~"
  | missingInSource => "-"
  | extraInSource => "+"

namespace SideBySide

open Diagnosis.Span

/-- The summary of a type in parentheses, or nothing if it is the type itself. -/
def summaryRemark (type : String) : String :=
  let summary := TypeText.summary type
  if summary = Text.trim type then "" else " (" ++ summary ++ ")"

/-- Blanks that fill up a text to a width. -/
def padding (width : Nat) (text : String) : String :=
  String.ofList (List.replicate (width - text.length) ' ')

/-- The lines of two types that are not object types. -/
def typeLines (source target : String) : List (List Span) :=
  [[plain "   ", toned .muted "┌─", plain " ", toned .muted "actual:  ", plain " ",
      toned .error source, toned .muted (summaryRemark source)],
    [plain "   ", toned .muted "└─", plain " ", toned .muted "expected:", plain " ",
      toned .correct target, toned .muted (summaryRemark target)]]

/-- The width of the left column under a heading. -/
def columnWidth (heading : String) (rows : List AlignedRow) : Nat :=
  rows.foldl (fun width row => Nat.max width row.sourceDisplay.length) heading.length

/-- The headings of the two columns. -/
def headingLine (width : Nat) (sourceHeading targetHeading : String) : List Span :=
  [plain "   ", toned .muted "┌─", plain "  ", plain sourceHeading,
    plain (padding width sourceHeading), plain " ", toned .muted "│", plain " ",
    plain targetHeading]

/-- The line of a row. -/
def rowLine (width : Nat) (row : AlignedRow) : List Span :=
  [plain "   ", toned .muted "│", plain " ", toned row.status.tone row.status.mark, plain " ",
    toned row.status.tone row.sourceDisplay, plain (padding width row.sourceDisplay), plain " ",
    toned .muted "│", plain " ", toned .correct row.targetDisplay]

/-- The lines of two columns. -/
def columnLines (sourceHeading targetHeading : String) (rows : List AlignedRow) :
    List (List Span) :=
  let width := columnWidth sourceHeading rows
  headingLine width sourceHeading targetHeading :: rows.map (rowLine width)
    ++ [[plain "   ", toned .muted "└─"]]

/-- The lines that show two types. -/
def lines (source target : String) : List (List Span) :=
  match Alignment.between source target with
  | .primitive source target _ => typeLines source target
  | .object rows =>
    columnLines ("actual (" ++ TypeText.summary source ++ ")")
      ("expected (" ++ TypeText.summary target ++ ")") rows

end SideBySide

end Diagnosis
