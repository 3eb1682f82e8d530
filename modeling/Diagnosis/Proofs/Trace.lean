import Diagnosis.Proofs.Layout
import Diagnosis.Proofs.Parts
import Diagnosis.Proofs.Sighting
import Diagnosis.Report.Basic

/-!
# The trace of a text

The text at the end of a report is shown line by line, and it was read line by line. The two do not
agree on what a line is: a printed line may end at `\r\n` as well, and an end of line at the end of
the text opens no further one. That makes a difference to blanks at the ends of lines and to blank
lines only, and neither count (`Text.filterMap_printedLines`).

So the trace shows just the lines that were read, each with the indentation that decided where it
belongs. Nothing else in a report depends on whether the text is shown (`Analysis.render_trace`).
-/

namespace Diagnosis

open Report (traceLine)
open Diagnosis.Span (plain toned writeLines)

/-! ## Two notions of a line -/

namespace Text

theorem foldr_consLine_cons (front line : List Char) (rest : List (List Char)) :
    front.foldr consLine (line :: rest) = (front ++ line) :: rest := by
  induction front with
  | nil => rfl
  | cons c front ih => rw [List.foldr_cons, ih, consLine, List.cons_append]

theorem foldr_consLine_nil (c : Char) (front : List Char) :
    (c :: front).foldr consLine [] = [c :: front] := by
  induction front generalizing c with
  | nil => rfl
  | cons d front ih => rw [List.foldr_cons, ih, consLine]

/-- The lines that are printed of a text are those that are read, also when the first of them began
before the text. -/
theorem filterMap_foldr_consLine {front : List Char} (hfront : '\n' ∉ front) (cs : List Char) :
    (front.foldr consLine (printedLines cs)).filterMap Line.ofPiece? = lines (front ++ cs) := by
  -- the line that has begun is ended by the first end of line in the text
  have hended {front rest : List Char} (hfront : '\n' ∉ front)
      (hrest : (printedLines rest).filterMap Line.ofPiece? = lines rest) :
      (front.foldr consLine ([] :: printedLines rest)).filterMap Line.ofPiece? =
        lines front ++ lines rest := by
    rw [foldr_consLine_cons, List.append_nil, ← List.singleton_append, List.filterMap_append,
      hrest, lines_of_unbroken hfront]
  induction cs using printedLines.induct generalizing front with
  | case1 =>
    rw [List.append_nil, lines_of_unbroken hfront, printedLines]
    cases front with
    | nil => rfl
    | cons c front => rw [foldr_consLine_nil]
  | case2 rest ih =>
    rw [printedLines, lines_append]
    exact hended hfront (ih List.not_mem_nil)
  | case3 rest ih =>
    have hreturn : lines (front ++ ['\r']) = lines front :=
      lines_append_of_blank (List.forall_mem_singleton.2 (by decide)) front
    rw [printedLines, List.append_cons, lines_append, hreturn]
    exact hended hfront (ih List.not_mem_nil)
  | case4 c rest hfeed hreturn ih =>
    have hgrown : '\n' ∉ front ++ [c] := by
      simp [hfront, Ne.symm hfeed]
    have hprinted : printedLines (c :: rest) = consLine c (printedLines rest) := by
      rw [printedLines]
      · exact hfeed
      · exact hreturn
    rw [hprinted, List.append_cons, ← ih hgrown, List.foldr_append]
    rfl

/-- A report shows the lines of a text as they are read. -/
theorem filterMap_printedLines (cs : List Char) :
    (printedLines cs).filterMap Line.ofPiece? = lines cs :=
  @filterMap_foldr_consLine [] List.not_mem_nil cs

end Text

/-! ## The trace as a part of a report -/

namespace Report

/-- The text of a line in the trace: a guide for every two blanks of its indentation, and the line
without the blanks at its ends. -/
def traceText (line : Text.Line) : String :=
  "   " ++ String.join (List.replicate (line.indent / 2) "│ ") ++ String.ofList line.text

/-- The lines of a report with the trace are those of the report without it and then the trace. -/
theorem lines_trace (options : Options) (a : Analysis) :
    lines { options with trace := true } a =
      lines { options with trace := false } a ++ traceLines a := by
  unfold lines
  by_cases hempty : a.problems.isEmpty = true
  · simp only [hempty, if_true, Bool.false_eq_true, if_false, List.append_nil]
  · simp only [hempty, if_true, Bool.false_eq_true, if_false, List.append_nil]
    rfl

theorem traceLines_eq (a : Analysis) :
    traceLines a =
      [] :: [toned .muted "error trace:"] :: (Text.lines a.text.toList).map traceLine := by
  rw [traceLines, textLines, Text.filterMap_printedLines]
  rfl

theorem join_traceLine (line : Text.Line) :
    String.join ((traceLine line).map Span.text) = traceText line := by
  have hguides : (String.join (List.replicate (line.indent / 2) "│ ")).toList =
      (List.replicate (line.indent / 2) "│ ".toList).flatten := by
    rw [String.toList_join, List.flatMap_def, List.map_replicate]
  rw [← String.toList_inj, traceText, String.toList_append, String.toList_append, hguides]
  simp [traceLine, plain, toned]

/-- Without colours the trace is a heading with the texts of the lines below it. -/
theorem writeLines_trace (ls : List Text.Line) :
    writeLines false ([] :: [toned .muted "error trace:"] :: ls.map traceLine) =
      "\nerror trace:\n" ++ String.join (ls.map fun line => traceText line ++ "\n") := by
  have hlines : (ls.map traceLine).map (fun spans => String.join (spans.map Span.text) ++ "\n") =
      ls.map fun line => traceText line ++ "\n" := by
    rw [List.map_map]
    exact List.map_congr_left fun line _ => congrArg (· ++ "\n") (join_traceLine line)
  rw [Span.writeLines_false, List.map_cons, List.map_cons, hlines, String.join_cons,
    String.join_cons, ← String.append_assoc]
  rfl

theorem newline_not_mem_traceText {line : Text.Line} (h : '\n' ∉ line.text) :
    '\n' ∉ (traceText line).toList := by
  simp [traceText, String.toList_join, h]

end Report

namespace Analysis

open Report (traceText)

theorem render_trace_eq (a : Analysis) (options : Options) :
    a.render { options with trace := true } = a.render { options with trace := false } ++
      writeLines options.colored
        ([] :: [toned .muted "error trace:"] :: (Text.lines a.text.toList).map traceLine) := by
  rw [← String.toList_inj, String.toList_append, render, render, Report.lines_trace,
    Span.toList_writeLines_append, Report.traceLines_eq]

/-- The text of an analysis is shown just as it was read to find the problems. With the trace a
report is the report without it, a blank line, a heading and one line for each line that was read,
in the same order. Without colours these lines are the text of the line that was read behind a guide
for every two blanks of its indentation. -/
theorem render_trace {config : Config} {text : String} {a : Analysis}
    (h : config.analyze text = some a) :
    a.problems = (if config.dedup
      then Record.dedup (Record.ofLines config.pathMode (Text.lines a.text.toList))
      else Record.ofLines config.pathMode (Text.lines a.text.toList)) ∧
    (∀ options : Options,
      a.render { options with trace := true } = a.render { options with trace := false } ++
        writeLines options.colored
          ([] :: [toned .muted "error trace:"] :: (Text.lines a.text.toList).map traceLine)) ∧
    (∀ options : Options, options.colored = false →
      a.render { options with trace := true } = a.render { options with trace := false } ++
        "\nerror trace:\n" ++
          String.join ((Text.lines a.text.toList).map fun line => traceText line ++ "\n")) ∧
    ∀ line ∈ Text.lines a.text.toList, '\n' ∉ (traceText line).toList := by
  obtain ⟨-, hproblems, -⟩ := Config.of_analyze_eq_some h
  refine ⟨hproblems, a.render_trace_eq, fun options hcolored => ?_, fun line hline => ?_⟩
  · rw [a.render_trace_eq, hcolored, Report.writeLines_trace, String.append_assoc]
  · exact Report.newline_not_mem_traceText (Text.newline_not_mem_of_mem_lines hline)

/-- A text with both kinds of line ends, a blank line, an indented line with a bare carriage return
in it, and nothing behind its last line. -/
theorem render_trace_returns :
    ∃ a, analyze "first\r\n \n   second\rhalf" = some a ∧
      a.render { Options.plain with trace := true } =
        a.render Options.plain ++ "\nerror trace:\n   first\n   │ second\rhalf\n" := by
  have htrim : Text.trim "first\r\n \n   second\rhalf" = "first\r\n \n   second\rhalf" := by
    decide +kernel
  obtain ⟨a, ha, htext⟩ := Config.exists_analyze_eq_some {} htrim (by decide)
  have hlines : String.join ((Text.lines a.text.toList).map fun line => traceText line ++ "\n") =
      "   first\n   │ second\rhalf\n" := by
    rw [htext]
    decide +kernel
  refine ⟨a, ha, ?_⟩
  obtain ⟨-, -, hplain, -⟩ := render_trace ha
  have hreport := hplain .plain rfl
  rw [hlines, String.append_assoc] at hreport
  exact hreport

end Analysis

end Diagnosis
