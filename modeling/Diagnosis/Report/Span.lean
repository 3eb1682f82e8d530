/-!
# Coloured text

The lines of a report are made of spans, parts with one tone each. When colours are on, a span with
a tone is written between the control sequence that turns the tone on and the one that turns it off,
even if it is empty; when they are off, only its text is written.
-/

namespace Diagnosis

/-- What the colour of a text means. -/
inductive Tone where
  /-- What is wrong, in red. -/
  | error
  /-- What is doubtful, in yellow. -/
  | warning
  /-- What is right, in green. -/
  | correct
  /-- Advice, in cyan. -/
  | help
  /-- What is beside the point, dimmed. -/
  | muted
  deriving DecidableEq

namespace Tone

/-- The sequence that turns a tone on. -/
def opening : Tone → List Char
  | error => "\x1b[31m".toList
  | warning => "\x1b[33m".toList
  | correct => "\x1b[32m".toList
  | help => "\x1b[36m".toList
  | muted => "\x1b[2m".toList

/-- The sequence that turns a tone off. -/
def closing : Tone → List Char
  | muted => "\x1b[0m".toList
  | _ => "\x1b[39m".toList

end Tone

/-- A part of a line. -/
structure Span where
  /-- The text. -/
  text : String
  /-- The tone of the text, if it has one. -/
  tone : Option Tone := none
  deriving DecidableEq

namespace Span

/-- A text without a tone. -/
def plain (s : String) : Span := { text := s }

/-- A text with a tone. -/
def toned (tone : Tone) (s : String) : Span := { text := s, tone := some tone }

/-- A span as it is written with or without colours. -/
def write (colored : Bool) (span : Span) : List Char :=
  match colored, span.tone with
  | true, some tone => tone.opening ++ span.text.toList ++ tone.closing
  | _, _ => span.text.toList

/-- A line as it is written with or without colours, with its end. -/
def writeLine (colored : Bool) (line : List Span) : List Char :=
  line.flatMap (write colored) ++ ['\n']

/-- Lines as they are written with or without colours. -/
def writeLines (colored : Bool) (lines : List (List Span)) : String :=
  String.ofList (lines.flatMap (writeLine colored))

/-- Without colours, spans with the same texts are written alike. -/
theorem write_false (span : Span) : span.write false = span.text.toList := by
  cases span; rfl

/-- Without colours, lines are written as their texts, each with its end. -/
theorem writeLines_false (lines : List (List Span)) :
    writeLines false lines =
      String.join (lines.map fun line => String.join (line.map Span.text) ++ "\n") := by
  have hspans (line : List Span) :
      line.flatMap (write false) = line.flatMap fun span => span.text.toList :=
    congrArg (line.flatMap ·) (funext write_false)
  rw [← String.toList_inj, writeLines, String.toList_ofList, String.toList_join, List.flatMap_map]
  refine congrArg (lines.flatMap ·) (funext fun line => ?_)
  rw [writeLine, hspans, String.toList_append, String.toList_join, List.flatMap_map]
  rfl

/-- Lines are written one after the other. -/
theorem toList_writeLines_append (colored : Bool) (first second : List (List Span)) :
    (writeLines colored (first ++ second)).toList =
      (writeLines colored first).toList ++ (writeLines colored second).toList := by
  simp [writeLines]

end Span

end Diagnosis
