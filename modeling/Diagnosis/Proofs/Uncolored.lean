import Diagnosis.Report.Span
import Mathlib.Data.List.Basic

/-!
# Taking the colours off a text

Colours are control sequences between the characters of a text. Taking them off means to remove the
sequences from left to right (`Tone.uncolored`). Each sequence opens with the escape character, so a
text without that character is left as it is, and what was written with colours becomes what is
written without them (`Span.uncolored_writeLines`).
-/

namespace Diagnosis

/-- A text without the occurrences of some parts. They are removed from left to right, once a number
of characters have been passed over. -/
def Text.removeParts (parts : List (List Char)) : Nat → List Char → List Char
  | _, [] => []
  | skip + 1, _ :: rest => removeParts parts skip rest
  | 0, c :: rest =>
    match parts.find? fun part => part.isPrefixOf (c :: rest) with
    | some part => removeParts parts (part.length - 1) rest
    | none => c :: removeParts parts 0 rest

/-- The character that opens every control sequence. -/
def Text.escape : Char := '\x1b'

/-- Whether no control sequence opens in a text. -/
def Text.Unescaped (s : String) : Prop := escape ∉ s.toList

open Text (Unescaped escape removeParts)

namespace Tone

/-- The control sequences of all tones. -/
def sequences : List (List Char) :=
  ["\x1b[31m".toList, "\x1b[32m".toList, "\x1b[33m".toList, "\x1b[36m".toList, "\x1b[39m".toList,
    "\x1b[2m".toList, "\x1b[0m".toList]

/-- A text without the control sequences of tones. -/
def uncolored (cs : List Char) : List Char := removeParts sequences 0 cs

theorem exists_of_mem_sequences {part : List Char} (h : part ∈ sequences) :
    ∃ rest, part = escape :: rest := by
  have hhead : ∀ part ∈ sequences, part.head? = some escape := by decide
  exact List.head?_eq_some_iff.1 (hhead part h)

/-- A text without the escape character stays as it is. -/
theorem uncolored_append_of_not_mem {cs : List Char} (h : escape ∉ cs) (rest : List Char) :
    uncolored (cs ++ rest) = cs ++ uncolored rest := by
  induction cs with
  | nil => rfl
  | cons c cs ih =>
    obtain ⟨hc, hcs⟩ := not_or.1 (mt List.mem_cons.2 h)
    have hnone : (sequences.find? fun part => part.isPrefixOf (c :: (cs ++ rest))) = none := by
      rw [List.find?_eq_none]
      intro part hpart hprefix
      obtain ⟨more, rfl⟩ := exists_of_mem_sequences hpart
      simp [hc] at hprefix
    rw [List.cons_append, uncolored, removeParts, hnone]
    exact congrArg (c :: ·) (ih hcs)

theorem uncolored_opening_append (tone : Tone) (rest : List Char) :
    uncolored (tone.opening ++ rest) = uncolored rest := by
  cases tone <;> rfl

theorem uncolored_closing_append (tone : Tone) (rest : List Char) :
    uncolored (tone.closing ++ rest) = uncolored rest := by
  cases tone <;> rfl

end Tone

namespace Span

open Tone (uncolored uncolored_append_of_not_mem)

/-- Without its colours a coloured span is what is written without colours. -/
theorem uncolored_write_append {span : Span} (h : Unescaped span.text) (rest : List Char) :
    uncolored (span.write true ++ rest) = span.write false ++ uncolored rest := by
  obtain ⟨text, tone⟩ := span
  cases tone with
  | none => exact uncolored_append_of_not_mem h rest
  | some tone =>
    show uncolored (tone.opening ++ text.toList ++ tone.closing ++ rest) =
      text.toList ++ uncolored rest
    rw [List.append_assoc, List.append_assoc, tone.uncolored_opening_append,
      uncolored_append_of_not_mem h, tone.uncolored_closing_append]

theorem uncolored_flatMap_write_append {line : List Span} (h : ∀ span ∈ line, Unescaped span.text)
    (rest : List Char) :
    uncolored (line.flatMap (write true) ++ rest) =
      line.flatMap (write false) ++ uncolored rest := by
  induction line with
  | nil => rfl
  | cons span spans ih =>
    rw [List.flatMap_cons, List.flatMap_cons, List.append_assoc, List.append_assoc,
      uncolored_write_append (h span List.mem_cons_self),
      ih fun span' hspan => h span' (List.mem_cons_of_mem _ hspan)]

theorem uncolored_writeLine_append {line : List Span} (h : ∀ span ∈ line, Unescaped span.text)
    (rest : List Char) :
    uncolored (writeLine true line ++ rest) = writeLine false line ++ uncolored rest := by
  have hend : escape ∉ ['\n'] := by decide
  rw [writeLine, writeLine, List.append_assoc, List.append_assoc, uncolored_flatMap_write_append h,
    uncolored_append_of_not_mem hend]

/-- Without its colours a coloured text is what is written without colours, provided that no span
holds the escape character. -/
theorem uncolored_writeLines {lines : List (List Span)}
    (h : ∀ line ∈ lines, ∀ span ∈ line, Unescaped span.text) :
    uncolored (writeLines true lines).toList = (writeLines false lines).toList := by
  rw [writeLines, writeLines, String.toList_ofList, String.toList_ofList]
  induction lines with
  | nil => rfl
  | cons line rest ih =>
    rw [List.flatMap_cons, List.flatMap_cons, uncolored_writeLine_append (h line List.mem_cons_self),
      ih fun line' hline => h line' (List.mem_cons_of_mem _ hline)]

end Span

end Diagnosis
