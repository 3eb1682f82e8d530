import Diagnosis.Code
import Diagnosis.Config
import Diagnosis.Duplicate
import Diagnosis.Reading

/-!
# Analysis of a text

A diagnostic text is what the TypeScript compiler prints when it rejects a program: one or more
messages, each of which may be explained by further lines that are indented below it.

An analysis holds what was found in such a text: its problems, its error codes and whether it
complains that an object lacks the methods of an array. A blank text has no analysis; a text in
which nothing is recognised has one without problems.
-/

namespace Diagnosis

/-- What was found in a text. -/
structure Analysis where
  /-- The problems, in order. -/
  problems : List Record
  /-- Whether the text lists methods of arrays that an object lacks. -/
  isArrayObjectMismatch : Bool
  /-- The text, without the blanks at its ends. -/
  text : String
  /-- The first error code. -/
  errorCode : Option String
  /-- The error codes, in the order of their first occurrence. -/
  errorCodes : List String
  deriving DecidableEq

/-- The methods by which the compiler shows that an object is no array. -/
def arrayMethods : String := "length, pop, push, concat"

/-- Analyses a text, unless it is blank. -/
def Config.analyze (config : Config) (text : String) : Option Analysis :=
  let trimmed := Text.trim text
  if trimmed.isEmpty then none
  else
    let records := Record.ofText config.pathMode trimmed
    let codes := Code.ofText trimmed
    some {
      problems := if config.dedup then Record.dedup records else records
      isArrayObjectMismatch := Text.contains trimmed arrayMethods
      text := trimmed
      errorCode := codes.head?
      errorCodes := codes }

/-- Only a blank text has no analysis. -/
theorem Config.analyze_eq_none_iff {config : Config} {text : String} :
    config.analyze text = none ↔ Text.strip text.toList = [] := by
  rw [← Text.toList_trim, String.toList_eq_nil_iff, ← String.isEmpty_iff]
  simp only [Config.analyze]
  split <;> simp_all

/-- What an analysis holds is told by the text without the blanks at its ends. -/
theorem Config.of_analyze_eq_some {config : Config} {text : String} {a : Analysis}
    (h : config.analyze text = some a) :
    a.text = Text.trim text ∧
      a.problems = (if config.dedup then Record.dedup (Record.ofText config.pathMode a.text)
        else Record.ofText config.pathMode a.text) ∧
      a.isArrayObjectMismatch = Text.contains a.text arrayMethods ∧
      a.errorCodes = Code.ofText a.text ∧ a.errorCode = a.errorCodes.head? := by
  rw [Config.analyze] at h
  by_cases hblank : (Text.trim text).isEmpty = true
  · rw [if_pos hblank] at h
    cases h
  · rw [if_neg hblank] at h
    rw [← Option.some.inj h]
    simp only [and_self]

/-- A text that is not blank has an analysis. -/
theorem Config.exists_analyze_eq_some (config : Config) {text trimmed : String}
    (h : Text.trim text = trimmed) (hne : trimmed ≠ "") :
    ∃ a, config.analyze text = some a ∧ a.text = trimmed := by
  have hsome : config.analyze text ≠ none := by
    rw [Ne, Config.analyze_eq_none_iff, ← Text.toList_trim, h, String.toList_eq_nil_iff]
    exact hne
  obtain ⟨a, ha⟩ := Option.ne_none_iff_exists'.1 hsome
  exact ⟨a, ha, (Config.of_analyze_eq_some ha).1.trans h⟩

/-- Analyses a text in the usual way: nested properties stay on the path and repeated reports are
dropped. -/
def analyze (text : String) : Option Analysis := Config.analyze {} text

end Diagnosis
