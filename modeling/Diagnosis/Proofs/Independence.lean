import Diagnosis.Proofs.Appending
import Diagnosis.Proofs.EnclosingPath
import Mathlib.Data.List.TakeWhile

/-!
# Texts that do not touch each other

Two things cross the line between a text and the one after it: the names that the second text
suggests before its first problem, and the properties that the first text has left open. In the
indented mode the latter are left at once if the first line of the second text is indented no deeper
than the lines that entered them, and what remains is a text that is read as it would be alone.
-/

namespace Diagnosis

open Text (Line)

/-- A property that is open after some lines was entered by one of them, at its indentation. -/
theorem exists_line_of_mem_openSegments {ls : List Line} {s : Segment} (h : s ∈ openSegments ls) :
    ∃ line ∈ ls, line.entered? = some s.property ∧ line.indent = s.depth := by
  induction ls with
  | nil => cases h
  | cons line later ih =>
    rw [openSegments] at h
    rcases List.mem_append.1 h with h | h
    · split at h
      · obtain ⟨property, hentered, rfl⟩ := Option.map_eq_some_iff.1 (Option.mem_toList.1 h)
        exact ⟨line, List.mem_cons_self, hentered, rfl⟩
      · cases h
    · obtain ⟨line', hline, hentered⟩ := ih h
      exact ⟨line', List.mem_cons_of_mem _ hline, hentered⟩

namespace Nesting

/-- Whether a line leaves all of some properties. -/
def LeavesAll (segments : List Segment) (line : Line) : Prop :=
  ∀ s ∈ segments, line.indent ≤ s.depth

theorem arrive_of_leavesAll {segments : List Segment} {line : Line}
    (h : LeavesAll segments line) :
    arrive ⟨.indented, segments⟩ line = arrive { mode := .indented } line := by
  have hleft : (segments.dropWhile fun s => decide (line.indent ≤ s.depth)) = [] := by
    rw [List.dropWhile_eq_nil_iff]
    intro s hs
    exact decide_eq_true (h s hs)
  have hatIndent : atIndent ⟨.indented, segments⟩ line.indent = { mode := .indented } := by
    rw [atIndent, hleft]
  unfold arrive visit
  rw [hatIndent]
  rfl

/-- Lines of which the first one leaves all properties are read as they would be alone. -/
theorem readLines_of_leavesAll {segments : List Segment} {ls : List Line}
    (h : ∀ first ∈ ls.head?, LeavesAll segments first) :
    (readLines ⟨.indented, segments⟩ ls).2 = (readLines { mode := .indented } ls).2 := by
  cases ls with
  | nil => rfl
  | cons first rest =>
    have hfirst := arrive_of_leavesAll (h first rfl)
    rw [readLines_cons, readLines_cons, hfirst]

/-- A line that is indented no deeper than any line that enters a property leaves all properties
that the lines leave open. -/
theorem leavesAll_openSegments {ls : List Line} {first : Line}
    (h : ∀ line ∈ ls, line.entered? ≠ none → first.indent ≤ line.indent) :
    LeavesAll (openSegments ls).reverse first := by
  intro s hs
  obtain ⟨line, hline, hentered, hdepth⟩ :=
    exists_line_of_mem_openSegments (List.mem_reverse.1 hs)
  have hne : line.entered? ≠ none := by
    rw [hentered]
    exact Option.some_ne_none _
  rw [← hdepth]
  exact h line hline hne

end Nesting

namespace Record

/-- In the indented mode the records of two texts, the second one on lines of its own, are the
records of the one and then those of the other, with their paths and suggestions. This is so if the
first line of the second text is indented no deeper than any line of the first text that enters a
property, and the second text suggests no name before its first problem. -/
theorem ofText_indented_append {a b : String}
    (hindent : ∀ first ∈ (Text.lines b.toList).head?, ∀ line ∈ Text.lines a.toList,
      line.entered? ≠ none → first.indent ≤ line.indent)
    (hnames : leadingSuggestions (Text.lines b.toList) = []) :
    ofText .indented (a ++ "\n" ++ b) = ofText .indented a ++ ofText .indented b := by
  have hleaves : ∀ first ∈ (Text.lines b.toList).head?,
      Nesting.LeavesAll (openSegments (Text.lines a.toList)).reverse first :=
    fun first hfirst => Nesting.leavesAll_openSegments (hindent first hfirst)
  have hread := Nesting.readLines_of_leavesAll hleaves
  calc ofText .indented (a ++ "\n" ++ b)
      = ofLines .indented (Text.lines a.toList ++ Text.lines b.toList) := by
        rw [← lines_append_newline]
        rfl
    _ = ofText .indented a ++
          ofEvents ((Nesting.after .indented (Text.lines a.toList)).readLines
            (Text.lines b.toList)).2 := by
        rw [ofLines_append, hnames]
        rfl
    _ = ofText .indented a ++ ofText .indented b := by
        rw [Nesting.after_indented, hread]
        rfl

/-- A text that leaves a property open. -/
def openText : String := "Types of property 'a' are incompatible.\n  No overload matches this call"

/-- A text at the margin, which suggests a name for its own problem. -/
def marginText : String := "\nObject is possibly 'null'.\n  Did you mean 'y'?"

theorem ofText_indented_append_open :
    (∀ first ∈ (Text.lines marginText.toList).head?, ∀ line ∈ Text.lines openText.toList,
      line.entered? ≠ none → first.indent ≤ line.indent) ∧
    leadingSuggestions (Text.lines marginText.toList) = [] ∧
    ofText .indented (openText ++ "\n" ++ marginText) =
      ofText .indented openText ++ ofText .indented marginText := by
  have hindent : ∀ first ∈ (Text.lines marginText.toList).head?,
      ∀ line ∈ Text.lines openText.toList, line.entered? ≠ none → first.indent ≤ line.indent := by
    decide +kernel
  have hnames : leadingSuggestions (Text.lines marginText.toList) = [] := by
    decide +kernel
  exact ⟨hindent, hnames, ofText_indented_append hindent hnames⟩

end Record

end Diagnosis
