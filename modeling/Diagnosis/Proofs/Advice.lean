import Diagnosis.Proofs.FirstOccurrence
import Diagnosis.Report.Basic

/-!
# The advice on arrays

A report may close with the advice to wrap an object in an array. Whether it does depends on three
things: hints are given, there are problems, and an array is missing, which either the text as a
whole or one of the type mismatches says (`Report.lines_of_advises`). The advice names the
properties that it is about, each of them once, in the order in which the problems reach them.

Reports are made from analyses that nobody has checked, so nothing is taken for granted here: a
mismatch may be at the root, where it names no property, and problems of other kinds may be in
between.
-/

namespace Diagnosis

open Diagnosis.Span (plain toned writeLines)

/-- Whether a record is a type mismatch that an array would mend. -/
def Record.IsArrayMismatch (r : Record) : Prop :=
  ∃ m, r.problem = .typeMismatch m ∧ m.isArrayMismatch = true

namespace Report

/-- The lines of a report above the advice. -/
def bodyLines (options : Options) (a : Analysis) : List (List Span) :=
  if a.problems.isEmpty then emptyLines a else problemLines options a

/-- The line of the advice for a property. -/
def wrapLine (property : String) : List Span :=
  [plain "   ", toned .error (property ++ ": \x7b ... \x7d"), plain " → ",
    toned .correct (property ++ ": [\x7b ... \x7d]")]

/-- The text of that line, with its end. -/
def wrapText (property : String) : String :=
  "   " ++ property ++ ": \x7b ... \x7d → " ++ property ++ ": [\x7b ... \x7d]\n"

/-- The lines of the advice for some properties: an empty one, a heading, and one for each. -/
def wrapLines (properties : List String) : List (List Span) :=
  [] :: [toned .help "fix:", plain " wrap the object in an array"] :: properties.map wrapLine

/-- Whether a report gives the advice. -/
def Advises (options : Options) (a : Analysis) : Prop :=
  options.hints = true ∧ a.problems ≠ [] ∧
    (a.isArrayObjectMismatch = true ∨ ∃ r ∈ a.problems, r.IsArrayMismatch)

/-- The properties in which array mismatches end, mismatch by mismatch. Those at the root end in
none. -/
def lastProperties (a : Analysis) : List String :=
  (arrayMismatches a).filterMap fun r => r.path.getLast?

/-- The lines of the advice in a report, none if the report does not give it. -/
def adviceLines (options : Options) (a : Analysis) : List (List Span) :=
  if options.hints && !a.problems.isEmpty then arrayAdvice a else []

/-! ## Where the advice stands -/

theorem mem_arrayMismatches {a : Analysis} {r : Record} :
    r ∈ arrayMismatches a ↔ r ∈ a.problems ∧ r.IsArrayMismatch := by
  rw [arrayMismatches, List.mem_filter, Record.IsArrayMismatch]
  cases r.problem <;> simp [Problem.mismatch?]

/-- What keeps the advice back is the opposite of what calls for it. -/
theorem none_missing_iff {a : Analysis} :
    ((arrayMismatches a).isEmpty && !a.isArrayObjectMismatch) = true ↔
      ¬ (a.isArrayObjectMismatch = true ∨ ∃ r ∈ a.problems, r.IsArrayMismatch) := by
  rw [Bool.and_eq_true, List.isEmpty_iff, List.eq_nil_iff_forall_not_mem, Bool.not_eq_true',
    not_or, Bool.not_eq_true, and_comm]
  simp only [mem_arrayMismatches, not_and, not_exists]

section Lines

variable (options : Options) (a : Analysis)

/-- Without the trace the advice comes last. -/
theorem lines_eq_append_adviceLines :
    lines { options with trace := false } a = bodyLines options a ++ adviceLines options a := by
  have htrace : ¬ (false = true) := Bool.false_ne_true
  rw [lines, bodyLines, adviceLines]
  by_cases hempty : a.problems.isEmpty = true
  · simp only [hempty, if_true, if_neg htrace, Bool.not_true, Bool.and_false, List.append_nil]
  · simp only [hempty, if_neg htrace, Bool.not_false, Bool.and_true, List.append_nil]
    rfl

variable {options a}

theorem adviceLines_of_advises (h : Advises options a) :
    adviceLines options a = wrapLines (arrayProperties a) := by
  obtain ⟨hhints, hproblems, harray⟩ := h
  have hshown : (options.hints && !a.problems.isEmpty) = true := by
    simpa [hhints] using hproblems
  rw [adviceLines, if_pos hshown, arrayAdvice,
    if_neg (mt none_missing_iff.1 (not_not_intro harray))]
  rfl

theorem adviceLines_of_not_advises (h : ¬ Advises options a) : adviceLines options a = [] := by
  rw [adviceLines]
  split
  · next hshown =>
    obtain ⟨hhints, hproblems⟩ := Bool.and_eq_true_iff.1 hshown
    have hnone := fun harray => h ⟨hhints, by simpa using hproblems, harray⟩
    rw [arrayAdvice, if_pos (none_missing_iff.2 hnone)]
  · rfl

end Lines

/-! ## What the advice says -/

/-- Without colours the advice is a heading below an empty line, with a line for each property. -/
theorem writeLines_wrapLines (properties : List String) :
    writeLines false (wrapLines properties) = "\nfix: wrap the object in an array\n" ++
      String.join (properties.map wrapText) := by
  have hline : (fun line : List Span => String.join (line.map Span.text) ++ "\n") ∘ wrapLine =
      wrapText := by
    funext property
    rw [← String.toList_inj]
    simp [wrapLine, wrapText, plain, toned]
  have hheading : String.join (([toned .help "fix:", plain " wrap the object in an array"] :
      List Span).map Span.text) ++ "\n" = "fix: wrap the object in an array\n" := rfl
  rw [Span.writeLines_false, wrapLines, List.map_cons, List.map_cons, List.map_map, hline,
    String.join_cons, String.join_cons, hheading, ← String.append_assoc]
  rfl

theorem writeLines_wrapLines_ne_empty (colored : Bool) (properties : List String) :
    writeLines colored (wrapLines properties) ≠ "" := by
  rw [writeLines, Ne, String.ofList_eq_empty_iff]
  exact List.cons_ne_nil '\n' _

/-- The advice is about `data` if no array mismatch ends in a property. -/
theorem arrayProperties_eq (a : Analysis) :
    arrayProperties a =
      if lastProperties a = [] then ["data"] else distinct (lastProperties a) := by
  rw [arrayProperties, ← lastProperties]
  split
  · next hnone =>
    have hnil : lastProperties a = [] :=
      List.eq_nil_iff_forall_not_mem.2 fun x hx => List.not_mem_nil (hnone ▸ mem_distinct.2 hx)
    rw [if_pos hnil]
  · next hsome =>
    have hne : lastProperties a ≠ [] := fun hnil => hsome (congrArg distinct hnil)
    rw [if_neg hne]

end Report

namespace Analysis

open Report (bodyLines wrapLines wrapText arrayProperties lastProperties Advises adviceLines)

/-- Without the trace a report is its body with the advice behind it. The advice is there if and
only if hints are given, there are problems, and the text as a whole or one of the type mismatches
says that an array is missing. It is a heading and a line for each property, and these are the
different properties in which array mismatches end, in the order in which these first occur among
the problems, or else `data`. -/
theorem render_advice (a : Analysis) (options : Options) :
    ∃ advice : String,
      a.render { options with trace := false } =
        writeLines options.colored (bodyLines options a) ++ advice ∧
      (advice ≠ "" ↔ options.hints = true ∧ a.problems ≠ [] ∧
        (a.isArrayObjectMismatch = true ∨ ∃ r ∈ a.problems, r.IsArrayMismatch)) ∧
      (advice ≠ "" → advice = writeLines options.colored (wrapLines (arrayProperties a)) ∧
        (options.colored = false → advice = "\nfix: wrap the object in an array\n" ++
          String.join ((arrayProperties a).map wrapText))) ∧
      (lastProperties a = [] → arrayProperties a = ["data"]) ∧
      (lastProperties a ≠ [] → (arrayProperties a).Nodup ∧
        (∀ property, property ∈ arrayProperties a ↔
          ∃ r ∈ a.problems, r.IsArrayMismatch ∧ r.path.getLast? = some property) ∧
        (arrayProperties a).Pairwise fun x y =>
          (lastProperties a).idxOf x < (lastProperties a).idxOf y) := by
  have happlies : writeLines options.colored (adviceLines options a) ≠ "" ↔ Advises options a := by
    by_cases h : Advises options a
    · rw [Report.adviceLines_of_advises h]
      exact iff_of_true (Report.writeLines_wrapLines_ne_empty _ _) h
    · rw [Report.adviceLines_of_not_advises h]
      exact iff_of_false (not_not_intro rfl) h
  have hproperties := Report.arrayProperties_eq a
  refine ⟨writeLines options.colored (adviceLines options a), ?_, happlies, fun hne => ?_, ?_, ?_⟩
  · rw [← String.toList_inj, String.toList_append, render, Report.lines_eq_append_adviceLines,
      Span.toList_writeLines_append]
  · rw [Report.adviceLines_of_advises (happlies.1 hne)]
    refine ⟨rfl, fun hcolored => ?_⟩
    rw [hcolored, Report.writeLines_wrapLines]
  · intro hnil
    rw [hproperties, if_pos hnil]
  · intro hne
    rw [hproperties, if_neg hne]
    refine ⟨nodup_distinct _, fun property => ?_, pairwise_idxOf_distinct _⟩
    simp only [mem_distinct, lastProperties, List.mem_filterMap, Report.mem_arrayMismatches,
      and_assoc]

/-- Two properties are reached by array mismatches, one of them twice. Between them are a mismatch
at the root, one that has nothing to do with arrays, and a problem of another kind. -/
def tagsAndItems : Analysis where
  problems :=
    [{ path := ["list"], problem := .possiblyNull },
      { path := ["user", "tags"], problem := .typeMismatch (.array "string" "string[]") },
      { path := [], problem := .typeMismatch (.array "\x7b\x7d" "number[]") },
      { path := ["size"], problem := .typeMismatch (.ofTypes "string" "number") },
      { path := ["items"], problem := .typeMismatch (.array "A" "A[]") },
      { path := ["tags"], problem := .typeMismatch (.array "B" "B[]") }]
  isArrayObjectMismatch := false
  text := ""
  errorCode := none
  errorCodes := []

theorem render_advice_tagsAndItems :
    tagsAndItems.render .plain = writeLines false (bodyLines .plain tagsAndItems) ++
      ("\nfix: wrap the object in an array\n" ++
        ("   tags: \x7b ... \x7d → tags: [\x7b ... \x7d]\n" ++
          "   items: \x7b ... \x7d → items: [\x7b ... \x7d]\n")) := by
  obtain ⟨advice, hrender, happlies, hadvice, -⟩ := render_advice tagsAndItems .plain
  have hmismatch : ∃ r ∈ tagsAndItems.problems, r.IsArrayMismatch :=
    ⟨_, List.mem_cons_of_mem _ List.mem_cons_self, _, rfl, rfl⟩
  have hne : advice ≠ "" := happlies.2 ⟨rfl, List.cons_ne_nil _ _, Or.inr hmismatch⟩
  have hlines : String.join ((arrayProperties tagsAndItems).map wrapText) =
      "   tags: \x7b ... \x7d → tags: [\x7b ... \x7d]\n" ++
        "   items: \x7b ... \x7d → items: [\x7b ... \x7d]\n" := by
    decide +kernel
  have htext := (hadvice hne).2 rfl
  rw [hlines] at htext
  rw [htext] at hrender
  exact hrender

end Analysis

end Diagnosis
