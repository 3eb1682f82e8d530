import Diagnosis.Proofs.Controls
import Diagnosis.Proofs.Provenance
import Diagnosis.Report.Basic

/-!
# Short reports

A short report that gives no hints and does not show the text is a list: one line for each problem,
with its number, its place, its title and its detail (`Analysis.render_short`). The number of line
feeds is the number of problems only because none of these parts holds a line feed of its own. The
texts of a record are parts of lines, and titles and details add no line feed to them
(`Report.newline_not_mem_entry`). A line is one span without a tone, so it is the same with and
without colours.
-/

namespace Diagnosis

open Text (Control Lacks cutAt)

/-- The line feed as a control character. -/
def Text.Control.lineFeed : Control := ⟨'\n', rfl⟩

/-- Lines without line feeds are found again between the line feeds that end them. Behind the last
one there is nothing. -/
theorem Text.cutAt_flatMap_lines {ls : List (List Char)} (h : ∀ l ∈ ls, '\n' ∉ l) :
    cutAt (· == '\n') (ls.flatMap (· ++ ['\n'])) = ls ++ [[]] := by
  induction ls with
  | nil => rfl
  | cons l rest ih =>
    obtain ⟨hl, hrest⟩ := List.forall_mem_cons.1 h
    have hpiece : cutAt (· == '\n') l = [l] := by
      refine cutAt_of_forall_not_sep fun c hc => ?_
      exact beq_false_of_ne fun heq => hl (heq ▸ hc)
    rw [List.flatMap_cons, List.append_assoc, List.singleton_append, cutAt_append_cons rfl, hpiece,
      ih hrest]
    rfl

/-- No text of a record of an analysis holds a line feed. -/
theorem Config.newline_not_mem_of_mem_problems {config : Config} {text : String} {a : Analysis}
    (h : config.analyze text = some a) {r : Record} (hr : r ∈ a.problems) :
    ∀ s ∈ r.strings, '\n' ∉ s.toList := by
  obtain ⟨-, hproblems, -⟩ := Config.of_analyze_eq_some h
  have hread : r ∈ Record.ofText config.pathMode a.text := by
    rw [hproblems] at hr
    split at hr
    · exact (distinctBy_sublist Record.key [] _).subset hr
    · exact hr
  exact (Record.takenFrom_of_mem_ofText hread).newline_not_mem

/-! ## Lines of problems -/

namespace Report

/-- What a short report says about a problem. -/
def entry (arrayExpected : Bool) (number : Nat) (r : Record) : String :=
  let explanation := r.problem.title arrayExpected ++ ": " ++ r.problem.detail
  match r.path with
  | [] => number.repr ++ ". " ++ explanation
  | path => number.repr ++ ". [" ++ ".".intercalate path ++ "] " ++ explanation

theorem newline_not_mem_entry (arrayExpected : Bool) (number : Nat) {r : Record}
    (h : ∀ s ∈ r.strings, '\n' ∉ s.toList) : '\n' ∉ (entry arrayExpected number r).toList := by
  simp only [Record.strings, List.forall_mem_append] at h
  obtain ⟨⟨hpath, hproblem⟩, -⟩ := h
  have hplace : Lacks .lineFeed (".".intercalate r.path) := .intercalate (.ofList rfl) hpath
  have hdetail : Lacks .lineFeed r.problem.detail := Problem.lacks_detail hproblem
  show Lacks .lineFeed (entry arrayExpected number r)
  unfold entry
  split <;>
    simp only [Text.Lacks.append_iff, Text.Lacks.repr, Problem.lacks_title, hplace, hdetail,
      and_true, true_and]
  · exact ⟨.ofList rfl, .ofList rfl⟩
  · exact ⟨⟨.ofList rfl, .ofList rfl⟩, .ofList rfl⟩

theorem writeLine_shortLine (colored arrayExpected : Bool) (number : Nat) (r : Record) :
    Span.writeLine colored (shortLine arrayExpected number r) =
      (entry arrayExpected number r).toList ++ ['\n'] := by
  have hplain (s : String) : Span.writeLine colored [.plain s] = s.toList ++ ['\n'] := by
    cases colored <;> simp [Span.writeLine, Span.write, Span.plain]
  rw [shortLine, hplain, entry]
  cases hpath : r.path with
  | nil => simp [String.append_assoc]
  | cons name rest => simp [Record.dottedPath, hpath, String.append_assoc]

/-- The entries of the problems of an analysis, counted from one. -/
def entries (a : Analysis) : List (List Char) :=
  a.problems.mapIdx fun i r => (entry a.isArrayObjectMismatch (i + 1) r).toList

theorem flatMap_writeLine_problemLines {options : Options} (hstyle : options.style = .short)
    (colored : Bool) (a : Analysis) :
    (problemLines options a).flatMap (Span.writeLine colored) =
      (entries a).flatMap (· ++ ['\n']) := by
  unfold problemLines entries
  rw [hstyle, List.mapIdx_eq_zipIdx_map, List.zipIdx_succ]
  simp only [List.map_map, List.flatMap_map, Function.comp_apply, writeLine_shortLine]

theorem newline_not_mem_of_mem_entries {config : Config} {text : String} {a : Analysis}
    (h : config.analyze text = some a) : ∀ line ∈ entries a, '\n' ∉ line := by
  intro line hline
  obtain ⟨i, hi, rfl⟩ := List.mem_mapIdx.1 hline
  exact newline_not_mem_entry _ _
    (Config.newline_not_mem_of_mem_problems h (List.getElem_mem hi))

end Report

namespace Analysis

open Report (entries)

/-- A short report on an analysis with problems that gives no hints and does not show the text
consists of the entries of the problems, in their order, each with a line feed behind it. There are
no line feeds but these. -/
theorem render_short {config : Config} {text : String} {a : Analysis}
    (h : config.analyze text = some a) (hne : a.problems ≠ []) (colored aligned : Bool) :
    let report :=
      (a.render { colored, style := .short, aligned, hints := false, trace := false }).toList
    report.count '\n' = a.problems.length ∧ report.getLast? = some '\n' ∧
      cutAt (· == '\n') report = entries a ++ [[]] := by
  intro report
  have hreport : report = (entries a).flatMap (· ++ ['\n']) := by
    have hsome : ¬ a.problems.isEmpty = true := mt List.isEmpty_iff.1 hne
    simp only [report, render, Span.writeLines, String.toList_ofList, Report.lines, if_neg hsome,
      Bool.false_eq_true, if_false, List.append_nil]
    exact Report.flatMap_writeLine_problemLines rfl colored a
  have hcut : cutAt (· == '\n') report = entries a ++ [[]] := by
    rw [hreport]
    exact Text.cutAt_flatMap_lines (Report.newline_not_mem_of_mem_entries h)
  have hlength : (entries a).length = a.problems.length := List.length_mapIdx
  refine ⟨?_, ?_, hcut⟩
  · have hpieces := Text.length_cutAt (· == '\n') report
    rw [hcut, List.length_append, hlength] at hpieces
    exact (Nat.succ.inj hpieces).symm
  · have hentries : entries a ≠ [] := by
      rw [← List.length_pos_iff, hlength]
      exact List.length_pos_iff.2 hne
    rw [hreport, ← List.dropLast_concat_getLast hentries, List.flatMap_append,
      List.flatMap_singleton, ← List.append_assoc, List.getLast?_concat]

/-- A name that is not declared, and a nested property with a bare carriage return in its type. -/
def nestedText : String :=
  "Cannot find name 'x'.\nTypes of property 'user' are incompatible.\n" ++
    "  Type 'A\rB' is not assignable to type 'C'."

theorem render_short_nestedText :
    ∃ a, analyze nestedText = some a ∧ a.problems ≠ [] ∧
      cutAt (· == '\n') (a.render .short).toList =
        ["1. Name not found: 'x' is not declared".toList,
          "2. [user] Type mismatch: 'A\rB' is not assignable to 'C'".toList, []] := by
  have hentries : (analyze nestedText).map entries =
      some ["1. Name not found: 'x' is not declared".toList,
        "2. [user] Type mismatch: 'A\rB' is not assignable to 'C'".toList] := by
    decide +kernel
  obtain ⟨a, ha, hlines⟩ := Option.map_eq_some_iff.1 hentries
  have hne : a.problems ≠ [] := by
    intro hnil
    rw [entries, hnil] at hlines
    cases hlines
  obtain ⟨-, -, hcut⟩ := render_short ha hne true false
  rw [hlines] at hcut
  exact ⟨a, ha, hne, hcut⟩

end Analysis

end Diagnosis
