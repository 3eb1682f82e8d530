import Diagnosis.Proofs.LineReading
import Diagnosis.Proofs.Suggestion

/-!
# Sightings

A sighting is a finding together with the place in the text where it was made: the line, all that
stands before it, and the shape as which the line reports it. The sightings of a text depend on its
lines alone, on no path mode and on nothing that is kept while the text is read.

Records and sightings correspond one to one, in order (`Record.map_ofLines`): the path of a record
is told by the nesting after the lines up to that of its sighting.
-/

namespace Diagnosis

open Text (Line)

/-- A finding at the place where it was made. -/
structure Sighting where
  /-- The lines up to the one on which it was made, that one included. -/
  upTo : List Line
  /-- The shape as which the line reports it. -/
  shape : Shape
  /-- What was found. -/
  finding : Finding

/-- What a line reports, shape by shape in the order in which the shapes are tried. -/
def Text.Line.findings (line : Line) : List (Shape × Finding) :=
  line.contributions.flatMap fun c =>
    match c.2 with
    | .report findings => findings.map fun finding => (c.1, finding)
    | _ => []

/-- The sightings on lines that stand after others. -/
def sightingsAfter : List Line → List Line → List Sighting
  | _, [] => []
  | before, line :: rest =>
    (line.findings.map fun f => ⟨before ++ [line], f.1, f.2⟩) ++
      sightingsAfter (before ++ [line]) rest

/-- The sightings on the lines of a text, line by line. -/
def sightings (ls : List Line) : List Sighting := sightingsAfter [] ls

/-- The nesting after the lines at the start of a text. -/
def Nesting.after (mode : PathMode) (ls : List Line) : Nesting := ls.foldl arrive { mode := mode }

theorem Nesting.arrive_after (mode : PathMode) (ls : List Line) (line : Line) :
    (after mode ls).arrive line = after mode (ls ++ [line]) := by
  rw [after, after, List.foldl_append, List.foldl_cons, List.foldl_nil]

/-- The record of a sighting, without a suggestion. -/
def Sighting.record (mode : PathMode) (s : Sighting) : Record :=
  s.finding.recordAt s.shape.rule.scope (Nesting.after mode s.upTo).path

theorem Text.Line.contribution?_of_mem_findings {line : Line} {shape : Shape} {finding : Finding}
    (h : (shape, finding) ∈ line.findings) :
    ∃ findings, shape.contribution? line.text = some (.report findings) ∧ finding ∈ findings := by
  obtain ⟨⟨shape', contribution⟩, hc, hf⟩ := List.mem_flatMap.1 h
  obtain ⟨shape'', -, hsome⟩ := List.mem_filterMap.1 hc
  obtain ⟨contribution', hcontribution, heq⟩ := Option.map_eq_some_iff.1 hsome
  obtain ⟨rfl, rfl⟩ := Prod.mk.inj heq
  cases contribution' with
  | enter property => simp at hf
  | suggest name => simp at hf
  | report findings =>
    obtain ⟨finding', hmem, heq⟩ := List.mem_map.1 hf
    obtain ⟨rfl, rfl⟩ := Prod.mk.inj heq
    exact ⟨findings, hcontribution, hmem⟩

theorem Text.Line.report_of_mem_findings {line : Line} {shape : Shape} {finding : Finding}
    (h : (shape, finding) ∈ line.findings) :
    ∃ fields findings, shape.fields? line.text = some fields ∧
      shape.rule.contribution fields = .report findings ∧ finding ∈ findings := by
  obtain ⟨findings, hcontribution, hmem⟩ := contribution?_of_mem_findings h
  obtain ⟨fields, hfields, hrule⟩ := Shape.contribution?_eq_some hcontribution
  exact ⟨fields, findings, hfields, hrule, hmem⟩

/-- What a line reports as one of a shape is among its findings. -/
theorem Text.Line.mem_findings_of_contribution? {line : Line} {shape : Shape}
    {findings : List Finding} (h : shape.contribution? line.text = some (.report findings))
    {finding : Finding} (hf : finding ∈ findings) : (shape, finding) ∈ line.findings := by
  have hcontribution : (shape, Contribution.report findings) ∈ line.contributions :=
    List.mem_filterMap.2 ⟨shape, Shape.mem_all shape, by rw [h]; rfl⟩
  exact List.mem_flatMap.2 ⟨_, hcontribution, List.mem_map_of_mem hf⟩

theorem Text.Line.scope_of_mem_findings {line : Line} {shape : Shape} {finding : Finding}
    (h : (shape, finding) ∈ line.findings) : finding.problem.scope = shape.rule.scope := by
  obtain ⟨fields, findings, -, hrule, hmem⟩ := report_of_mem_findings h
  exact Shape.scope_of_report hrule hmem

theorem Text.Line.property_of_mem_findings {line : Line} {shape : Shape} {finding : Finding}
    (h : (shape, finding) ∈ line.findings) (hs : shape.rule.scope = .root) :
    finding.property = none := by
  obtain ⟨fields, findings, -, hrule, hmem⟩ := report_of_mem_findings h
  exact Shape.property_of_report hrule hs hmem

/-- The sightings on lines are the findings of the lines, in order. -/
theorem map_sightingsAfter (before ls : List Line) :
    (sightingsAfter before ls).map (fun s => (s.shape, s.finding)) =
      ls.flatMap Text.Line.findings := by
  induction ls generalizing before with
  | nil => rfl
  | cons line rest ih =>
    rw [sightingsAfter, List.map_append, ih, List.map_map, List.flatMap_cons]
    exact congrArg (· ++ _) (List.map_id _)

theorem Sighting.exists_mem_findings {ls : List Line} {s : Sighting} (h : s ∈ sightings ls) :
    ∃ line ∈ ls, (s.shape, s.finding) ∈ line.findings := by
  have hmem : (s.shape, s.finding) ∈ ls.flatMap Text.Line.findings := by
    rw [← map_sightingsAfter []]
    exact List.mem_map_of_mem h
  exact List.mem_flatMap.1 hmem

theorem Sighting.path_record_of_root {ls : List Line} {s : Sighting} (h : s ∈ sightings ls)
    (hs : s.finding.problem.scope = .root) (mode : PathMode) : (s.record mode).path = [] := by
  obtain ⟨line, -, hf⟩ := exists_mem_findings h
  have hshape : s.shape.rule.scope = .root := by
    rw [← Text.Line.scope_of_mem_findings hf, hs]
  have hproperty := Text.Line.property_of_mem_findings hf hshape
  simp [Sighting.record, Finding.recordAt, hshape, hproperty]

theorem Text.Line.filterMap_record?_eventsAt (path : List String) (line : Line) :
    (line.eventsAt path).filterMap Event.record? =
      line.findings.map fun f => f.2.recordAt f.1.rule.scope path := by
  unfold eventsAt findings
  induction line.contributions with
  | nil => rfl
  | cons c rest ih =>
    rw [List.flatMap_cons, List.flatMap_cons, List.filterMap_append, List.map_append, ih]
    congr 1
    cases c.2 with
    | enter property => rfl
    | suggest name => rfl
    | report findings => simp [Contribution.eventsAt, Event.record?, Function.comp_def]

theorem filterMap_record?_readLines (mode : PathMode) (before ls : List Line) :
    ((Nesting.after mode before).readLines ls).2.filterMap Event.record? =
      (sightingsAfter before ls).map (Sighting.record mode) := by
  induction ls generalizing before with
  | nil => rfl
  | cons line rest ih =>
    rw [Nesting.readLines_cons, Nesting.arrive_after, sightingsAfter, List.filterMap_append,
      List.map_append, ih, Text.Line.filterMap_record?_eventsAt, List.map_map]
    rfl

namespace Record

/-- The records of lines. -/
def ofLines (mode : PathMode) (ls : List Line) : List Record :=
  ofEvents (Nesting.readLines { mode := mode } ls).2

/-- What does not look at suggestions is told of the records of a text by its sightings. -/
theorem map_ofLines {α : Type} {f : Record → α}
    (hf : ∀ (r : Record) (suggestion : Option String), f { r with suggestion } = f r)
    (mode : PathMode) (ls : List Line) :
    (ofLines mode ls).map f = (sightings ls).map fun s => f (s.record mode) := by
  rw [ofLines, map_ofEvents hf]
  have hread := filterMap_record?_readLines mode [] ls
  rw [show Nesting.after mode [] = { mode := mode } from rfl] at hread
  rw [hread, List.map_map]
  rfl

theorem map_problem_ofLines (mode : PathMode) (ls : List Line) :
    (ofLines mode ls).map Record.problem =
      (ls.flatMap Text.Line.findings).map fun f => f.2.problem := by
  rw [map_ofLines (f := Record.problem) (fun _ _ => rfl), ← map_sightingsAfter [], List.map_map]
  rfl

theorem forall_mem_ofLines_iff {p : Problem → Prop} (mode : PathMode) (ls : List Line) :
    (∀ r ∈ ofLines mode ls, p r.problem) ↔ ∀ line ∈ ls, ∀ f ∈ line.findings, p f.2.problem := by
  rw [← List.forall_mem_map (P := p), map_problem_ofLines, List.forall_mem_map,
    List.forall_mem_flatMap]

theorem exists_mem_ofLines_iff {p : Problem} (mode : PathMode) (ls : List Line) :
    (∃ r ∈ ofLines mode ls, r.problem = p) ↔
      ∃ line ∈ ls, ∃ f ∈ line.findings, f.2.problem = p := by
  simpa using not_congr (forall_mem_ofLines_iff (p := (· ≠ p)) mode ls)

/-- What a line of a text reports is among the records of the text. -/
theorem exists_mem_ofText_of_contribution? (mode : PathMode) {text : String} {line : Line}
    (hline : line ∈ Text.lines text.toList) {shape : Shape} {findings : List Finding}
    (h : shape.contribution? line.text = some (.report findings)) {finding : Finding}
    (hf : finding ∈ findings) : ∃ r ∈ ofText mode text, r.problem = finding.problem :=
  (exists_mem_ofLines_iff mode _).2
    ⟨line, hline, _, Text.Line.mem_findings_of_contribution? h hf, rfl⟩

theorem exists_sighting {mode : PathMode} {ls : List Line} {r : Record} (h : r ∈ ofLines mode ls) :
    ∃ s ∈ sightings ls, (s.record mode).path = r.path ∧ s.finding.problem = r.problem := by
  have hmap := map_ofLines (f := fun r => (r.path, r.problem)) (fun _ _ => rfl) mode ls
  have hmem : (r.path, r.problem) ∈ (ofLines mode ls).map fun r => (r.path, r.problem) :=
    List.mem_map_of_mem h
  rw [hmap] at hmem
  obtain ⟨s, hs, heq⟩ := List.mem_map.1 hmem
  exact ⟨s, hs, Prod.mk.inj heq⟩

/-- In every mode a problem about the whole diagnostic has the empty path. -/
theorem path_of_mem_ofLines {mode : PathMode} {ls : List Line} {r : Record}
    (h : r ∈ ofLines mode ls) (hr : r.problem.scope = .root) : r.path = [] := by
  obtain ⟨s, hs, hpath, hproblem⟩ := exists_sighting h
  rw [← hpath]
  exact s.path_record_of_root hs (hproblem ▸ hr) mode

end Record

end Diagnosis
