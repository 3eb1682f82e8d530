import Diagnosis.Proofs.LineReport
import Diagnosis.Proofs.Recognition

/-!
# Precedence on a line

While a line is tried for shapes, the shapes found so far are kept in a list, and a shape is passed
over if the one that takes precedence over it is on the list. This comes to a rule that needs no
list. A line contributes as one of a shape if and only if it has the shape and does not have the one
that takes precedence. What the latter reported, if anything, and what other lines have said play no
part (`Record.contributed_unless_preceded`).

Each problem is reported by the lines of one shape alone (`Problem.shape_of_report`). So two
problems of which the one's shape takes precedence over the other's are never reported of the same
line.
-/

namespace Diagnosis

open Text (Line)

/-! ## What a line contributes -/

theorem Shape.contribution?_eq_some_iff {shape : Shape} {text : List Char} {c : Contribution} :
    shape.contribution? text = some c ↔
      ∃ fields, shape.fields? text = some fields ∧ shape.rule.contribution fields = c ∧
        ∀ guard, shape.rule.unless? = some guard → guard.fields? text = none := by
  rw [contribution?]
  cases hunless : shape.rule.unless? with
  | none => simp
  | some guard => cases hguard : guard.fields? text <;> simp [hguard]

namespace Text.Line

variable {line : Line} {shape : Shape}

/-- While a line is tried for all shapes, it contributes as one of those that it has unless it has
the one that takes precedence. -/
theorem mem_contributed_iff {c : Contribution} :
    (shape, c) ∈ line.contributed Shape.all [] ↔
      ∃ fields, shape.fields? line.text = some fields ∧ shape.rule.contribution fields = c ∧
        ∀ guard, shape.rule.unless? = some guard → guard.fields? line.text = none := by
  rw [contributed_all, contributions, List.mem_filterMap, ← Shape.contribution?_eq_some_iff]
  constructor
  · rintro ⟨s, -, hs⟩
    obtain ⟨c', hc', heq⟩ := Option.map_eq_some_iff.1 hs
    obtain ⟨rfl, rfl⟩ := Prod.mk.inj heq
    exact hc'
  · intro h
    exact ⟨shape, Shape.mem_all shape, by rw [h]; rfl⟩

/-- The contributions stand in the order in which the shapes are tried. -/
theorem map_fst_contributed_sublist (line : Line) :
    ((line.contributed Shape.all []).map Prod.fst).Sublist Shape.all := by
  have hfilter : (line.contributed Shape.all []).map Prod.fst =
      Shape.all.filter fun s => (s.contribution? line.text).isSome := by
    rw [contributed_all, contributions, List.map_filterMap, ← List.filterMap_eq_filter]
    refine List.filterMap_congr fun s _ => ?_
    cases hs : s.contribution? line.text <;> simp [Option.guard, hs]
  rw [hfilter]
  exact List.filter_sublist

theorem mem_findings_of_mem_findingsAs {finding : Finding} (h : finding ∈ line.findingsAs shape) :
    (shape, finding) ∈ line.findings := by
  have hmem : (shape, finding) ∈ (line.findingsAs shape).map (shape, ·) := List.mem_map_of_mem h
  rw [← filter_findings] at hmem
  exact (List.mem_filter.1 hmem).1

theorem shape_of_mem_findings {finding : Finding} (h : (shape, finding) ∈ line.findings) :
    finding.problem.shape = shape := by
  obtain ⟨fields, findings, -, hreport, hmem⟩ := report_of_mem_findings h
  exact Problem.shape_of_report hreport hmem

/-- A line that reports as one of a shape reports nothing as the one that takes precedence. -/
theorem findingsAs_eq_nil_of_unless {guard : Shape} (hunless : shape.rule.unless? = some guard)
    {finding : Finding} (h : finding ∈ line.findingsAs shape) : line.findingsAs guard = [] := by
  obtain ⟨findings, hcontribution, -⟩ :=
    contribution?_of_mem_findings (mem_findings_of_mem_findingsAs h)
  obtain ⟨fields, -, -, hguard⟩ := Shape.contribution?_eq_some_iff.1 hcontribution
  have hnone : guard.contribution? line.text = none := by
    rw [Shape.contribution?, hguard guard hunless]
    split <;> rfl
  rw [findingsAs, hnone]

end Text.Line

/-! ## What a text reports -/

namespace Record

variable {mode : PathMode} {text : String} {before after : List Line} {line : Line}

/-- The records of a line as one of a shape are about problems of the shape, and there are none of
the shape that takes precedence over it. -/
theorem of_mem_reportedAs (hlines : Text.lines text.toList = before ++ line :: after)
    {shape : Shape} {r : Record} (hr : r ∈ reportedAs mode text (before ++ [line]) shape) :
    r.problem.shape = shape ∧ ∀ guard, shape.rule.unless? = some guard →
      reportedAs mode text (before ++ [line]) guard = [] := by
  have hmap (s : Shape) := map_reportedAs (f := Record.problem) (fun _ _ => rfl) mode hlines s
  have hmem : r.problem ∈ (reportedAs mode text (before ++ [line]) shape).map Record.problem :=
    List.mem_map_of_mem hr
  rw [hmap] at hmem
  obtain ⟨finding, hfinding, hproblem⟩ := List.mem_map.1 hmem
  refine ⟨?_, fun guard hunless => ?_⟩
  · rw [← hproblem]
    exact Text.Line.shape_of_mem_findings (Text.Line.mem_findings_of_mem_findingsAs hfinding)
  · have hguard := hmap guard
    rw [Text.Line.findingsAs_eq_nil_of_unless hunless hfinding] at hguard
    exact List.map_eq_nil_iff.1 hguard

/-- Consider a line of a text.

The text is read by reading what stands before the line, adding what the line contributes while it
is tried for all shapes, and reading what stands after it. The line contributes as one of a shape if
and only if it has the shape and does not have the one that takes precedence, and then what the rule
of the shape says; and it does so in the order in which the shapes are tried, as one of each at most
once.

So the line does not report both a mismatch of an argument and, as a line on two types that do not
fit, anything else, nor does it report missing properties in both of the two ways. -/
theorem contributed_unless_preceded (mode : PathMode)
    (hlines : Text.lines text.toList = before ++ line :: after) :
    (let start := Nesting.readLines { mode := mode } before
      let here := (start.1.atIndent line.indent).contributeAll line.indent
        (line.contributed Shape.all [])
      ofText mode text = ofEvents (start.2 ++ (here.2 ++ (here.1.readLines after).2))) ∧
    (∀ shape c, (shape, c) ∈ line.contributed Shape.all [] ↔
      ∃ fields, shape.fields? line.text = some fields ∧ shape.rule.contribution fields = c ∧
        ∀ guard, shape.rule.unless? = some guard → guard.fields? line.text = none) ∧
    ((line.contributed Shape.all []).map Prod.fst).Sublist Shape.all ∧
    (∀ shape, ∀ r ∈ reportedAs mode text (before ++ [line]) shape, ∀ m,
      r.problem = .typeMismatch m → m.isArgument = true →
        reportedAs mode text (before ++ [line]) .typeMismatch = []) ∧
    ∀ shape, ∀ r ∈ reportedAs mode text (before ++ [line]) shape,
      ∀ shape', ∀ r' ∈ reportedAs mode text (before ++ [line]) shape',
        ∀ names source target names', r.problem = .missing names →
          r'.problem ≠ .missingPropsFrom source target names' := by
  refine ⟨?_, fun shape c => Text.Line.mem_contributed_iff, line.map_fst_contributed_sublist,
    ?_, ?_⟩
  · rw [ofText, hlines, Nesting.readLines_append, Nesting.readLines, Nesting.readLine,
      Nesting.readShapes_eq_contributeAll]
  · intro shape r hr m hm hargument
    obtain ⟨rfl, hguard⟩ := of_mem_reportedAs hlines hr
    rw [hm, Problem.shape, if_pos hargument] at hguard
    exact hguard .typeMismatch rfl
  · intro shape r hr shape' r' hr' names source target names' hmissing hfrom
    obtain ⟨rfl, -⟩ := of_mem_reportedAs hlines hr
    obtain ⟨rfl, hguard⟩ := of_mem_reportedAs hlines hr'
    rw [hfrom] at hguard
    rw [hmissing] at hr
    have hnone := hguard .missingProperties rfl
    rw [Problem.shape, hnone] at hr
    cases hr

/-- Two lines that differ in one blank. Both say in the one way which properties are missing, and
the first one says it in the other way too, the one that takes precedence. -/
def missingTwice : String :=
  "Type 'S' is missing the following properties from type 'T': a\n" ++
    "Type 'S' is missing the following properties from type 'T':a"

theorem contributed_unless_preceded_missingTwice :
    let first : Line :=
      ⟨0, "Type 'S' is missing the following properties from type 'T': a".toList⟩
    let second : Line :=
      ⟨0, "Type 'S' is missing the following properties from type 'T':a".toList⟩
    Text.lines missingTwice.toList = [] ++ first :: [second] ∧
      Text.lines missingTwice.toList = [first] ++ second :: [] ∧
      Shape.missingPropsFrom.fields? first.text = some ["S", "T", "a"] ∧
      Shape.missingPropsFrom.fields? second.text = some ["S", "T", "a"] ∧
      (∀ c, (Shape.missingPropsFrom, c) ∉ first.contributed Shape.all []) ∧
      ∃ c, (Shape.missingPropsFrom, c) ∈ second.contributed Shape.all [] := by
  intro first second
  have hlines : Text.lines missingTwice.toList = [first, second] := by decide +kernel
  have hlines₁ : Text.lines missingTwice.toList = [] ++ first :: [second] := hlines
  have hlines₂ : Text.lines missingTwice.toList = [first] ++ second :: [] := hlines
  have hfirst : Shape.missingPropsFrom.fields? first.text = some ["S", "T", "a"] := by
    decide +kernel
  have hsecond : Shape.missingPropsFrom.fields? second.text = some ["S", "T", "a"] := by
    decide +kernel
  have hsome : Shape.missingProperties.fields? first.text = some ["a"] := by decide +kernel
  have hnone : Shape.missingProperties.fields? second.text = none := by decide +kernel
  obtain ⟨-, hcontributes, -⟩ := contributed_unless_preceded .indented hlines₁
  obtain ⟨-, hcontributes', -⟩ := contributed_unless_preceded .indented hlines₂
  refine ⟨hlines₁, hlines₂, hfirst, hsecond, ?_, _, (hcontributes' _ _).2 ⟨_, hsecond, rfl, ?_⟩⟩
  · intro c hc
    obtain ⟨fields, -, -, hguard⟩ := (hcontributes _ _).1 hc
    rw [hguard .missingProperties rfl] at hsome
    cases hsome
  · intro guard hunless
    rw [← Option.some.inj hunless]
    exact hnone

end Record

end Diagnosis
