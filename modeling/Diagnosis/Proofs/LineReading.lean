import Diagnosis.Proofs.QuotedName
import Diagnosis.Reading

/-!
# What a line does

Reading a line keeps a list of the shapes that the line is known to have, and tests precedence
against that list. Here the list is shown to hold nothing that the line itself does not tell: what a
line contributes as one of a shape is a function of its text (`Shape.contribution?`), since a shape
that takes precedence is always tried earlier.

Only the first shape enters a property. So a line leaves the properties that do not enclose it,
enters at most one, and then reports everything at one and the same path (`Nesting.readLine_eq`).
-/

namespace Diagnosis

open Text (Line)

/-! ## Precedence -/

/-- What a text contributes as one of a shape: nothing if it has the shape that takes precedence. -/
def Shape.contribution? (shape : Shape) (text : List Char) : Option Contribution :=
  if shape.rule.unless?.any fun guard => (guard.fields? text).isSome then none
  else (shape.fields? text).map shape.rule.contribution

theorem Shape.pairwise_unless :
    Shape.all.Pairwise fun earlier later => earlier.rule.unless? ≠ some later := by
  decide

theorem Shape.unless_ne_self (shape : Shape) : shape.rule.unless? ≠ some shape := by
  cases shape <;> simp [rule]

/-- A shape that takes precedence over another one is tried before it. -/
theorem Shape.mem_before_of_unless {before rest : List Shape} {shape guard : Shape}
    (hall : Shape.all = before ++ shape :: rest) (hg : shape.rule.unless? = some guard) :
    guard ∈ before := by
  have hmem := Shape.mem_all guard
  have hpair := Shape.pairwise_unless
  rw [hall] at hmem hpair
  rcases List.mem_append.1 hmem with h | h
  · exact h
  · rcases List.mem_cons.1 h with rfl | h
    · exact absurd hg (Shape.unless_ne_self guard)
    · have hlater := (List.pairwise_cons.1 (List.pairwise_append.1 hpair).2.1).1
      exact absurd hg (hlater guard h)

/-- What a line contributes, shape by shape in the order in which the shapes are tried. -/
def Text.Line.contributions (line : Line) : List (Shape × Contribution) :=
  Shape.all.filterMap fun shape => (shape.contribution? line.text).map (shape, ·)

/-! ## The shapes that a line is known to have -/

/-- Whether a list holds just those of the shapes tried so far that a line has. -/
def Text.Line.Knows (line : Line) (tried known : List Shape) : Prop :=
  ∀ s, s ∈ known ↔ s ∈ tried ∧ (s.fields? line.text).isSome = true

namespace Text.Line.Knows

variable {line : Line} {tried known : List Shape} {shape : Shape}

theorem concat_of_none (h : line.Knows tried known) (hf : shape.fields? line.text = none) :
    line.Knows (tried ++ [shape]) known := by
  intro s
  rw [h, List.mem_append, List.mem_singleton]
  constructor
  · rintro ⟨hs, hsome⟩
    exact ⟨Or.inl hs, hsome⟩
  · rintro ⟨hs | rfl, hsome⟩
    · exact ⟨hs, hsome⟩
    · simp [hf] at hsome

theorem concat_of_some (h : line.Knows tried known) {fields : Fields}
    (hf : shape.fields? line.text = some fields) :
    line.Knows (tried ++ [shape]) (shape :: known) := by
  intro s
  rw [List.mem_cons, h, List.mem_append, List.mem_singleton]
  constructor
  · rintro (rfl | ⟨hs, hsome⟩)
    · exact ⟨Or.inr rfl, by simp [hf]⟩
    · exact ⟨Or.inl hs, hsome⟩
  · rintro ⟨hs | rfl, hsome⟩
    · exact Or.inr ⟨hs, hsome⟩
    · exact Or.inl rfl

/-- The shape that takes precedence has been tried before, so the list tells whether the line has
it. -/
theorem any_unless {before rest : List Shape} (h : line.Knows (before ++ [shape]) known)
    (hall : Shape.all = before ++ shape :: rest) :
    shape.rule.unless?.any known.contains =
      shape.rule.unless?.any fun guard => (guard.fields? line.text).isSome := by
  cases hu : shape.rule.unless? with
  | none => rfl
  | some guard =>
    have hbefore := Shape.mem_before_of_unless hall hu
    rw [Option.any_some, Option.any_some, Bool.eq_iff_iff, List.contains_iff_mem, h]
    constructor
    · exact fun hguard => hguard.2
    · exact fun hguard => ⟨List.mem_append_left _ hbefore, hguard⟩

end Text.Line.Knows

/-! ## Trying a line for shapes -/

/-- What a line contributes while it is tried for shapes, given the shapes that it is known to have:
each shape with its contribution, unless the shape that takes precedence is known by then. -/
def Text.Line.contributed (line : Line) : List Shape → List Shape → List (Shape × Contribution)
  | [], _ => []
  | shape :: rest, known =>
    match shape.fields? line.text with
    | none => contributed line rest known
    | some fields =>
      if shape.rule.unless?.any (shape :: known).contains then
        contributed line rest (shape :: known)
      else (shape, shape.rule.contribution fields) :: contributed line rest (shape :: known)

/-- The shapes that are left contribute what they contribute on their own. -/
theorem Text.Line.Knows.contributed_eq {line : Line} {tried shapes known : List Shape}
    (hknown : line.Knows tried known) (hall : Shape.all = tried ++ shapes) :
    line.contributed shapes known =
      shapes.filterMap fun s => (s.contribution? line.text).map (s, ·) := by
  induction shapes generalizing tried known with
  | nil => rfl
  | cons shape rest ih =>
    have hall' : Shape.all = (tried ++ [shape]) ++ rest := by simpa using hall
    cases hf : shape.fields? line.text with
    | none =>
      have hnone : shape.contribution? line.text = none := by simp [Shape.contribution?, hf]
      simp only [contributed, hf, List.filterMap_cons, hnone, Option.map_none]
      exact ih (hknown.concat_of_none hf) hall'
    | some fields =>
      have hknown' := hknown.concat_of_some hf
      have hguard := hknown'.any_unless hall
      by_cases hsup : shape.rule.unless?.any fun guard => (guard.fields? line.text).isSome
      · have hnone : shape.contribution? line.text = none := by
          simp only [Shape.contribution?, hsup, if_true]
        simp only [contributed, hf, hguard, hsup, if_true, List.filterMap_cons, hnone,
          Option.map_none]
        exact ih hknown' hall'
      · have hsome : shape.contribution? line.text = some (shape.rule.contribution fields) := by
          simp only [Shape.contribution?, hsup, hf, Option.map_some, Bool.false_eq_true, if_false]
        simp only [contributed, hf, hguard, hsup, Bool.false_eq_true, if_false,
          List.filterMap_cons, hsome, Option.map_some]
        rw [ih hknown' hall']

/-- Tried for all shapes, a line contributes what it contributes as one of each. -/
theorem Text.Line.contributed_all (line : Line) :
    line.contributed Shape.all [] = line.contributions := by
  have hknown : line.Knows [] [] := by simp [Knows]
  exact hknown.contributed_eq (List.nil_append Shape.all).symm

namespace Nesting

/-- Adds contributions of a line one after the other: the nesting after them and the events. -/
def contributeAll (indent : Nat) : Nesting → List (Shape × Contribution) → Nesting × List Event
  | nesting, [] => (nesting, [])
  | nesting, (shape, contribution) :: rest =>
    let here := nesting.contribute indent shape.rule.scope contribution
    let later := contributeAll indent here.1 rest
    (later.1, here.2 ++ later.2)

/-- Trying a line for shapes adds what the line contributes in the course of it. -/
theorem readShapes_eq_contributeAll (line : Line) (shapes known : List Shape) (nesting : Nesting) :
    readShapes line shapes known nesting =
      nesting.contributeAll line.indent (line.contributed shapes known) := by
  induction shapes generalizing known nesting with
  | nil => rfl
  | cons shape rest ih =>
    cases hf : shape.fields? line.text with
    | none =>
      simp only [readShapes, Text.Line.contributed, hf]
      exact ih known nesting
    | some fields =>
      by_cases hsup : shape.rule.unless?.any (shape :: known).contains = true
      · simp only [readShapes, Text.Line.contributed, hf, hsup, if_true]
        exact ih (shape :: known) nesting
      · simp only [readShapes, Text.Line.contributed, hf, hsup, Bool.false_eq_true, if_false,
          contributeAll]
        rw [ih]

end Nesting

/-! ## One path for a line -/

/-- The property that a line enters. -/
def Text.Line.entered? (line : Line) : Option String :=
  (Shape.propertyIncompatible.fields? line.text).map fun fields => fields.text 0

/-- A line enters the first property whose types it calls incompatible. -/
theorem Text.Line.entered?_eq_some_iff {line : Line} {property : String} :
    line.entered? = some property ↔
      FirstQuotes "Types of property " " are incompatible" property line.text :=
  Wording.map_text_find?_between_eq_some_iff

/-- The record of a finding on a line with the given path. -/
def Finding.recordAt (scope : Scope) (path : List String) (finding : Finding) : Record :=
  let place := match scope with
    | .current => path
    | .root => []
  { path := place ++ finding.property.toList, problem := finding.problem }

theorem Finding.record_eq_recordAt (scope : Scope) (nesting : Nesting) (finding : Finding) :
    finding.record scope nesting = finding.recordAt scope nesting.path := rfl

/-- The events of a contribution on a line with the given path. -/
def Contribution.eventsAt (scope : Scope) (path : List String) : Contribution → List Event
  | .enter _ => []
  | .report findings => findings.map fun finding => .record (finding.recordAt scope path)
  | .suggest name => [.suggestion name]

@[simp] theorem Contribution.eventsAt_enter (scope : Scope) (path : List String)
    (property : String) : (enter property).eventsAt scope path = [] := rfl

/-- The events of a line with the given path. -/
def Text.Line.eventsAt (path : List String) (line : Line) : List Event :=
  line.contributions.flatMap fun c => c.2.eventsAt c.1.rule.scope path

theorem Shape.eq_propertyIncompatible_of_enter {shape : Shape} {fields : Fields}
    {property : String} (h : shape.rule.contribution fields = .enter property) :
    shape = .propertyIncompatible := by
  cases shape <;> simp only [rule, Contribution.problem, reduceCtorEq] at h ⊢
  split at h <;> simp at h

theorem Shape.eq_didYouMean_of_suggest {shape : Shape} {fields : Fields} {name : String}
    (h : shape.rule.contribution fields = .suggest name) : shape = .didYouMean := by
  cases shape <;> simp only [rule, Contribution.problem, reduceCtorEq] at h ⊢
  split at h <;> simp at h

theorem Shape.contribution?_eq_some {shape : Shape} {text : List Char} {c : Contribution}
    (h : shape.contribution? text = some c) :
    ∃ fields, shape.fields? text = some fields ∧ shape.rule.contribution fields = c := by
  rw [contribution?] at h
  split at h
  · cases h
  · exact Option.map_eq_some_iff.1 h

theorem Shape.contribution?_propertyIncompatible (line : Line) :
    Shape.propertyIncompatible.contribution? line.text = line.entered?.map .enter := by
  rw [Text.Line.entered?, Option.map_map]
  rfl

/-- The contributions of a line: the property that it enters comes first, and no other
contribution enters one. -/
theorem Text.Line.contributions_eq (line : Line) :
    ∃ others, line.contributions =
        (line.entered?.map fun p => (Shape.propertyIncompatible, Contribution.enter p)).toList ++
          others ∧
      ∀ c ∈ others, ∀ property, c.2 ≠ .enter property := by
  refine ⟨Shape.all.tail.filterMap fun shape => (shape.contribution? line.text).map (shape, ·),
    ?_, ?_⟩
  · rw [contributions]
    show List.filterMap _ (Shape.propertyIncompatible :: Shape.all.tail) = _
    rw [List.filterMap_cons, Shape.contribution?_propertyIncompatible]
    cases line.entered? <;> rfl
  · intro c hc property henter
    obtain ⟨shape, hshape, hsome⟩ := List.mem_filterMap.1 hc
    obtain ⟨contribution, hcontribution, rfl⟩ := Option.map_eq_some_iff.1 hsome
    obtain ⟨fields, -, hfields⟩ := Shape.contribution?_eq_some hcontribution
    have hfirst := Shape.eq_propertyIncompatible_of_enter (hfields.trans henter)
    rw [hfirst] at hshape
    exact absurd hshape (by decide)

namespace Nesting

/-- The nesting after the properties that do not enclose an indentation have been left and at most
one property has been entered there. -/
def visit (nesting : Nesting) (indent : Nat) : Option String → Nesting
  | some property => (nesting.atIndent indent).enter indent property
  | none => nesting.atIndent indent

/-- The nesting on a line: the properties that enclose the line, and the one that it enters. -/
def arrive (nesting : Nesting) (line : Line) : Nesting := nesting.visit line.indent line.entered?

theorem contributeAll_of_not_enter (indent : Nat) (nesting : Nesting)
    {cs : List (Shape × Contribution)} (h : ∀ c ∈ cs, ∀ property, c.2 ≠ .enter property) :
    nesting.contributeAll indent cs =
      (nesting, cs.flatMap fun c => c.2.eventsAt c.1.rule.scope nesting.path) := by
  induction cs with
  | nil => rfl
  | cons c rest ih =>
    obtain ⟨shape, contribution⟩ := c
    have hrest := ih fun c hc => h c (List.mem_cons_of_mem _ hc)
    cases contribution with
    | enter property => exact absurd rfl (h _ List.mem_cons_self property)
    | report findings => simp [contributeAll, contribute, hrest, Contribution.eventsAt,
        Finding.record_eq_recordAt]
    | suggest name => simp [contributeAll, contribute, hrest, Contribution.eventsAt]

/-- Reading a line leaves the properties that do not enclose it, enters the one that the line names
and reports all that the line says at the path reached by that. -/
theorem readLine_eq (nesting : Nesting) (line : Line) :
    nesting.readLine line = (nesting.arrive line, line.eventsAt (nesting.arrive line).path) := by
  obtain ⟨others, hcs, hothers⟩ := line.contributions_eq
  rw [readLine, readShapes_eq_contributeAll, Text.Line.contributed_all, Text.Line.eventsAt, hcs,
    arrive]
  unfold visit
  cases line.entered? with
  | none => exact contributeAll_of_not_enter _ _ hothers
  | some property =>
    simp only [Option.map_some, Option.toList_some, List.cons_append, List.nil_append,
      List.flatMap_cons, Contribution.eventsAt_enter, contributeAll, contribute]
    rw [contributeAll_of_not_enter _ _ hothers]

theorem readLines_cons (nesting : Nesting) (line : Line) (rest : List Line) :
    nesting.readLines (line :: rest) =
      (((nesting.arrive line).readLines rest).1,
        line.eventsAt (nesting.arrive line).path ++ ((nesting.arrive line).readLines rest).2) := by
  simp only [readLines, readLine_eq]

theorem fst_readLines (nesting : Nesting) (ls : List Line) :
    (nesting.readLines ls).1 = ls.foldl arrive nesting := by
  induction ls generalizing nesting with
  | nil => rfl
  | cons line rest ih => rw [readLines_cons, List.foldl_cons, ih]

theorem snd_readLines_append (nesting : Nesting) (first second : List Line) :
    (nesting.readLines (first ++ second)).2 =
      (nesting.readLines first).2 ++ ((first.foldl arrive nesting).readLines second).2 := by
  rw [readLines_append, ← fst_readLines nesting first]

end Nesting

/-! ## What is reported where -/

/-- What a problem is about. Names, modules, declarations and syntax concern the diagnostic as a
whole, all else the property of its place. -/
def Problem.scope : Problem → Scope
  | cannotFindName _ | cannotFindModule _ | implicitAny _ | usedBeforeAssigned _
  | noInitializer _ | typeAsValue _ | valueAsType _ | syntaxExpected _ => .root
  | _ => .current

theorem Finding.ofTypes_ne_nil (source target : String) : ofTypes source target ≠ [] := by
  unfold ofTypes
  split
  · simp
  · assumption

/-- What is found on two types that do not fit is a mismatch, and not one of an argument. -/
theorem Finding.exists_mismatch_of_mem_ofTypes {source target : String} {finding : Finding}
    (h : finding ∈ ofTypes source target) :
    ∃ m, finding.problem = .typeMismatch m ∧ m.isArgument = false := by
  unfold ofTypes at h
  split at h
  · rw [List.mem_singleton.1 h]
    exact ⟨_, rfl, rfl⟩
  · unfold arrayMismatches at h
    split at h
    · obtain ⟨s, -, hs⟩ := List.mem_filterMap.1 h
      unfold arrayMismatch? at hs
      split at hs
      · obtain ⟨-, hfinding⟩ := Option.ite_none_right_eq_some.1 hs
        rw [← Option.some.inj hfinding]
        exact ⟨_, rfl, rfl⟩
      · cases hs
    · cases h

theorem Finding.scope_of_mem_ofTypes {source target : String} {finding : Finding}
    (h : finding ∈ ofTypes source target) : finding.problem.scope = .current := by
  obtain ⟨m, hm, -⟩ := exists_mismatch_of_mem_ofTypes h
  rw [hm]
  rfl

/-- A line that reports has two types that do not fit, or reports one problem, which is about what
the line's shape says. -/
theorem Shape.report_cases {shape : Shape} {fields : Fields} {findings : List Finding}
    (h : shape.rule.contribution fields = .report findings) :
    (shape = .typeMismatch ∧ findings = Finding.ofTypes (fields.text 0) (fields.text 1)) ∨
      ∃ p : Problem, findings = [{ problem := p }] ∧ p.scope = shape.rule.scope := by
  cases shape with
  | typeMismatch => exact Or.inl ⟨rfl, (Contribution.report.inj h).symm⟩
  | propertyIncompatible => cases h
  | didYouMean => cases h
  | argumentCount =>
    simp only [rule, Contribution.problem] at h
    split at h <;> exact Or.inr ⟨_, (Contribution.report.inj h).symm, rfl⟩
  | _ => exact Or.inr ⟨_, (Contribution.report.inj h).symm, rfl⟩

theorem Shape.report_ne_nil {shape : Shape} {fields : Fields} {findings : List Finding}
    (h : shape.rule.contribution fields = .report findings) : findings ≠ [] := by
  rcases Shape.report_cases h with ⟨-, rfl⟩ | ⟨p, rfl, -⟩
  · exact Finding.ofTypes_ne_nil _ _
  · simp

theorem Shape.scope_of_report {shape : Shape} {fields : Fields} {findings : List Finding}
    (h : shape.rule.contribution fields = .report findings) {finding : Finding}
    (hf : finding ∈ findings) : finding.problem.scope = shape.rule.scope := by
  rcases Shape.report_cases h with ⟨rfl, rfl⟩ | ⟨p, rfl, hp⟩
  · rw [Finding.scope_of_mem_ofTypes hf]
    rfl
  · rw [List.mem_singleton.1 hf]
    exact hp

theorem Shape.property_of_report {shape : Shape} {fields : Fields} {findings : List Finding}
    (h : shape.rule.contribution fields = .report findings) (hs : shape.rule.scope = .root)
    {finding : Finding} (hf : finding ∈ findings) : finding.property = none := by
  rcases Shape.report_cases h with ⟨rfl, -⟩ | ⟨p, rfl, -⟩
  · cases hs
  · rw [List.mem_singleton.1 hf]

theorem Shape.property_of_kinded {shape : Shape} {fields : Fields} {findings : List Finding}
    (h : shape.rule.contribution fields = .report findings) {finding : Finding}
    (hf : finding ∈ findings) (hkind : finding.problem.mismatch? = none) :
    finding.property = none := by
  rcases Shape.report_cases h with ⟨-, rfl⟩ | ⟨p, rfl, -⟩
  · obtain ⟨m, hm, -⟩ := Finding.exists_mismatch_of_mem_ofTypes hf
    rw [hm] at hkind
    cases hkind
  · rw [List.mem_singleton.1 hf]

end Diagnosis
