import Diagnosis.Proofs.LineReading
import Diagnosis.Proofs.Suggestion
import Mathlib.Data.List.Basic

/-!
# Reading below properties

What a line says does not depend on where it stands: the nesting in which lines are read decides the
paths of their problems and nothing else (`Nesting.map_unplaced_readLines`).

The paths are told as well. If some properties stay entered throughout, because nothing is ever left
or because all the lines are indented deeper, the lines are read as they would be without these
properties, and then the names of the properties are put in front of the paths
(`Nesting.readLines_append_base`).
-/

namespace Diagnosis

open Text (Line)

namespace Record

/-- The record without its path. -/
def unplaced (r : Record) : Record := { r with path := [] }

/-- The record as it is found below a path: a problem about the property of its place gets the path
in front of its own, a problem about the whole diagnostic stays as it is. -/
def below (base : List String) (r : Record) : Record :=
  match r.problem.scope with
  | .current => { r with path := base ++ r.path }
  | .root => r

theorem unplaced_below (base : List String) (r : Record) :
    (r.below base).unplaced = r.unplaced := by
  unfold below
  split <;> rfl

theorem below_suggestion (base : List String) (r : Record) (suggestion : Option String) :
    below base { r with suggestion } = { below base r with suggestion } := by
  unfold below
  dsimp only
  split <;> rfl

theorem below_eq_self_iff {base : List String} (hbase : base ≠ []) {r : Record} :
    r.below base = r ↔ r.problem.scope = .root := by
  unfold below
  cases hr : r.problem.scope with
  | root => simp
  | current =>
    constructor
    · intro h
      have hpath : base ++ r.path = r.path := congrArg Record.path h
      exact absurd (List.append_left_eq_self.1 hpath) hbase
    · intro h
      cases h

end Record

theorem Finding.recordAt_append {scope : Scope} {finding : Finding}
    (h : finding.problem.scope = scope) (base path : List String) :
    finding.recordAt scope (base ++ path) = (finding.recordAt scope path).below base := by
  subst h
  unfold recordAt Record.below
  cases finding.problem.scope <;> simp

theorem Shape.eventsAt_append {shape : Shape} {fields : Fields} (base path : List String) :
    (shape.rule.contribution fields).eventsAt shape.rule.scope (base ++ path) =
      ((shape.rule.contribution fields).eventsAt shape.rule.scope path).map
        (Event.mapRecord (Record.below base)) := by
  cases hc : shape.rule.contribution fields with
  | enter property => rfl
  | suggest name => rfl
  | report findings =>
    simp only [Contribution.eventsAt, List.map_map]
    refine List.map_congr_left fun finding hf => ?_
    have hscope := Shape.scope_of_report hc hf
    simp only [Function.comp_apply, Event.mapRecord, Finding.recordAt_append hscope]

theorem Text.Line.exists_fields_of_mem_contributions {line : Line} {shape : Shape}
    {contribution : Contribution} (h : (shape, contribution) ∈ line.contributions) :
    ∃ fields, shape.fields? line.text = some fields ∧
      shape.rule.contribution fields = contribution := by
  obtain ⟨shape', -, hsome⟩ := List.mem_filterMap.1 h
  obtain ⟨contribution', hcontribution, heq⟩ := Option.map_eq_some_iff.1 hsome
  obtain ⟨rfl, rfl⟩ := Prod.mk.inj heq
  exact Shape.contribution?_eq_some hcontribution

/-- A line below a longer path has the same events, placed below the path in front. -/
theorem Text.Line.eventsAt_append (base path : List String) (line : Line) :
    line.eventsAt (base ++ path) =
      (line.eventsAt path).map (Event.mapRecord (Record.below base)) := by
  rw [eventsAt, eventsAt, List.map_flatMap]
  refine List.flatMap_congr fun c hc => ?_
  obtain ⟨fields, -, hfields⟩ := exists_fields_of_mem_contributions hc
  rw [← hfields]
  exact Shape.eventsAt_append base path

theorem Text.Line.map_unplaced_eventsAt (path : List String) (line : Line) :
    (line.eventsAt path).map (Event.mapRecord Record.unplaced) =
      (line.eventsAt []).map (Event.mapRecord Record.unplaced) := by
  have happend := line.eventsAt_append path []
  rw [List.append_nil] at happend
  rw [happend, List.map_map]
  refine List.map_congr_left fun event _ => ?_
  cases event with
  | record r => simp [Event.mapRecord, Record.unplaced_below]
  | suggestion name => rfl

namespace Nesting

/-- Lines have the same events in every nesting up to their paths. -/
theorem map_unplaced_readLines (nesting : Nesting) (ls : List Line) :
    (nesting.readLines ls).2.map (Event.mapRecord Record.unplaced) =
      (ls.flatMap (Text.Line.eventsAt [])).map (Event.mapRecord Record.unplaced) := by
  induction ls generalizing nesting with
  | nil => rfl
  | cons line rest ih =>
    rw [readLines_cons, List.flatMap_cons, List.map_append, List.map_append, ih,
      line.map_unplaced_eventsAt]

/-- Whether properties stay entered while lines are read: nothing is ever left, or all the lines are
indented deeper. -/
def Keeps (mode : PathMode) (base : List Segment) (ls : List Line) : Prop :=
  mode = .monotonic ∨ ∀ line ∈ ls, ∀ s ∈ base, s.depth < line.indent

/-- Properties that a line does not leave play no part in what it does leave. -/
theorem atIndent_append_base {mode : PathMode} {base : List Segment} {indent : Nat}
    (h : mode = .monotonic ∨ ∀ s ∈ base, s.depth < indent) (segments : List Segment) :
    atIndent ⟨mode, segments ++ base⟩ indent =
      ⟨mode, (atIndent ⟨mode, segments⟩ indent).segments ++ base⟩ := by
  cases mode with
  | monotonic => rfl
  | indented =>
    have hbase : ∀ s ∈ base, s.depth < indent := h.resolve_left (by simp)
    have hkept : (base.dropWhile fun s => decide (indent ≤ s.depth)) = base := by
      cases base with
      | nil => rfl
      | cons s rest =>
        have hs := hbase s List.mem_cons_self
        exact List.dropWhile_cons_of_neg (by simp; omega)
    simp only [atIndent, List.dropWhile_append, hkept]
    split
    · next hempty => rw [List.isEmpty_iff.1 hempty]; rfl
    · rfl

theorem arrive_append_base {mode : PathMode} {base : List Segment} {line : Line}
    (h : mode = .monotonic ∨ ∀ s ∈ base, s.depth < line.indent) (segments : List Segment) :
    arrive ⟨mode, segments ++ base⟩ line =
      ⟨mode, (arrive ⟨mode, segments⟩ line).segments ++ base⟩ := by
  unfold arrive visit
  cases line.entered? with
  | none => exact atIndent_append_base h segments
  | some property =>
    simp only [atIndent_append_base h, enter]
    rfl

theorem arrive_eq (mode : PathMode) (segments : List Segment) (line : Line) :
    arrive ⟨mode, segments⟩ line = ⟨mode, (arrive ⟨mode, segments⟩ line).segments⟩ := by
  unfold arrive visit
  cases mode <;> cases line.entered? <;> rfl

theorem foldl_arrive_eq (mode : PathMode) (segments : List Segment) (ls : List Line) :
    ls.foldl arrive ⟨mode, segments⟩ = ⟨mode, (ls.foldl arrive ⟨mode, segments⟩).segments⟩ := by
  induction ls generalizing segments with
  | nil => rfl
  | cons line rest ih => rw [List.foldl_cons, arrive_eq, ← ih]

/-- Lines below properties that stay entered are read as without them, and what they report is
placed below the properties. -/
theorem readLines_append_base {mode : PathMode} {base : List Segment} {ls : List Line}
    (h : Keeps mode base ls) (segments : List Segment) :
    (readLines ⟨mode, segments ++ base⟩ ls).2 =
      (readLines ⟨mode, segments⟩ ls).2.map
        (Event.mapRecord (Record.below (path ⟨mode, base⟩))) := by
  induction ls generalizing segments with
  | nil => rfl
  | cons line rest ih =>
    have hline : mode = .monotonic ∨ ∀ s ∈ base, s.depth < line.indent :=
      h.imp_right fun hall => hall line List.mem_cons_self
    have hrest : Keeps mode base rest :=
      h.imp_right fun hall l hl => hall l (List.mem_cons_of_mem _ hl)
    have hpath : path ⟨mode, (arrive ⟨mode, segments⟩ line).segments ++ base⟩ =
        path ⟨mode, base⟩ ++ (arrive ⟨mode, segments⟩ line).path := by
      simp [path]
    rw [readLines_cons, readLines_cons, arrive_append_base hline, hpath, line.eventsAt_append,
      ih hrest, List.map_append, ← arrive_eq]

end Nesting

end Diagnosis
