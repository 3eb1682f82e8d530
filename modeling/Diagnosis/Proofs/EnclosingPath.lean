import Diagnosis.Proofs.Sighting

/-!
# Paths in the indented mode

In the indented mode a line only ever pops the nesting from its innermost end. Since a property is
entered after everything as deep has been left, the depths grow strictly from the outermost property
inwards (`Nesting.Ordered`), and on such a nesting popping from the end is the same as removing
every property that does not enclose the line.

It follows that the nesting after some lines can be told from the lines at once: a property is open
if every line after the one that entered it is indented deeper (`openSegments`). This is the path of
each record (`Record.indented_path_eq_enclosing`).
-/

namespace Diagnosis

open Text (Line)

namespace Nesting

/-- The properties get strictly deeper from the outermost one inwards. -/
def Ordered (segments : List Segment) : Prop :=
  segments.Pairwise fun inner outer => outer.depth < inner.depth

/-- Among ordered properties, those that do not enclose an indentation are the innermost ones. -/
theorem Ordered.dropWhile_eq_filter {segments : List Segment} (h : Ordered segments)
    (indent : Nat) :
    (segments.dropWhile fun s => decide (indent ≤ s.depth)) =
      segments.filter fun s => decide (s.depth < indent) := by
  induction segments with
  | nil => rfl
  | cons inner rest ih =>
    obtain ⟨hinner, hrest⟩ := List.pairwise_cons.1 h
    by_cases hd : indent ≤ inner.depth
    · have hd' : ¬ inner.depth < indent := by omega
      simp only [List.dropWhile_cons, hd, decide_true, if_true, List.filter_cons, hd', decide_false,
        Bool.false_eq_true, if_false]
      exact ih hrest
    · have hall : ∀ s ∈ inner :: rest, decide (s.depth < indent) = true := by
        intro s hs
        rcases List.mem_cons.1 hs with rfl | hs
        · simp; omega
        · have := hinner s hs
          simp; omega
      rw [List.dropWhile_cons_of_neg (by simpa using hd), List.filter_eq_self.2 hall]

/-- A visit leaves all properties but those of smaller depth, in their order, and enters its own. -/
theorem Ordered.visit {segments : List Segment} (h : Ordered segments) (indent : Nat)
    (property? : Option String) :
    Nesting.visit ⟨.indented, segments⟩ indent property? =
      ⟨.indented, (property?.map (Segment.mk indent)).toList ++
        segments.filter fun s => decide (s.depth < indent)⟩ := by
  cases property? <;> simp [Nesting.visit, atIndent, enter, h.dropWhile_eq_filter]

theorem Ordered.append_filter {segments : List Segment} (h : Ordered segments) (indent : Nat)
    (property? : Option String) :
    Ordered ((property?.map (Segment.mk indent)).toList ++
      segments.filter fun s => decide (s.depth < indent)) := by
  have hkept : Ordered (segments.filter fun s => decide (s.depth < indent)) :=
    List.Pairwise.sublist List.filter_sublist h
  cases property? with
  | none => exact hkept
  | some property =>
    refine List.pairwise_cons.2 ⟨?_, hkept⟩
    intro s hs
    simpa using (List.mem_filter.1 hs).2

end Nesting

/-! ## The properties that enclose a line -/

/-- The properties entered by lines that all later lines are indented deeper than, in the order of
the lines. -/
def openSegments : List Line → List Segment
  | [] => []
  | line :: later =>
    (if later.all fun l => decide (line.indent < l.indent) then
        (line.entered?.map (Segment.mk line.indent)).toList
      else []) ++ openSegments later

/-- The names of the properties that enclose the last of some lines, its own included. -/
def enclosing (ls : List Line) : List String := (openSegments ls).map Segment.property

/-- After some lines, the properties that were entered before remain if all the lines are deeper,
and the properties that the lines have entered remain if they enclose the last line. -/
theorem Nesting.Ordered.foldl_arrive {segments : List Segment} (h : Ordered segments)
    (ls : List Line) :
    ls.foldl arrive ⟨.indented, segments⟩ =
      ⟨.indented, (openSegments ls).reverse ++
        segments.filter fun s => ls.all fun l => decide (s.depth < l.indent)⟩ := by
  induction ls generalizing segments with
  | nil =>
    have hall : segments.filter (fun _ => true) = segments := List.filter_eq_self.2 (by simp)
    simp [openSegments, hall]
  | cons line rest ih =>
    rw [List.foldl_cons, arrive, h.visit, ih (h.append_filter _ _), openSegments,
      List.filter_append, List.filter_filter, List.reverse_append, List.append_assoc]
    congr 2
    cases line.entered? with
    | none => simp [Bool.and_comm]
    | some property =>
      by_cases hall : rest.all fun l => decide (line.indent < l.indent)
      · simp [hall, Bool.and_comm]
      · simp [hall, Bool.and_comm]

/-- In the indented mode the nesting after some lines is told by which of them enclose the last
one. -/
theorem Nesting.after_indented (ls : List Line) :
    after .indented ls = ⟨.indented, (openSegments ls).reverse⟩ := by
  have hempty : Ordered [] := List.Pairwise.nil
  rw [after, hempty.foldl_arrive, List.filter_nil, List.append_nil]

theorem Nesting.path_after_indented (ls : List Line) :
    (after .indented ls).path = enclosing ls := by
  rw [after_indented, path, enclosing, List.map_reverse, List.reverse_reverse]

/-! ## The path of a record -/

/-- In the indented mode the records of a text are those of its sightings, in order, and the path of
each is told by the lines up to its own. A problem of a shape about the property of its place has
the names of all properties whose lines enclose its own, in the order of the lines, and the name of
its own property after them if it has one. A problem of a shape about the whole diagnostic has the
empty path. The property of a line is the first one whose types the line calls incompatible. -/
theorem Record.indented_path_eq_enclosing (text : String) :
    (Record.ofText .indented text).map (fun r => (r.path, r.problem)) =
        (sightings (Text.lines text.toList)).map (fun s =>
          ((match s.shape.rule.scope with
            | .current => enclosing s.upTo
            | .root => []) ++ s.finding.property.toList, s.finding.problem)) ∧
      (∀ r ∈ Record.ofText .indented text, r.problem.scope = .root → r.path = []) ∧
      ∀ (line : Line) property, line.entered? = some property ↔
        Text.FirstQuotes "Types of property " " are incompatible" property line.text := by
  refine ⟨?_, fun r hr hroot => Record.path_of_mem_ofLines hr hroot,
    fun line property => Text.Line.entered?_eq_some_iff⟩
  have hmap := Record.map_ofLines (f := fun r => (r.path, r.problem)) (fun _ _ => rfl) .indented
    (Text.lines text.toList)
  refine hmap.trans (List.map_congr_left fun s _ => ?_)
  rw [Sighting.record, Nesting.path_after_indented]
  rfl

end Diagnosis
