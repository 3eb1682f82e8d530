import Diagnosis.Proofs.Placement
import Diagnosis.Proofs.Sighting

/-!
# One text after another

What is read from a text is read again when a second text follows on lines of its own, and the
second text is read as it would be alone, but for two things that cross the line between them. The
names that the second text suggests before its first problem go to the last problem of the first
text, and the properties that are still entered stand in front of the paths. In the monotonic mode
these are all the properties that the first text has entered.
-/

namespace Diagnosis

open Text (Line)

/-! ## Suggestions before the first problem -/

/-- The names suggested before anything is reported. -/
def Contribution.leadingNames : List Contribution → List String
  | [] => []
  | suggest name :: rest => name :: leadingNames rest
  | enter _ :: rest => leadingNames rest
  | report _ :: _ => []

/-- The names that lines suggest before their first problem, line by line and on each line in the
order in which the shapes are tried. -/
def leadingSuggestions (ls : List Line) : List String :=
  Contribution.leadingNames (ls.flatMap fun line => line.contributions.map Prod.snd)

namespace Event

/-- The leading names among the events of contributions are those of the contributions, since a
report is never empty. -/
theorem leadingNames_flatMap_eventsAt {cs : List (Shape × Contribution)}
    (h : ∀ c ∈ cs, c.2 ≠ .report []) :
    leadingNames (cs.flatMap fun c => c.2.eventsAt c.1.rule.scope []) =
      Contribution.leadingNames (cs.map Prod.snd) := by
  induction cs with
  | nil => rfl
  | cons c rest ih =>
    obtain ⟨shape, contribution⟩ := c
    have hrest := ih fun c hc => h c (List.mem_cons_of_mem _ hc)
    cases contribution with
    | enter property => exact hrest
    | suggest name => exact congrArg (name :: ·) hrest
    | report findings =>
      cases findings with
      | nil => exact absurd rfl (h _ List.mem_cons_self)
      | cons finding findings => rfl

end Event

/-- The names that lines suggest before their first problem do not depend on the nesting. -/
theorem Nesting.leadingNames_readLines (nesting : Nesting) (ls : List Line) :
    Event.leadingNames (nesting.readLines ls).2 = leadingSuggestions ls := by
  have hreports : ∀ c ∈ ls.flatMap Text.Line.contributions, c.2 ≠ .report [] := by
    intro c hc hempty
    obtain ⟨line, -, hmem⟩ := List.mem_flatMap.1 hc
    obtain ⟨fields, -, hfields⟩ := Text.Line.exists_fields_of_mem_contributions hmem
    exact Shape.report_ne_nil (hfields.trans hempty) rfl
  have hmap := congrArg Event.leadingNames (nesting.map_unplaced_readLines ls)
  rw [Event.leadingNames_mapRecord, Event.leadingNames_mapRecord] at hmap
  have hlines : ls.flatMap (Text.Line.eventsAt []) =
      (ls.flatMap Text.Line.contributions).flatMap fun c => c.2.eventsAt c.1.rule.scope [] := by
    rw [List.flatMap_assoc]
    rfl
  rw [hmap, hlines, Event.leadingNames_flatMap_eventsAt hreports, leadingSuggestions,
    List.map_flatMap]

/-! ## The properties that stay entered -/

/-- In the monotonic mode lines put the properties that they enter at the end of the path. -/
theorem Nesting.foldl_arrive_monotonic (segments : List Segment) (ls : List Line) :
    (ls.foldl arrive ⟨.monotonic, segments⟩).path =
      path ⟨.monotonic, segments⟩ ++ ls.filterMap Text.Line.entered? := by
  induction ls generalizing segments with
  | nil => simp
  | cons line rest ih =>
    rw [List.foldl_cons, arrive_eq, ih, ← arrive_eq, arrive, List.filterMap_cons]
    cases line.entered? with
    | none => rfl
    | some property =>
      simp only [visit, atIndent_monotonic, path_enter, List.append_assoc]
      rfl

theorem Nesting.path_after_monotonic (ls : List Line) :
    (after .monotonic ls).path = ls.filterMap Text.Line.entered? := by
  rw [after, foldl_arrive_monotonic]
  rfl

/-! ## Records -/

namespace Record

theorem ofLines_append (mode : PathMode) (first second : List Line) :
    ofLines mode (first ++ second) =
      suggestLast (leadingSuggestions second).getLast? (ofLines mode first) ++
        ofEvents ((Nesting.after mode first).readLines second).2 := by
  rw [ofLines, Nesting.snd_readLines_append, ofEvents_append, Nesting.leadingNames_readLines]
  rfl

theorem lines_append_newline (a b : String) :
    Text.lines (a ++ "\n" ++ b).toList = Text.lines a.toList ++ Text.lines b.toList := by
  rw [← Text.lines_append]
  simp

end Record

end Diagnosis
