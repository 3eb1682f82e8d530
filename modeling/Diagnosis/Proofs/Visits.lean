import Diagnosis.Proofs.EnclosingPath
import Mathlib.Data.List.Induction

/-!
# The properties that are left

In the indented mode each line leaves properties from the innermost one outwards, as long as the
innermost one is as deep as the line, and then enters at most one property at its own depth. Only
the innermost property is ever looked at. That this leaves every property that does not enclose the
line is due to the order in which properties lie above each other, and each line keeps that order
(`Nesting.exists_ordered_visited`).

What happens to the nesting depends on the depths and the names alone, so the lines are taken as
visits here. After further visits the nesting consists of two parts, one that the further visits
make up by themselves and one that is left of the nesting before
(`Nesting.segments_visited_append`). So a property that has been left does not come back.
-/

namespace Diagnosis

/-- What a line does to the nesting: it arrives at an indentation and may enter a property there. -/
structure Visit where
  /-- The indentation. -/
  indent : Nat
  /-- The name of the property that is entered. -/
  property? : Option String := none
  deriving DecidableEq

/-- The property that a visit enters. -/
def Visit.entered? (v : Visit) : Option Segment := v.property?.map (Segment.mk v.indent)

/-- The visit of a line. -/
def Text.Line.toVisit (line : Line) : Visit := ⟨line.indent, line.entered?⟩

namespace Nesting

/-- The nesting in the indented mode after some visits. -/
def visited (vs : List Visit) : Nesting :=
  vs.foldl (fun nesting v => nesting.visit v.indent v.property?) { mode := .indented }

theorem visited_concat (vs : List Visit) (v : Visit) :
    visited (vs ++ [v]) = (visited vs).visit v.indent v.property? := by
  rw [visited, visited, List.foldl_append, List.foldl_cons, List.foldl_nil]

/-- Lines that are read are visits. -/
theorem fst_readLines_indented (ls : List Text.Line) :
    (readLines { mode := .indented } ls).1 = visited (ls.map Text.Line.toVisit) := by
  rw [fst_readLines, visited, List.foldl_map]
  rfl

/-- Every visit finds the properties in order and leaves them in order. -/
theorem exists_ordered_visited (vs : List Visit) :
    ∃ segments, visited vs = ⟨.indented, segments⟩ ∧ Ordered segments := by
  induction vs using List.reverseRecOn with
  | nil => exact ⟨[], rfl, List.Pairwise.nil⟩
  | append_singleton vs v ih =>
    obtain ⟨segments, hvs, hordered⟩ := ih
    refine ⟨_, ?_, hordered.append_filter v.indent v.property?⟩
    rw [visited_concat, hvs, hordered.visit]

theorem ordered_visited (vs : List Visit) : Ordered (visited vs).segments := by
  obtain ⟨segments, hvs, hordered⟩ := exists_ordered_visited vs
  rwa [hvs]

theorem segments_atIndent_visited (vs : List Visit) (indent : Nat) :
    ((visited vs).atIndent indent).segments =
      (visited vs).segments.filter fun s => decide (s.depth < indent) := by
  obtain ⟨segments, hvs, hordered⟩ := exists_ordered_visited vs
  rw [hvs]
  exact hordered.dropWhile_eq_filter indent

theorem segments_visited_concat (vs : List Visit) (v : Visit) :
    (visited (vs ++ [v])).segments =
      v.entered?.toList ++ (visited vs).segments.filter fun s => decide (s.depth < v.indent) := by
  obtain ⟨segments, hvs, hordered⟩ := exists_ordered_visited vs
  rw [visited_concat, hvs, hordered.visit]
  rfl

/-- After further visits a property that was there before is there if it encloses all of them, and
everything else is as if there had been no earlier visits. -/
theorem segments_visited_append (vs later : List Visit) :
    (visited (vs ++ later)).segments = (visited later).segments ++
      (visited vs).segments.filter fun s => later.all fun v => decide (s.depth < v.indent) := by
  induction later using List.reverseRecOn with
  | nil =>
    have hall : (visited vs).segments.filter (fun _ => true) = (visited vs).segments :=
      List.filter_eq_self.2 fun _ _ => rfl
    rw [List.append_nil]
    exact hall.symm
  | append_singleton later v ih =>
    rw [← List.append_assoc, segments_visited_concat, segments_visited_concat, ih,
      List.filter_append, List.filter_filter, List.append_assoc]
    simp only [List.all_append, List.all_cons, List.all_nil, Bool.and_true,
      Bool.and_comm (later.all _)]

theorem exists_visit_of_mem_visited {vs : List Visit} {s : Segment}
    (h : s ∈ (visited vs).segments) : ∃ v ∈ vs, v.entered? = some s := by
  induction vs using List.reverseRecOn with
  | nil => cases h
  | append_singleton vs v ih =>
    rw [segments_visited_concat, List.mem_append, Option.mem_toList] at h
    rcases h with h | h
    · exact ⟨v, List.mem_append_right _ (List.mem_singleton_self v), h⟩
    · obtain ⟨w, hw, hs⟩ := ih (List.mem_filter.1 h).1
      exact ⟨w, List.mem_append_left _ hw, hs⟩

/-- A property that a visit has left is there later only if it has been entered anew. -/
theorem exists_visit_of_left {vs later : List Visit} {s : Segment} {v : Visit}
    (hleft : s ∉ ((visited vs).atIndent v.indent).segments)
    (hlater : s ∈ (visited (vs ++ v :: later)).segments) :
    ∃ w ∈ v :: later, w.entered? = some s := by
  rw [segments_visited_append, List.mem_append] at hlater
  rcases hlater with hnew | hkept
  · exact exists_visit_of_mem_visited hnew
  · obtain ⟨hs, hall⟩ := List.mem_filter.1 hkept
    rw [List.all_cons, Bool.and_eq_true] at hall
    rw [segments_atIndent_visited] at hleft
    exact absurd (List.mem_filter.2 ⟨hs, hall.1⟩) hleft

/-- Reading lines in the indented mode leads to the nesting after their visits. After any visits the
depths of the properties grow strictly from the outermost one inwards, so no two are equal. A line
then keeps just the properties that are less deep than its indentation, in their order. Further
visits lead to the properties that they would lead to alone, all of which they enter themselves,
below those of the earlier properties that enclose every further visit. So a property that a visit
leaves is there afterwards only if that visit or a later one enters it. -/
theorem visited_in_order :
    (∀ ls : List Text.Line,
      (readLines { mode := .indented } ls).1 = visited (ls.map Text.Line.toVisit)) ∧
    ∀ vs : List Visit,
      ((visited vs).segments.reverse.map Segment.depth).Pairwise (· < ·) ∧
      ((visited vs).segments.map Segment.depth).Nodup ∧
      (∀ indent, ((visited vs).atIndent indent).segments =
        (visited vs).segments.filter fun s => decide (s.depth < indent)) ∧
      (∀ later, (visited (vs ++ later)).segments = (visited later).segments ++
          (visited vs).segments.filter (fun s => later.all fun v => decide (s.depth < v.indent)) ∧
        ∀ s ∈ (visited later).segments, ∃ v ∈ later, v.entered? = some s) ∧
      ∀ s v later, s ∈ (visited vs).segments →
        s ∉ ((visited vs).atIndent v.indent).segments →
        s ∈ (visited (vs ++ v :: later)).segments → ∃ w ∈ v :: later, w.entered? = some s := by
  refine ⟨fst_readLines_indented, fun vs => ⟨?_, ?_, segments_atIndent_visited vs, fun later => ?_,
    fun s v later _ hleft hlater => exists_visit_of_left hleft hlater⟩⟩
  · rw [List.pairwise_map, List.pairwise_reverse]
    exact ordered_visited vs
  · rw [List.Nodup, List.pairwise_map]
    exact (ordered_visited vs).imp fun hlt => Nat.ne_of_gt hlt
  · exact ⟨segments_visited_append vs later, fun s hs => exists_visit_of_mem_visited hs⟩

/-- Two properties are left on the way to a third one, and one of them is entered again below that
one, at the same depth and with the same name. -/
theorem visited_in_order_again :
    let before : List Visit := [⟨0, some "user"⟩, ⟨2, some "home"⟩, ⟨4, some "city"⟩]
    let later : List Visit := [⟨6, none⟩, ⟨4, some "city"⟩]
    (visited before).segments = [⟨4, "city"⟩, ⟨2, "home"⟩, ⟨0, "user"⟩] ∧
      ((visited before).atIndent 2).segments = [⟨0, "user"⟩] ∧
      (visited (before ++ ⟨2, some "work"⟩ :: later)).segments =
        [⟨4, "city"⟩, ⟨2, "work"⟩, ⟨0, "user"⟩] ∧
      ∃ w ∈ (⟨2, some "work"⟩ : Visit) :: later, w.entered? = some ⟨4, "city"⟩ := by
  intro before later
  obtain ⟨-, -, hkept, -, hleft⟩ := visited_in_order.2 before
  have hcity := hleft ⟨4, "city"⟩ ⟨2, some "work"⟩ later (by decide) (by decide) (by decide)
  refine ⟨by decide, ?_, by decide, hcity⟩
  rw [hkept]
  decide

end Nesting

end Diagnosis
