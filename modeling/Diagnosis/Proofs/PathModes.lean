import Diagnosis.Proofs.LineReading
import Mathlib.Data.List.Forall2

/-!
# The path modes compared

Two readings of the same lines that differ in the path mode drift apart with every line that leaves
a property. What they have in common is that the path of the one always is the path of the other
with some properties left out (`Nesting.Within`), and nothing but the path of a record depends on
the nesting. So the records differ in their paths alone, and in the same way.
-/

namespace Diagnosis

open Text (Line)

/-- Whether a record is another one with some properties left out of its path. -/
structure Record.Shortens (short long : Record) : Prop where
  problem : short.problem = long.problem
  suggestion : short.suggestion = long.suggestion
  path : short.path.Sublist long.path

/-- The same for what reading meets. -/
inductive Event.Shortens : Event → Event → Prop where
  | record {short long : Record} (h : short.Shortens long) :
      Shortens (.record short) (.record long)
  | suggestion (name : String) : Shortens (.suggestion name) (.suggestion name)

/-! ## Lines at a shorter path -/

section Lines

variable {path path' : List String} (h : path.Sublist path')
include h

theorem Finding.recordAt_shortens (scope : Scope) (finding : Finding) :
    (finding.recordAt scope path).Shortens (finding.recordAt scope path') := by
  refine ⟨rfl, rfl, ?_⟩
  cases scope with
  | current => exact h.append_right _
  | root => exact List.Sublist.refl _

theorem Contribution.eventsAt_shortens (scope : Scope) (contribution : Contribution) :
    List.Forall₂ Event.Shortens (contribution.eventsAt scope path)
      (contribution.eventsAt scope path') := by
  cases contribution with
  | enter property => exact .nil
  | suggest name => exact .cons (.suggestion name) .nil
  | report findings =>
    unfold eventsAt
    rw [List.forall₂_map_left_iff, List.forall₂_map_right_iff, List.forall₂_same]
    intro finding _
    exact .record (finding.recordAt_shortens h scope)

theorem Text.Line.eventsAt_shortens (line : Line) :
    List.Forall₂ Event.Shortens (line.eventsAt path) (line.eventsAt path') := by
  unfold eventsAt
  induction line.contributions with
  | nil => exact .nil
  | cons c rest ih => exact List.rel_append (c.2.eventsAt_shortens h c.1.rule.scope) ih

end Lines

/-! ## Readings within another one -/

/-- Whether a nesting holds some of the properties of one that never leaves any. -/
structure Nesting.Within (short long : Nesting) : Prop where
  mode : long.mode = .monotonic
  path : short.path.Sublist long.path

namespace Nesting

theorem path_atIndent_sublist (n : Nesting) (indent : Nat) :
    (n.atIndent indent).path.Sublist n.path := by
  obtain ⟨mode, segments⟩ := n
  cases mode with
  | monotonic => exact List.Sublist.refl _
  | indented => exact ((List.dropWhile_sublist _).map _).reverse

variable {short long : Nesting}

/-- On every line the one reading may leave properties, the other one leaves none, and both enter
the same. -/
theorem Within.arrive (h : Within short long) (line : Line) :
    Within (short.arrive line) (long.arrive line) := by
  have hlong : long.atIndent line.indent = long := by
    unfold atIndent
    rw [h.mode]
  have hpath : (short.atIndent line.indent).path.Sublist long.path :=
    (short.path_atIndent_sublist line.indent).trans h.path
  unfold Nesting.arrive visit
  rw [hlong]
  cases line.entered? with
  | none => exact ⟨h.mode, hpath⟩
  | some property =>
    refine ⟨h.mode, ?_⟩
    rw [path_enter, path_enter]
    exact hpath.append_right _

theorem Within.readLines (h : Within short long) (ls : List Line) :
    List.Forall₂ Event.Shortens (short.readLines ls).2 (long.readLines ls).2 := by
  induction ls generalizing short long with
  | nil => exact .nil
  | cons line rest ih =>
    have hline := h.arrive line
    rw [readLines_cons, readLines_cons]
    exact List.rel_append (line.eventsAt_shortens hline.path) (ih hline)

end Nesting

/-! ## Records -/

theorem Event.Shortens.attach {event event' : Event} (h : event.Shortens event')
    {records records' : List Record} (hrecords : List.Forall₂ Record.Shortens records records') :
    List.Forall₂ Record.Shortens (event.attach records) (event'.attach records') := by
  cases h with
  | record hr => exact .cons hr hrecords
  | suggestion name =>
    cases hrecords with
    | nil => exact .nil
    | cons hlast hearlier => exact .cons ⟨hlast.problem, rfl, hlast.path⟩ hearlier

theorem Record.ofEvents_shortens {events events' : List Event}
    (h : List.Forall₂ Event.Shortens events events') :
    List.Forall₂ Record.Shortens (ofEvents events) (ofEvents events') := by
  -- the records so far are kept apart from the events, so that the induction is on these alone
  have hfold : ∀ records records', List.Forall₂ Record.Shortens records records' →
      List.Forall₂ Record.Shortens (events.foldl Event.attach records)
        (events'.foldl Event.attach records') := by
    induction h with
    | nil => exact fun _ _ hrecords => hrecords
    | cons hevent _ ih =>
      intro records records' hrecords
      exact ih _ _ (hevent.attach hrecords)
  exact List.rel_reverse (hfold [] [] .nil)

/-- In the indented mode a text has as many records as in the monotonic one. Those at the same
position have the same problem and the same suggestion, and the indented mode only leaves some
properties out of the path. -/
theorem Record.indented_shortens_monotonic (text : String) :
    List.Forall₂ (fun short long => short.problem = long.problem ∧
        short.suggestion = long.suggestion ∧ short.path.Sublist long.path)
      (ofText .indented text) (ofText .monotonic text) := by
  have hwithin : Nesting.Within { mode := .indented } { mode := .monotonic } :=
    ⟨rfl, List.Sublist.refl []⟩
  have hevents := hwithin.readLines (Text.lines text.toList)
  refine (ofEvents_shortens hevents).imp fun short long h => ?_
  exact ⟨h.problem, h.suggestion, h.path⟩

end Diagnosis
