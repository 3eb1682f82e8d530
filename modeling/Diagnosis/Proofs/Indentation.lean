import Diagnosis.Analysis
import Diagnosis.Proofs.Layout
import Diagnosis.Proofs.Placement
import Diagnosis.Proofs.Sighting
import Mathlib.Order.Monotone.Basic

/-!
# Indenting a whole text

Lines that are all indented by the same amount are read as before: every comparison of an
indentation with a depth comes out the same (`Record.ofText_indent`). An analysis nevertheless
depends on the amount. It removes the blanks at both ends of the text first, and with them the
indentation of the first line alone, so that the lines that stood beside the first one now stand
below it.

What changes is told by the lines from the first one on that returns to the margin after the first
line has entered a property (`returning`). Once the text is indented, these lines are read below
that property. So the problems stay the same if and only if these lines report nothing about a place
(`Config.problems_indent_iff`).
-/

namespace Diagnosis

open Text (Line)

/-! ## Other indentations -/

theorem strictMono_add_const (k : Nat) : StrictMono (· + k) := by
  intro a b h
  dsimp only
  omega

/-- The property as a line with another indentation enters it. -/
def Segment.reindent (f : Nat → Nat) (s : Segment) : Segment := { s with depth := f s.depth }

namespace Nesting

variable {f : Nat → Nat} (mode : PathMode) (segments : List Segment)

theorem path_reindent (f : Nat → Nat) :
    path ⟨mode, segments.map (Segment.reindent f)⟩ = path ⟨mode, segments⟩ := by
  rw [path, path, List.map_map]
  rfl

theorem atIndent_reindent (hf : StrictMono f) (indent : Nat) :
    atIndent ⟨mode, segments.map (Segment.reindent f)⟩ (f indent) =
      ⟨mode, (atIndent ⟨mode, segments⟩ indent).segments.map (Segment.reindent f)⟩ := by
  cases mode with
  | monotonic => rfl
  | indented =>
    have hcompare : (fun s : Segment => decide (f indent ≤ s.depth)) ∘ Segment.reindent f =
        fun s => decide (indent ≤ s.depth) := by
      funext s
      simp [Segment.reindent, hf.le_iff_le]
    simp only [atIndent, List.dropWhile_map, hcompare]

theorem arrive_reindent (hf : StrictMono f) (line : Line) :
    arrive ⟨mode, segments.map (Segment.reindent f)⟩ (line.reindent f) =
      ⟨mode, (arrive ⟨mode, segments⟩ line).segments.map (Segment.reindent f)⟩ := by
  have hentered : (line.reindent f).entered? = line.entered? := rfl
  have hindent : (line.reindent f).indent = f line.indent := rfl
  rw [arrive, arrive, hentered, hindent]
  unfold visit
  cases line.entered? with
  | none => exact atIndent_reindent mode segments hf line.indent
  | some property =>
    simp only [atIndent_reindent mode segments hf, enter]
    rfl

/-- Lines are read in the same way when their indentations and those of the properties entered
before are replaced by others in the same order. -/
theorem readLines_reindent (hf : StrictMono f) (ls : List Line) :
    (readLines ⟨mode, segments.map (Segment.reindent f)⟩ (ls.map (Line.reindent f))).2 =
      (readLines ⟨mode, segments⟩ ls).2 := by
  induction ls generalizing segments with
  | nil => rfl
  | cons line rest ih =>
    have hevents (path : List String) : (line.reindent f).eventsAt path = line.eventsAt path := rfl
    rw [List.map_cons, readLines_cons, readLines_cons, arrive_reindent mode segments hf,
      path_reindent, ih, hevents, ← arrive_eq]

end Nesting

/-- Two texts have the same records if their lines say the same and their indentations are in the
same order. -/
theorem Record.ofText_of_lines_reindent {f : Nat → Nat} (hf : StrictMono f) {a b : String}
    (h : Text.lines b.toList = (Text.lines a.toList).map (Line.reindent f)) (mode : PathMode) :
    ofText mode b = ofText mode a := by
  have hread := Nesting.readLines_reindent mode [] hf (Text.lines a.toList)
  rw [List.map_nil] at hread
  rw [ofText, ofText, h, hread]

/-- Indenting all lines of a text changes none of its records. -/
theorem Record.ofText_indent (mode : PathMode) (k : Nat) (text : String) :
    ofText mode (Text.indent k text) = ofText mode text :=
  ofText_of_lines_reindent (strictMono_add_const k) (Text.lines_indent k text) mode

namespace Nesting

/-! ## A first line at the margin -/

theorem arrive_of_indent_eq_zero {line : Line} (h : line.indent = 0) (segments : List Segment) :
    arrive ⟨.indented, segments⟩ line = arrive ⟨.indented, []⟩ line := by
  have hnil : (segments.dropWhile fun s => decide (0 ≤ s.depth)) = [] :=
    List.dropWhile_eq_nil_iff.2 (by simp)
  simp only [arrive, visit, h, atIndent, hnil, List.dropWhile_nil]

/-- Lines of which the first is at the margin are read as if nothing stood before them. -/
theorem readLines_dropWhile_pos (segments : List Segment) (ls : List Line) :
    (readLines ⟨.indented, segments⟩ (ls.dropWhile fun l => decide (0 < l.indent))).2 =
      (readLines ⟨.indented, []⟩ (ls.dropWhile fun l => decide (0 < l.indent))).2 := by
  cases hls : ls.dropWhile fun l => decide (0 < l.indent) with
  | nil => rfl
  | cons line rest =>
    have hhead := List.head?_dropWhile_not (fun l : Line => decide (0 < l.indent)) ls
    rw [hls] at hhead
    have hmargin : line.indent = 0 := by simpa using hhead
    rw [readLines_cons, readLines_cons, arrive_of_indent_eq_zero hmargin]

theorem arrive_first (mode : PathMode) {line : Line} (h : line.indent = 0) :
    arrive { mode := mode } line = ⟨mode, (line.entered?.map (Segment.mk 0)).toList⟩ := by
  unfold arrive visit
  rw [h]
  cases mode <;> cases line.entered? <;> rfl

theorem keeps_first (mode : PathMode) (line : Line) {ls : List Line}
    (h : mode = .monotonic ∨ ∀ l ∈ ls, 0 < l.indent) :
    Keeps mode (line.entered?.map (Segment.mk 0)).toList ls := by
  refine h.imp_right fun hls l hl s hs => ?_
  obtain ⟨property, -, rfl⟩ := Option.map_eq_some_iff.1 (Option.mem_toList.1 hs)
  exact hls l hl

/-- Below a first line at the margin, lines that are indented are read as without it, and what they
report is placed below the property that it enters. -/
theorem readLines_first (mode : PathMode) {line : Line} (hline : line.indent = 0) {ls : List Line}
    (h : mode = .monotonic ∨ ∀ l ∈ ls, 0 < l.indent) :
    (readLines { mode := mode } (line :: ls)).2 =
      line.eventsAt line.entered?.toList ++
        (readLines { mode := mode } ls).2.map
          (Event.mapRecord (Record.below line.entered?.toList)) := by
  have hpath : path ⟨mode, (line.entered?.map (Segment.mk 0)).toList⟩ = line.entered?.toList := by
    cases line.entered? <;> rfl
  have hread := readLines_append_base (keeps_first mode line h) []
  rw [List.nil_append, hpath] at hread
  rw [readLines_cons, arrive_first mode hline, hpath, hread]

/-- In the indented mode lines are read up to the first one at the margin, and the others then by
themselves. -/
theorem readLines_split_margin (segments : List Segment) (ls : List Line) :
    (readLines ⟨.indented, segments⟩ ls).2 =
      (readLines ⟨.indented, segments⟩ (ls.takeWhile fun l => decide (0 < l.indent))).2 ++
        (readLines { mode := .indented } (ls.dropWhile fun l => decide (0 < l.indent))).2 := by
  have hls : ls = (ls.takeWhile fun l => decide (0 < l.indent)) ++
      ls.dropWhile fun l => decide (0 < l.indent) := List.takeWhile_append_dropWhile.symm
  have hread := snd_readLines_append ⟨.indented, segments⟩
    (ls.takeWhile fun l => decide (0 < l.indent)) (ls.dropWhile fun l => decide (0 < l.indent))
  rw [← hls, foldl_arrive_eq, readLines_dropWhile_pos] at hread
  exact hread

end Nesting

/-! ## The lines that return to the margin -/

/-- The lines from the first one on that returns to the margin after the first line has entered a
property. The indentation of the first line itself does not count. -/
def returning : List Line → List Line
  | [] => []
  | line :: rest =>
    match line.entered? with
    | none => []
    | some _ => rest.dropWhile fun l => decide (0 < l.indent)

namespace Nesting

open Text (flush)

theorem readLines_flush_indent_monotonic (k : Nat) (ls : List Line) :
    (readLines { mode := .monotonic } (flush (ls.map (Line.reindent (· + k))))).2 =
      (readLines { mode := .monotonic } (flush ls)).2 := by
  cases ls with
  | nil => rfl
  | cons line rest =>
    have hdeeper := readLines_reindent .monotonic [] (strictMono_add_const k) rest
    rw [List.map_nil] at hdeeper
    rw [List.map_cons, flush, flush, readLines_first .monotonic rfl (Or.inl rfl),
      readLines_first .monotonic rfl (Or.inl rfl), hdeeper]
    rfl

/-- In the indented mode the lines that return to the margin are read by themselves, but below the
property of the first line if all lines are indented before the indentation of the first one is
removed. Nothing else changes. -/
theorem exists_readLines_flush (ls : List Line) :
    ∃ events property,
      (readLines { mode := .indented } (flush ls)).2 =
          events ++ (readLines { mode := .indented } (returning ls)).2 ∧
        ∀ k, 0 < k →
          (readLines { mode := .indented } (flush (ls.map (Line.reindent (· + k))))).2 =
            events ++ (readLines { mode := .indented } (returning ls)).2.map
              (Event.mapRecord (Record.below [property])) := by
  cases ls with
  | nil => exact ⟨[], "", rfl, fun k _ => rfl⟩
  | cons line rest =>
    have hmargin : ({ line with indent := 0 } : Line).indent = 0 := rfl
    have hfirst := arrive_first .indented hmargin
    have hdeeper (k : Nat) :
        (readLines { mode := .indented } (rest.map (Line.reindent (· + k)))).2 =
          (readLines { mode := .indented } rest).2 :=
      readLines_reindent .indented [] (strictMono_add_const k) rest
    have hsame : ({ line with indent := 0 } : Line).entered? = line.entered? := rfl
    rw [hsame] at hfirst
    cases hentered : line.entered? with
    | none =>
      rw [hentered] at hfirst
      have hnone : returning (line :: rest) = [] := by simp only [returning, hentered]
      refine ⟨(readLines { mode := .indented } (flush (line :: rest))).2, "", ?_, fun k _ => ?_⟩
      · rw [hnone]
        exact (List.append_nil _).symm
      · rw [hnone]
        show (readLines _ ({ line with indent := 0 } :: rest.map (Line.reindent (· + k)))).2 =
          _ ++ []
        rw [List.append_nil, flush, readLines_cons, readLines_cons, hfirst]
        exact congrArg (Text.Line.eventsAt [] { line with indent := 0 } ++ ·) (hdeeper k)
    | some property =>
      rw [hentered] at hfirst hsame
      have hsome : returning (line :: rest) = rest.dropWhile fun l => decide (0 < l.indent) := by
        simp only [returning, hentered]
      have hnested : ∀ l ∈ rest.takeWhile fun l => decide (0 < l.indent), 0 < l.indent :=
        fun l hl => by simpa using List.mem_takeWhile_imp hl
      refine ⟨(readLines { mode := .indented } ({ line with indent := 0 } ::
        rest.takeWhile fun l => decide (0 < l.indent))).2, property, ?_, fun k hk => ?_⟩
      · rw [hsome, flush, readLines_cons, readLines_cons, hfirst, readLines_split_margin,
          List.append_assoc]
      · have hall : ∀ l ∈ rest.map (Line.reindent (· + k)), 0 < l.indent := by
          intro l hl
          obtain ⟨l', -, rfl⟩ := List.mem_map.1 hl
          unfold Line.reindent
          dsimp only
          omega
        have hwhole := readLines_first .indented hmargin (Or.inr hall)
        have hpart := readLines_first .indented hmargin (Or.inr hnested)
        show (readLines _ ({ line with indent := 0 } :: rest.map (Line.reindent (· + k)))).2 = _
        rw [hwhole, hpart, hdeeper, hsome, hsame, readLines_split_margin, List.map_append,
          List.append_assoc]
        rfl

end Nesting

/-! ## Analyses of indented texts -/

/-- Whether lines report nothing about a place. -/
def Placeless (ls : List Line) : Prop :=
  ∀ line ∈ ls, ∀ f ∈ line.findings, f.1.rule.scope = .root

namespace Record

theorem ofEvents_append_below_iff (events later : List Event) (property : String) :
    ofEvents (events ++ later.map (Event.mapRecord (below [property]))) =
        ofEvents (events ++ later) ↔
      ∀ r ∈ ofEvents later, r.problem.scope = .root := by
  rw [ofEvents_append, ofEvents_append, Event.leadingNames_mapRecord,
    ofEvents_mapRecord (below_suggestion _), List.append_right_inj]
  have hid := List.map_inj_left (f := below [property]) (g := id) (l := ofEvents later)
  rw [List.map_id] at hid
  exact hid.trans (forall₂_congr fun r _ => below_eq_self_iff (List.cons_ne_nil _ _))

theorem forall_mem_ofLines_scope_iff (mode : PathMode) (ls : List Line) :
    (∀ r ∈ ofLines mode ls, r.problem.scope = .root) ↔ Placeless ls := by
  rw [forall_mem_ofLines_iff (p := fun p => p.scope = .root)]
  refine forall₂_congr fun line _ => forall₂_congr fun f hf => ?_
  rw [Text.Line.scope_of_mem_findings hf]

end Record

/-- The problems of an analysis are told by the lines of the text, the first one without its
indentation. -/
theorem Config.map_problems_analyze (config : Config) (text : String) :
    (config.analyze text).map Analysis.problems =
      if Text.lines text.toList = [] then none
      else
        let records := Record.ofLines config.pathMode (Text.flush (Text.lines text.toList))
        some (if config.dedup then Record.dedup records else records) := by
  have hrecords : Record.ofText config.pathMode (Text.trim text) =
      Record.ofLines config.pathMode (Text.flush (Text.lines text.toList)) := by
    rw [← Text.lines_strip, ← Text.toList_trim]
    rfl
  have hblank : (Text.trim text).isEmpty = true ↔ Text.lines text.toList = [] := by
    rw [String.isEmpty_iff, ← String.toList_eq_nil_iff, Text.toList_trim,
      Text.strip_eq_nil_iff_lines]
  rw [Config.analyze]
  by_cases hlines : Text.lines text.toList = []
  · rw [if_pos hlines, if_pos (hblank.2 hlines)]
    rfl
  · rw [if_neg hlines, if_neg (fun h => hlines (hblank.1 h)), Option.map_some, hrecords]

/-- The records of lines, the first one without its indentation, when all lines are indented by some
more spaces before. -/
theorem Record.ofLines_flush_indent_iff (mode : PathMode) (k : Nat) (ls : List Line) :
    ofLines mode (Text.flush (ls.map (Line.reindent (· + k)))) = ofLines mode (Text.flush ls) ↔
      mode = .monotonic ∨ k = 0 ∨ Placeless (returning ls) := by
  cases mode with
  | monotonic =>
    refine iff_of_true ?_ (Or.inl rfl)
    rw [ofLines, ofLines, Nesting.readLines_flush_indent_monotonic]
  | indented =>
    rcases Nat.eq_zero_or_pos k with rfl | hk
    · refine iff_of_true ?_ (Or.inr (Or.inl rfl))
      exact congrArg _ (congrArg _ (List.map_id _))
    · obtain ⟨events, property, hflush, hdeeper⟩ := Nesting.exists_readLines_flush ls
      rw [ofLines, ofLines, hflush, hdeeper k hk, ofEvents_append_below_iff]
      refine (forall_mem_ofLines_scope_iff .indented _).trans ?_
      constructor
      · exact fun h => Or.inr (Or.inr h)
      · rintro (h | h | h)
        · cases h
        · omega
        · exact h

/-- The problems of a text stay the same when all its lines are indented by some more spaces, if and
only if nothing is ever left, no space is added, or the lines that return to the margin after the
first line has entered a property report nothing about a place. This is so when repeated reports are
kept, and when the problems are to stay the same under both settings. -/
theorem Config.problems_indent_iff (mode : PathMode) (k : Nat) (text : String) :
    ((Config.analyze ⟨mode, false⟩ (Text.indent k text)).map Analysis.problems =
        (Config.analyze ⟨mode, false⟩ text).map Analysis.problems ↔
      mode = .monotonic ∨ k = 0 ∨ Placeless (returning (Text.lines text.toList))) ∧
    ((∀ dedup, (Config.analyze ⟨mode, dedup⟩ (Text.indent k text)).map Analysis.problems =
        (Config.analyze ⟨mode, dedup⟩ text).map Analysis.problems) ↔
      mode = .monotonic ∨ k = 0 ∨ Placeless (returning (Text.lines text.toList))) := by
  rw [← Record.ofLines_flush_indent_iff]
  simp only [Config.map_problems_analyze, Text.lines_indent, List.map_eq_nil_iff]
  by_cases hnil : Text.lines text.toList = []
  · simp [hnil]
  · simp only [hnil, if_false, Option.some_inj, Bool.false_eq_true, true_and]
    constructor
    · intro h
      simpa using h false
    · intro h dedup
      rw [h]

/-- Two lines at the margin, the first of which enters a property. Indented by two spaces, the
second one is reported below that property. -/
theorem Config.problems_indent_two_ne :
    ((Config.analyze ⟨.indented, true⟩
        "Types of property 'a' are incompatible.\nObject is possibly 'undefined'.").map fun a =>
          a.problems.map Record.path) = some [[]] ∧
      ((Config.analyze ⟨.indented, true⟩ (Text.indent 2
        "Types of property 'a' are incompatible.\nObject is possibly 'undefined'.")).map fun a =>
          a.problems.map Record.path) = some [["a"]] := by
  decide +kernel

end Diagnosis
