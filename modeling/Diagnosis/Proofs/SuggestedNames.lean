import Diagnosis.Proofs.LineReport
import Mathlib.Data.List.Basic
import Mathlib.Data.List.TakeWhile

/-!
# Which record a suggested name goes to

A text is a sequence of marks: the problems that its lines report and the names that they suggest,
line by line and on each line in the order in which the shapes are tried. The name of a line is the
first one that it asks for (`Text.Line.suggested?_eq_some_iff`). The names have no place of their own
among the records. A name goes to the last problem before it, and of several names that go to the
same problem the last one stays (`Record.suggestion_eq_last_name`).

Only five shapes with problems are tried before the one that suggests a name. So a name that stands
on a line with a problem need not go to that problem: if the line reports it as one of a shape that
is tried later, the name goes to a problem of an earlier line.
-/

namespace Diagnosis

open Text (Line)

/-! ## Marks -/

/-- A problem or a suggested name at the place where it stands in a text. -/
inductive Mark where
  /-- A problem is reported. -/
  | problem (s : Sighting)
  /-- A name is suggested, on the last of the given lines. -/
  | suggestion (upTo : List Line) (name : String)

namespace Mark

/-- The lines up to the one on which a mark stands, that one included. -/
def upTo : Mark → List Line
  | problem s => s.upTo
  | suggestion upTo _ => upTo

/-- The shape as one of which the line has the mark. -/
def shape : Mark → Shape
  | problem s => s.shape
  | suggestion .. => .didYouMean

/-- The problem, if the mark is one. -/
def problem? : Mark → Option Sighting
  | problem s => some s
  | suggestion .. => none

/-- The suggested name, if the mark is one. -/
def name? : Mark → Option String
  | problem _ => none
  | suggestion _ name => some name

/-- What reading meets at a mark. -/
def event (mode : PathMode) : Mark → Event
  | problem s => .record (s.record mode)
  | suggestion _ name => .suggestion name

/-- Whether a mark stands on an earlier line than another one, or on the same line as one of a shape
that is tried no later. -/
def NotAfter (a b : Mark) : Prop :=
  a.upTo.length < b.upTo.length ∨
    a.upTo = b.upTo ∧ Shape.all.idxOf a.shape ≤ Shape.all.idxOf b.shape

/-- The names before the first problem. -/
def leadingNames (ms : List Mark) : List String :=
  (ms.takeWhile fun m => m.problem?.isNone).filterMap name?

end Mark

namespace Text.Line

/-- The name that a line suggests. -/
def suggested? (line : Line) : Option String :=
  (Shape.didYouMean.fields? line.text).map fun fields => fields.text 0

/-- A line suggests the first name that it asks for with `Did you mean`. -/
theorem suggested?_eq_some_iff {line : Line} {name : String} :
    line.suggested? = some name ↔ FirstQuotes "Did you mean " "?" name line.text :=
  Wording.map_text_find?_between_eq_some_iff

/-- The marks of a line as one of a shape. The line is the last of the given ones. -/
def marksAs (line : Line) (upTo : List Line) (shape : Shape) : List Mark :=
  match shape.contribution? line.text with
  | some (.report findings) => findings.map fun finding => .problem ⟨upTo, shape, finding⟩
  | some (.suggest name) => [.suggestion upTo name]
  | _ => []

/-- The problems that a line reports as one of some shapes. The line is the last of the given
ones. -/
def sightingsAs (line : Line) (upTo : List Line) (shapes : List Shape) : List Sighting :=
  shapes.flatMap fun shape => (line.findingsAs shape).map fun finding => ⟨upTo, shape, finding⟩

end Text.Line

/-- The marks on lines that stand after others. -/
def marksAfter : List Line → List Line → List Mark
  | _, [] => []
  | before, line :: rest =>
    Shape.all.flatMap (line.marksAs (before ++ [line])) ++ marksAfter (before ++ [line]) rest

/-- The marks of a text. -/
def marks (ls : List Line) : List Mark := marksAfter [] ls

/-! ## The marks of a line -/

namespace Text.Line

variable {line : Line} {upTo : List Line} {shape : Shape}

theorem of_mem_marksAs {m : Mark} (h : m ∈ line.marksAs upTo shape) :
    m.upTo = upTo ∧ m.shape = shape := by
  rw [marksAs] at h
  split at h
  · obtain ⟨finding, -, rfl⟩ := List.mem_map.1 h
    exact ⟨rfl, rfl⟩
  · next name hsuggest =>
    obtain ⟨fields, -, hfields⟩ := Shape.contribution?_eq_some hsuggest
    rw [List.mem_singleton.1 h]
    exact ⟨rfl, (Shape.eq_didYouMean_of_suggest hfields).symm⟩
  · cases h

/-- Only one shape suggests names; as one of any other a line has problems alone. -/
theorem marksAs_of_ne (hshape : shape ≠ .didYouMean) :
    line.marksAs upTo shape =
      (line.findingsAs shape).map fun finding => .problem ⟨upTo, shape, finding⟩ := by
  rw [marksAs, findingsAs]
  cases hc : shape.contribution? line.text with
  | none => rfl
  | some c =>
    cases c with
    | enter property => rfl
    | report findings => rfl
    | suggest name =>
      obtain ⟨fields, -, hfields⟩ := Shape.contribution?_eq_some hc
      exact absurd (Shape.eq_didYouMean_of_suggest hfields) hshape

theorem contribution?_didYouMean (line : Line) :
    Shape.didYouMean.contribution? line.text = line.suggested?.map .suggest := by
  rw [suggested?, Option.map_map]
  rfl

theorem marksAs_didYouMean (line : Line) (upTo : List Line) :
    line.marksAs upTo .didYouMean = (line.suggested?.map (Mark.suggestion upTo)).toList := by
  rw [marksAs, contribution?_didYouMean]
  cases line.suggested? <;> rfl

theorem findingsAs_propertyIncompatible (line : Line) :
    line.findingsAs .propertyIncompatible = [] := by
  rw [findingsAs, Shape.contribution?_propertyIncompatible]
  cases line.entered? <;> rfl

theorem flatMap_marksAs {shapes : List Shape} (h : .didYouMean ∉ shapes) (line : Line)
    (upTo : List Line) :
    shapes.flatMap (line.marksAs upTo) = (line.sightingsAs upTo shapes).map .problem := by
  rw [sightingsAs, List.map_flatMap]
  refine List.flatMap_congr fun shape hshape => ?_
  have hne : shape ≠ .didYouMean := fun heq => h (heq ▸ hshape)
  rw [marksAs_of_ne hne, List.map_map]
  rfl

/-- The shapes that report problems and are tried before the one that suggests a name. -/
def shapesBeforeName : List Shape :=
  [.typeMismatch, .missingProperties, .notExist, .cannotFindName, .cannotFindModule]

/-- The marks of a line are the problems of a few shapes, the name that the line suggests, and the
problems of all other shapes. -/
theorem flatMap_marksAs_all (line : Line) (upTo : List Line) :
    Shape.all.flatMap (line.marksAs upTo) =
      (line.sightingsAs upTo shapesBeforeName).map .problem ++
        ((line.suggested?.map (Mark.suggestion upTo)).toList ++
          (line.sightingsAs upTo (Shape.all.drop 7)).map .problem) := by
  have hall : Shape.all =
      [.propertyIncompatible] ++ (shapesBeforeName ++ ([.didYouMean] ++ Shape.all.drop 7)) := rfl
  have hfirst : line.marksAs upTo .propertyIncompatible = [] := by
    rw [marksAs_of_ne (by decide), findingsAs_propertyIncompatible]
    rfl
  rw [hall, List.flatMap_append, List.flatMap_append, List.flatMap_append, List.flatMap_singleton,
    List.flatMap_singleton, hfirst, marksAs_didYouMean, flatMap_marksAs (by decide),
    flatMap_marksAs (by decide)]
  rfl

/-- The problems among the marks of a line are what the line reports. -/
theorem filterMap_problem?_marks (line : Line) (upTo : List Line) :
    (Shape.all.flatMap (line.marksAs upTo)).filterMap Mark.problem? =
      line.findings.map fun f => ⟨upTo, f.1, f.2⟩ := by
  rw [findings_eq, List.filterMap_flatMap, List.map_flatMap]
  refine List.flatMap_congr fun shape _ => ?_
  rw [marksAs, findingsAs]
  cases shape.contribution? line.text with
  | none => rfl
  | some c => cases c <;> simp [Mark.problem?, Function.comp_def]

/-- The names among the marks of a line are the one that the line suggests. -/
theorem filterMap_name?_marks (line : Line) (upTo : List Line) :
    (Shape.all.flatMap (line.marksAs upTo)).filterMap Mark.name? = line.suggested?.toList := by
  have hnone (sightings : List Sighting) :
      (sightings.map Mark.problem).filterMap Mark.name? = [] := by
    simp [List.filterMap_map, Function.comp_def, Mark.name?]
  rw [flatMap_marksAs_all, List.filterMap_append, List.filterMap_append, hnone, hnone]
  cases line.suggested? <;> rfl

/-- The events of a line are those at its marks. -/
theorem map_event_marks (mode : PathMode) (line : Line) (upTo : List Line) :
    (Shape.all.flatMap (line.marksAs upTo)).map (Mark.event mode) =
      line.eventsAt (Nesting.after mode upTo).path := by
  rw [eventsAt, contributions]
  induction Shape.all with
  | nil => rfl
  | cons shape rest ih =>
    rw [List.flatMap_cons, List.map_append, ih, List.filterMap_cons, marksAs]
    cases shape.contribution? line.text with
    | none => rfl
    | some c =>
      rw [Option.map_some, List.flatMap_cons]
      cases c with
      | enter property => rfl
      | suggest name => rfl
      | report findings =>
        rw [Contribution.eventsAt, List.map_map]
        rfl

theorem notAfter_of_mem_marksAs {shape' : Shape} {a b : Mark} (ha : a ∈ line.marksAs upTo shape)
    (hb : b ∈ line.marksAs upTo shape')
    (hle : Shape.all.idxOf shape ≤ Shape.all.idxOf shape') : a.NotAfter b := by
  obtain ⟨hupTo, hshape⟩ := of_mem_marksAs ha
  obtain ⟨hupTo', hshape'⟩ := of_mem_marksAs hb
  exact Or.inr ⟨hupTo.trans hupTo'.symm, by rwa [hshape, hshape']⟩

/-- The marks of a line stand in order. -/
theorem pairwise_marks (line : Line) (upTo : List Line) :
    (Shape.all.flatMap (line.marksAs upTo)).Pairwise Mark.NotAfter := by
  have horder : Shape.all.Pairwise fun a b => Shape.all.idxOf a ≤ Shape.all.idxOf b := by
    decide +kernel
  rw [List.pairwise_flatMap]
  refine ⟨fun shape _ => ?_, horder.imp fun hle a ha b hb => notAfter_of_mem_marksAs ha hb hle⟩
  exact List.pairwise_of_forall_mem_list fun a ha b hb =>
    notAfter_of_mem_marksAs ha hb (Nat.le_refl _)

end Text.Line

/-! ## The marks of a text -/

theorem marksAfter_append (start first second : List Line) :
    marksAfter start (first ++ second) =
      marksAfter start first ++ marksAfter (start ++ first) second := by
  induction first generalizing start with
  | nil => rw [List.append_nil]; rfl
  | cons line rest ih =>
    rw [List.cons_append, marksAfter, marksAfter, ih, List.append_assoc, List.append_assoc,
      List.singleton_append]

/-- The problems among the marks are the sightings. -/
theorem filterMap_problem?_marksAfter (start ls : List Line) :
    (marksAfter start ls).filterMap Mark.problem? = sightingsAfter start ls := by
  induction ls generalizing start with
  | nil => rfl
  | cons line rest ih =>
    rw [marksAfter, List.filterMap_append, ih, line.filterMap_problem?_marks, sightingsAfter]

theorem filterMap_name?_marksAfter (start ls : List Line) :
    (marksAfter start ls).filterMap Mark.name? = ls.filterMap Text.Line.suggested? := by
  induction ls generalizing start with
  | nil => rfl
  | cons line rest ih =>
    rw [marksAfter, List.filterMap_append, ih, line.filterMap_name?_marks, List.filterMap_cons]
    cases line.suggested? <;> rfl

/-- Reading meets the marks. -/
theorem map_event_marksAfter (mode : PathMode) (start ls : List Line) :
    (marksAfter start ls).map (Mark.event mode) =
      ((Nesting.after mode start).readLines ls).2 := by
  induction ls generalizing start with
  | nil => rfl
  | cons line rest ih =>
    rw [marksAfter, List.map_append, ih, line.map_event_marks, Nesting.readLines_cons,
      Nesting.arrive_after]

theorem length_upTo_of_mem_marksAfter {start ls : List Line} {m : Mark}
    (h : m ∈ marksAfter start ls) : start.length < m.upTo.length := by
  induction ls generalizing start with
  | nil => cases h
  | cons line rest ih =>
    rcases List.mem_append.1 h with h | h
    · obtain ⟨shape, -, hm⟩ := List.mem_flatMap.1 h
      rw [(Text.Line.of_mem_marksAs hm).1, List.length_append, List.length_singleton]
      omega
    · have hlater := ih h
      rw [List.length_append, List.length_singleton] at hlater
      omega

theorem pairwise_marksAfter (start ls : List Line) :
    (marksAfter start ls).Pairwise Mark.NotAfter := by
  induction ls generalizing start with
  | nil => exact List.Pairwise.nil
  | cons line rest ih =>
    refine List.pairwise_append.2 ⟨line.pairwise_marks _, ih _, fun a ha b hb => Or.inl ?_⟩
    obtain ⟨shape, -, hm⟩ := List.mem_flatMap.1 ha
    rw [(Text.Line.of_mem_marksAs hm).1]
    exact length_upTo_of_mem_marksAfter hb

/-! ## The records at marks -/

namespace Record

/-- The records at marks. -/
def ofMarks (mode : PathMode) (ms : List Mark) : List Record := ofEvents (ms.map (Mark.event mode))

theorem ofText_eq_ofMarks (mode : PathMode) (text : String) :
    ofText mode text = ofMarks mode (marks (Text.lines text.toList)) := by
  rw [ofMarks, marks, map_event_marksAfter]
  rfl

theorem leadingNames_map_event (mode : PathMode) (ms : List Mark) :
    Event.leadingNames (ms.map (Mark.event mode)) = Mark.leadingNames ms := by
  induction ms with
  | nil => rfl
  | cons m rest ih =>
    cases m with
    | problem s => rfl
    | suggestion upTo name => exact congrArg (name :: ·) ih

/-- The record at a problem has the last of the names up to the next problem. -/
theorem ofMarks_problem_cons (mode : PathMode) (s : Sighting) (ms : List Mark) :
    ofMarks mode (.problem s :: ms) =
      { s.record mode with suggestion := (Mark.leadingNames ms).getLast? } ::
        ofMarks mode ms := by
  have hsplit : (Mark.problem s :: ms).map (Mark.event mode) =
      [.record (s.record mode)] ++ ms.map (Mark.event mode) := rfl
  rw [ofMarks, hsplit, ofEvents_append, leadingNames_map_event]
  cases (Mark.leadingNames ms).getLast? <;> rfl

/-- There is one record for each problem. -/
theorem length_ofMarks (mode : PathMode) (ms : List Mark) :
    (ofMarks mode ms).length = (ms.filterMap Mark.problem?).length := by
  induction ms with
  | nil => rfl
  | cons m rest ih =>
    cases m with
    | suggestion upTo name => exact ih
    | problem s =>
      rw [ofMarks_problem_cons, List.length_cons, ih]
      rfl

/-- The record of a problem stands where the problem stands among the problems. -/
theorem getElem?_ofMarks (mode : PathMode) (before : List Mark) (s : Sighting) (rest : List Mark) :
    (ofMarks mode (before ++ .problem s :: rest))[(before.filterMap Mark.problem?).length]? =
      some { s.record mode with suggestion := (Mark.leadingNames rest).getLast? } := by
  induction before with
  | nil =>
    rw [List.nil_append, ofMarks_problem_cons]
    rfl
  | cons m before ih =>
    cases m with
    | suggestion upTo name => exact ih
    | problem s' =>
      rw [List.cons_append, ofMarks_problem_cons]
      exact ih

/-- Names before the first problem are lost. -/
theorem ofMarks_append_of_names (mode : PathMode) {names : List Mark}
    (h : ∀ m ∈ names, m.problem? = none) (after : List Mark) :
    ofMarks mode (names ++ after) = ofMarks mode after := by
  induction names with
  | nil => rfl
  | cons m names ih =>
    obtain ⟨hm, hnames⟩ := List.forall_mem_cons.1 h
    cases m with
    | problem s => cases hm
    | suggestion upTo name => exact ih hnames

end Record

/-- Each problem splits the marks into those before it and those behind it. -/
theorem exists_problem_of_lt {ms : List Mark} {k : Nat}
    (hk : k < (ms.filterMap Mark.problem?).length) :
    ∃ before s rest, ms = before ++ .problem s :: rest ∧
      before.filterMap Mark.problem? = (ms.filterMap Mark.problem?).take k := by
  have hsplit := List.take_append_drop k (ms.filterMap Mark.problem?)
  rw [List.drop_eq_getElem_cons hk] at hsplit
  obtain ⟨front, back, rfl, hfront, hback⟩ := List.filterMap_eq_append_iff.1 hsplit.symm
  obtain ⟨names, m, rest, rfl, hnames, hm, -⟩ := List.filterMap_eq_cons_iff.1 hback
  cases m with
  | suggestion upTo name => cases hm
  | problem s =>
    refine ⟨front ++ names, s, rest, (List.append_assoc ..).symm, ?_⟩
    rw [List.filterMap_append, List.filterMap_eq_nil_iff.2 hnames, List.append_nil, hfront]

namespace Record

/-- A record takes the last of the names between its own problem and the next one. -/
theorem exists_marks_of_getElem? {mode : PathMode} {ms : List Mark} {k : Nat} {r : Record}
    (h : (ofMarks mode ms)[k]? = some r) :
    ∃ before s names after, ms = before ++ .problem s :: (names ++ after) ∧
      (before.filterMap Mark.problem?).length = k ∧ (∀ m ∈ names, m.problem? = none) ∧
      (∀ m ∈ after.head?, m.problem? ≠ none) ∧
      r = { s.record mode with suggestion := (names.filterMap Mark.name?).getLast? } := by
  obtain ⟨hk, -⟩ := List.getElem?_eq_some_iff.1 h
  rw [length_ofMarks] at hk
  obtain ⟨before, s, rest, rfl, hbefore⟩ := exists_problem_of_lt hk
  have hcount : (before.filterMap Mark.problem?).length = k := by
    rw [hbefore, List.length_take, Nat.min_eq_left (Nat.le_of_lt hk)]
  have hnames : ∀ m ∈ rest.takeWhile (fun m => m.problem?.isNone), m.problem? = none := by
    intro m hm
    have hm := List.mem_takeWhile_imp hm
    exact Option.isNone_iff_eq_none.1 hm
  have hafter : ∀ m ∈ (rest.dropWhile fun m => m.problem?.isNone).head?, m.problem? ≠ none := by
    intro m hm hnone
    have hstop := List.head?_dropWhile_not (fun m : Mark => m.problem?.isNone) rest
    rw [Option.mem_def.1 hm] at hstop
    simp [hnone] at hstop
  rw [← hcount, getElem?_ofMarks] at h
  exact ⟨before, s, _, _, by rw [List.takeWhile_append_dropWhile], hcount, hnames, hafter,
    (Option.some.inj h).symm⟩

/-- A name is kept in the record of the last problem before it, unless another name that goes to the
same problem follows. -/
theorem getElem?_ofMarks_suggestion (mode : PathMode) {front : List Mark} {k : Nat}
    (h : (front.filterMap Mark.problem?).length = k + 1) (upTo : List Line) (name : String)
    (back : List Mark) :
    ∃ r, (ofMarks mode (front ++ .suggestion upTo name :: back))[k]? = some r ∧
      r.suggestion = (name :: Mark.leadingNames back).getLast? := by
  have hk : k < (front.filterMap Mark.problem?).length := by omega
  obtain ⟨before, s, names, rfl, hbefore⟩ := exists_problem_of_lt hk
  have hcount : (before.filterMap Mark.problem?).length = k := by
    rw [hbefore, List.length_take, h]
    omega
  have hnames : ∀ m ∈ names, m.problem? = none := by
    rw [List.filterMap_append, List.length_append, hcount] at h
    have hlength : (names.filterMap Mark.problem?).length = 0 := by
      have hcons : ((Mark.problem s :: names).filterMap Mark.problem?).length =
          (names.filterMap Mark.problem?).length + 1 := rfl
      omega
    exact List.filterMap_eq_nil_iff.1 (List.eq_nil_of_length_eq_zero hlength)
  rw [List.append_assoc, List.cons_append, ← hcount, getElem?_ofMarks]
  refine ⟨_, rfl, ?_⟩
  have hwhile : (names ++ .suggestion upTo name :: back).takeWhile (fun m => m.problem?.isNone) =
      names ++ .suggestion upTo name :: back.takeWhile fun m => m.problem?.isNone := by
    rw [List.takeWhile_append_of_pos fun m hm => by rw [hnames m hm]; rfl]
    rfl
  rw [Mark.leadingNames, hwhile, List.filterMap_append, List.filterMap_cons, Mark.name?,
    List.getLast?_append_of_ne_nil _ (List.cons_ne_nil _ _), Mark.leadingNames]

end Record

/-- The name of a line stands behind the problems of all lines before and those problems of its own
line that come from the few shapes that are tried earlier. -/
theorem exists_marks_of_suggested? (before after : List Line) {line : Line} {name : String}
    (h : line.suggested? = some name) :
    ∃ front back,
      marks (before ++ line :: after) = front ++ .suggestion (before ++ [line]) name :: back ∧
      front.filterMap Mark.problem? =
        sightings before ++ line.sightingsAs (before ++ [line]) Text.Line.shapesBeforeName := by
  have hline := line.flatMap_marksAs_all (before ++ [line])
  rw [h] at hline
  refine ⟨marks before ++
      (line.sightingsAs (before ++ [line]) Text.Line.shapesBeforeName).map .problem,
    (line.sightingsAs (before ++ [line]) (Shape.all.drop 7)).map .problem ++
      marksAfter (before ++ [line]) after, ?_, ?_⟩
  · rw [marks, marksAfter_append, List.nil_append, marksAfter, hline, marks]
    simp only [List.append_assoc, Option.map_some, Option.toList_some, List.cons_append,
      List.nil_append]
  · have hown (sightings : List Sighting) :
        (sightings.map Mark.problem).filterMap Mark.problem? = sightings := by
      simp [List.filterMap_map, Function.comp_def, Mark.problem?]
    rw [List.filterMap_append, hown, marks, filterMap_problem?_marksAfter, sightings]

namespace Record

/-- Where the names that a text suggests go. -/
structure TakesLastNames (mode : PathMode) (text : String) : Prop where
  ordered : (marks (Text.lines text.toList)).Pairwise Mark.NotAfter
  problems_eq : (marks (Text.lines text.toList)).filterMap Mark.problem? =
    sightings (Text.lines text.toList)
  names_eq : (marks (Text.lines text.toList)).filterMap Mark.name? =
    (Text.lines text.toList).filterMap Text.Line.suggested?
  suggested_iff : ∀ (line : Line) name,
    line.suggested? = some name ↔ Text.FirstQuotes "Did you mean " "?" name line.text
  length_eq : (ofText mode text).length = (sightings (Text.lines text.toList)).length
  /-- A record takes the last name between its own problem and the next one, and has no suggestion
  if there is none. -/
  taken : ∀ k r, (ofText mode text)[k]? = some r →
    ∃ before s names after,
      marks (Text.lines text.toList) = before ++ .problem s :: (names ++ after) ∧
      (before.filterMap Mark.problem?).length = k ∧
      (∀ m ∈ names, m.problem? = none) ∧ (∀ m ∈ after.head?, m.problem? ≠ none) ∧
      r = { s.record mode with suggestion := (names.filterMap Mark.name?).getLast? }
  /-- Names before the first problem change nothing. -/
  lost : ∀ names after, marks (Text.lines text.toList) = names ++ after →
    (∀ m ∈ names, m.problem? = none) → ofText mode text = ofMarks mode after
  /-- The name of a line stands behind the problems of the lines before it and those that the line
  reports as one of the few shapes tried earlier, and it goes to the last of all these. -/
  placed : ∀ before line after name, Text.lines text.toList = before ++ line :: after →
    Text.FirstQuotes "Did you mean " "?" name line.text →
    ∃ front back,
      marks (Text.lines text.toList) = front ++ .suggestion (before ++ [line]) name :: back ∧
      front.filterMap Mark.problem? =
        sightings before ++ line.sightingsAs (before ++ [line]) Text.Line.shapesBeforeName ∧
      ∀ k, (front.filterMap Mark.problem?).length = k + 1 →
        ∃ r, (ofText mode text)[k]? = some r ∧
          r.suggestion = (name :: Mark.leadingNames back).getLast?

/-- The suggestion of a record is the last of the names that are suggested between the problem of
the record and the next problem of the text; where no name is suggested between them, the record has
none. A name is suggested by the words `Did you mean` before it and a question mark behind it.

The marks of a text stand in the order of its lines and on each line in the order in which the
shapes are tried. The problems among them are the sightings, of which each has one record, and the
names are all names that the lines suggest. Names before the first problem change nothing. The name
of a line goes to the last problem that the line itself reports as one of a few shapes, or without
one to the last problem of the lines before it. -/
theorem suggestion_eq_last_name (mode : PathMode) (text : String) : TakesLastNames mode text := by
  have hmarks := ofText_eq_ofMarks mode text
  have hproblems : (marks (Text.lines text.toList)).filterMap Mark.problem? =
      sightings (Text.lines text.toList) := filterMap_problem?_marksAfter [] _
  refine
    { ordered := pairwise_marksAfter [] _
      problems_eq := hproblems
      names_eq := filterMap_name?_marksAfter [] _
      suggested_iff := fun line name => Text.Line.suggested?_eq_some_iff
      length_eq := ?length
      taken := ?taken
      lost := ?lost
      placed := ?placed }
  case length => rw [hmarks, length_ofMarks, hproblems]
  case taken =>
    intro k r hr
    rw [hmarks] at hr
    exact exists_marks_of_getElem? hr
  case lost =>
    intro names after hsplit hnames
    rw [hmarks, hsplit, ofMarks_append_of_names mode hnames]
  case placed =>
    intro before line after name hlines hname
    obtain ⟨front, back, hsplit, hfront⟩ :=
      exists_marks_of_suggested? before after (Text.Line.suggested?_eq_some_iff.2 hname)
    rw [← hlines] at hsplit
    refine ⟨front, back, hsplit, hfront, fun k hk => ?_⟩
    rw [hmarks, hsplit]
    exact getElem?_ofMarks_suggestion mode hk _ name back

/-- Four lines that suggest a name each. -/
def suggestingText : String :=
  "Did you mean 'a'?\nCannot find name 'x'. Did you mean 'b'?\n" ++
    "Object is possibly 'null'. Did you mean 'c'?\nDid you mean \"d\"?"

/-- The name `a` comes before all problems. The name that was not found takes `b` and then `c`,
although the line of `c` reports a problem of its own, and that problem takes `d`. -/
theorem suggestion_eq_last_name_null :
    let before : List Line :=
      [⟨0, "Did you mean 'a'?".toList⟩, ⟨0, "Cannot find name 'x'. Did you mean 'b'?".toList⟩]
    let line : Line := ⟨0, "Object is possibly 'null'. Did you mean 'c'?".toList⟩
    (ofText .indented suggestingText).map (fun r => (r.problem, r.suggestion)) =
        [(.cannotFindName "x", some "c"), (.possiblyNull, some "d")] ∧
      Text.FirstQuotes "Did you mean " "?" "c" line.text ∧
      ∃ front back,
        marks (Text.lines suggestingText.toList) =
          front ++ .suggestion (before ++ [line]) "c" :: back ∧
        (front.filterMap Mark.problem?).length = 1 ∧
        ∃ r, (ofText .indented suggestingText)[0]? = some r ∧
          r.suggestion = ("c" :: Mark.leadingNames back).getLast? := by
  intro before line
  have hlines : Text.lines suggestingText.toList =
      before ++ line :: [⟨0, "Did you mean \"d\"?".toList⟩] := by
    decide +kernel
  have hrecords : (ofText .indented suggestingText).map (fun r => (r.problem, r.suggestion)) =
      [(.cannotFindName "x", some "c"), (.possiblyNull, some "d")] := by
    rw [ofText, hlines]
    decide +kernel
  have hsuggested : line.suggested? = some "c" := by decide +kernel
  have hname := Text.Line.suggested?_eq_some_iff.1 hsuggested
  obtain ⟨front, back, hsplit, hfront, hplaced⟩ :=
    (suggestion_eq_last_name .indented suggestingText).placed before line _ "c" hlines hname
  have hcount : (front.filterMap Mark.problem?).length = 0 + 1 := by
    rw [hfront]
    decide +kernel
  exact ⟨hrecords, hname, front, back, hsplit, hcount, hplaced 0 hcount⟩

end Record

end Diagnosis
