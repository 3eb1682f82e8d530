import Diagnosis.Proofs.LiteralParts
import Diagnosis.Proofs.PathModes
import Diagnosis.Proofs.Placement
import Diagnosis.Proofs.Sighting

/-!
# Where the texts of a record come from

A record quotes the text that it was read from. Its problem mentions parts of one line, its path
consists of names in the lines that enter properties, and its suggestion is part of a line as well
(`Record.TakenFrom`). There are two exceptions, and both are small: the name of a property of an
object literal leaves out its question mark, and a comparison whose line does not say what it
returns is reported to return `false`.

All this holds of what a single line reports in a nesting whose names come from lines, and reading
keeps it (`Nesting.takenFrom_readLines`).
-/

namespace Diagnosis

open Text (Line)

/-- Whether a string is a part of one of some lines. -/
def Text.Mentions (ls : List Line) (s : String) : Prop := ∃ line ∈ ls, s.toList <:+: line.text

/-- Whether all that a problem mentions is part of a line. A line that states no result of a
comparison is the only one to be completed, by the result `false`. -/
def Problem.TakenFrom (line : List Char) (p : Problem) : Prop :=
  (∀ s ∈ p.strings, s.toList <:+: line) ∨
    p = .unintentionalComparison "false" ∧ Shape.unintentionalComparison.fields? line = some []

/-- Whether a finding is taken from a line. Only a property of which the target alone is an array
is reported below the path of the line, and its name is a part of the line without the first
question mark. -/
structure Finding.TakenFrom (line : List Char) (f : Finding) : Prop where
  problem : f.problem.TakenFrom line
  property : ∀ name, f.property = some name →
    (∃ source target, f.problem = .typeMismatch (.array source target)) ∧
      ∃ label, label <:+: line ∧ name.toList = label.erase '?'

/-- Whether a record is taken from lines: it is a finding of one of them below names that are parts
of lines, and what it suggests is part of a line. -/
structure Record.TakenFrom (ls : List Line) (r : Record) : Prop where
  finding : ∃ line ∈ ls, ∃ finding : Finding, finding.TakenFrom line.text ∧
    r.problem = finding.problem ∧
    ∃ outer, r.path = outer ++ finding.property.toList ∧ ∀ name ∈ outer, Text.Mentions ls name
  suggestion : ∀ name, r.suggestion = some name → Text.Mentions ls name

/-- Whether what reading meets is taken from lines. -/
def Event.TakenFrom (ls : List Line) : Event → Prop
  | record r => r.TakenFrom ls
  | suggestion name => Text.Mentions ls name

/-! ## What a line reports -/

/-- A finding that is reported at the path of the line is taken from the line if its problem is. -/
theorem Finding.takenFrom_of_problem {line : List Char} {p : Problem} (h : p.TakenFrom line) :
    TakenFrom line { problem := p } := by
  refine ⟨h, fun name hname => ?_⟩
  cases hname

theorem Finding.takenFrom_arrayMismatch? {line : List Char} {target : ObjectType} {s : Property}
    (hs : s.TakenFrom line) (htarget : ∀ t ∈ target.properties, t.TakenFrom line)
    {finding : Finding} (h : arrayMismatch? target s = some finding) : finding.TakenFrom line := by
  rw [arrayMismatch?] at h
  split at h
  · next t hget =>
    have ht := htarget t (ObjectType.mem_of_get?_eq_some hget)
    split at h
    · cases h
      refine ⟨Or.inl ?_, ?_⟩
      · exact List.forall_mem_cons.2 ⟨hs.valueType, List.forall_mem_singleton.2 ht.valueType⟩
      · rintro name ⟨⟩
        exact ⟨⟨s.valueType, t.valueType, rfl⟩, hs.name⟩
    · cases h
  · cases h

theorem Finding.takenFrom_of_mem_ofTypes {line : List Char} {source target : String}
    (hsource : source.toList <:+: line) (htarget : target.toList <:+: line) {finding : Finding}
    (h : finding ∈ ofTypes source target) : finding.TakenFrom line := by
  rw [ofTypes] at h
  split at h
  · rw [List.mem_singleton.1 h]
    refine takenFrom_of_problem (Or.inl ?_)
    exact List.forall_mem_cons.2 ⟨hsource, List.forall_mem_singleton.2 htarget⟩
  · rw [arrayMismatches] at h
    split at h
    · obtain ⟨s, hs, hsome⟩ := List.mem_filterMap.1 h
      refine takenFrom_arrayMismatch? ?_ (fun t ht => ?_) hsome
      · exact (ObjectLiteral.takenFrom_of_mem_read hs).mono hsource
      · exact (ObjectLiteral.takenFrom_of_mem_read ht).mono htarget
    · cases h

/-- What a line reports as one of a shape is taken from the line. -/
theorem Shape.takenFrom_of_report {shape : Shape} {line : List Char} {fields : Fields}
    {findings : List Finding} (hfields : shape.fields? line = some fields)
    (h : shape.rule.contribution fields = .report findings) :
    ∀ finding ∈ findings, finding.TakenFrom line := by
  have hpart := Shape.infix_of_fields? hfields
  cases shape with
  | propertyIncompatible => cases h
  | didYouMean => cases h
  | typeMismatch =>
    cases h
    exact fun finding hmem => Finding.takenFrom_of_mem_ofTypes (hpart 0) (hpart 1) hmem
  | argumentMismatch =>
    cases h
    refine List.forall_mem_singleton.2 (Finding.takenFrom_of_problem (Or.inl ?_))
    exact List.forall_mem_cons.2 ⟨hpart 0, List.forall_mem_singleton.2 (hpart 1)⟩
  | missingProperties =>
    cases h
    refine List.forall_mem_singleton.2 (Finding.takenFrom_of_problem (Or.inl fun s hs => ?_))
    exact (PropertyList.infix_of_mem_read hs).trans (hpart 0)
  | missingPropsFrom =>
    cases h
    refine List.forall_mem_singleton.2 (Finding.takenFrom_of_problem (Or.inl ?_))
    refine List.forall_mem_cons.2 ⟨hpart 0, List.forall_mem_cons.2 ⟨hpart 1, fun s hs => ?_⟩⟩
    exact (PropertyList.infix_of_mem_readEnglish hs).trans (hpart 2)
  | unintentionalComparison =>
    cases h
    refine List.forall_mem_singleton.2 (Finding.takenFrom_of_problem ?_)
    cases fields with
    | nil => exact Or.inr ⟨rfl, hfields⟩
    | cons result rest => exact Or.inl (List.forall_mem_singleton.2 (hpart 0))
  | argumentCount =>
    have hnone (expectedMin expectedMax got : UInt32) :
        (Problem.argumentCount expectedMin expectedMax got).TakenFrom line :=
      Or.inl (List.forall_mem_nil _)
    simp only [rule, Contribution.problem] at h
    split at h <;> cases h <;>
      exact List.forall_mem_singleton.2 (Finding.takenFrom_of_problem (hnone _ _ _))
  | _ =>
    cases h
    refine List.forall_mem_singleton.2 (Finding.takenFrom_of_problem (Or.inl ?_))
    simp only [Problem.strings, List.forall_mem_cons, hpart, List.not_mem_nil, false_imp_iff,
      implies_true, and_self]

theorem Shape.infix_of_suggest {shape : Shape} {line : List Char} {fields : Fields} {name : String}
    (hfields : shape.fields? line = some fields)
    (h : shape.rule.contribution fields = .suggest name) : name.toList <:+: line := by
  obtain rfl := eq_didYouMean_of_suggest h
  cases h
  exact infix_of_fields? hfields 0

/-- On a line below names that lines mention, all that is met is taken from lines. -/
theorem Text.Line.takenFrom_eventsAt {ls : List Line} {line : Line} (hline : line ∈ ls)
    {path : List String} (hpath : ∀ name ∈ path, Text.Mentions ls name) :
    ∀ event ∈ line.eventsAt path, event.TakenFrom ls := by
  intro event hevent
  obtain ⟨⟨shape, contribution⟩, hc, hevent⟩ := List.mem_flatMap.1 hevent
  obtain ⟨fields, hfields, hrule⟩ := exists_fields_of_mem_contributions hc
  cases contribution with
  | enter property => cases hevent
  | suggest name =>
    rw [List.mem_singleton.1 hevent]
    exact ⟨line, hline, Shape.infix_of_suggest hfields hrule⟩
  | report findings =>
    obtain ⟨finding, hfinding, rfl⟩ := List.mem_map.1 hevent
    have htaken := Shape.takenFrom_of_report hfields hrule finding hfinding
    refine ⟨⟨line, hline, finding, htaken, rfl, ?_⟩, nofun⟩
    cases hscope : shape.rule.scope with
    | current => exact ⟨path, rfl, hpath⟩
    | root => exact ⟨[], rfl, nofun⟩

/-! ## What reading meets -/

namespace Nesting

theorem mentions_arrive {ls : List Line} {line : Line} (hline : line ∈ ls) {nesting : Nesting}
    (h : ∀ name ∈ nesting.path, Text.Mentions ls name) :
    ∀ name ∈ (nesting.arrive line).path, Text.Mentions ls name := by
  have hkept : ∀ name ∈ (nesting.atIndent line.indent).path, Text.Mentions ls name :=
    fun name hname => h name ((nesting.path_atIndent_sublist line.indent).subset hname)
  unfold arrive visit
  cases hentered : line.entered? with
  | none => exact hkept
  | some property =>
    obtain ⟨fields, hfields, rfl⟩ := Option.map_eq_some_iff.1 hentered
    dsimp only
    rw [path_enter]
    refine List.forall_mem_append.2 ⟨hkept, List.forall_mem_singleton.2 ?_⟩
    exact ⟨line, hline, Shape.infix_of_fields? hfields 0⟩

/-- In a nesting whose names are parts of lines, reading lines meets what is taken from lines. -/
theorem takenFrom_readLines {ls part : List Line} (hpart : ∀ line ∈ part, line ∈ ls)
    {nesting : Nesting} (h : ∀ name ∈ nesting.path, Text.Mentions ls name) :
    ∀ event ∈ (nesting.readLines part).2, event.TakenFrom ls := by
  induction part generalizing nesting with
  | nil => exact List.forall_mem_nil _
  | cons line rest ih =>
    obtain ⟨hline, hrest⟩ := List.forall_mem_cons.1 hpart
    have harrive := mentions_arrive hline h
    rw [readLines_cons]
    exact List.forall_mem_append.2 ⟨line.takenFrom_eventsAt hline harrive, ih hrest harrive⟩

end Nesting

/-! ## Records -/

theorem Event.TakenFrom.attach {ls : List Line} {event : Event} (h : event.TakenFrom ls)
    {records : List Record} (hrecords : ∀ r ∈ records, r.TakenFrom ls) :
    ∀ r ∈ event.attach records, r.TakenFrom ls := by
  cases event with
  | record r => exact List.forall_mem_cons.2 ⟨h, hrecords⟩
  | suggestion name =>
    cases records with
    | nil => exact List.forall_mem_nil _
    | cons last earlier =>
      obtain ⟨hlast, hearlier⟩ := List.forall_mem_cons.1 hrecords
      refine List.forall_mem_cons.2 ⟨⟨hlast.finding, ?_⟩, hearlier⟩
      rintro _ ⟨⟩
      exact h

namespace Record

theorem takenFrom_ofEvents {ls : List Line} {events : List Event}
    (h : ∀ event ∈ events, event.TakenFrom ls) : ∀ r ∈ ofEvents events, r.TakenFrom ls := by
  have hfold (records : List Record) (hrecords : ∀ r ∈ records, r.TakenFrom ls) :
      ∀ r ∈ events.foldl Event.attach records, r.TakenFrom ls := by
    induction events generalizing records with
    | nil => exact hrecords
    | cons event rest ih =>
      obtain ⟨hevent, hrest⟩ := List.forall_mem_cons.1 h
      exact ih hrest _ (hevent.attach hrecords)
  intro r hr
  exact hfold [] (List.forall_mem_nil _) r (List.mem_reverse.1 hr)

theorem takenFrom_of_mem_ofText {mode : PathMode} {text : String} {r : Record}
    (h : r ∈ ofText mode text) : r.TakenFrom (Text.lines text.toList) := by
  have hstart : ∀ name ∈ Nesting.path { mode := mode },
      Text.Mentions (Text.lines text.toList) name := List.forall_mem_nil _
  exact takenFrom_ofEvents (Nesting.takenFrom_readLines (fun _ hline => hline) hstart) r h

end Record

/-! ## Line feeds -/

section Newline

variable {cs : List Char}

theorem Text.Mentions.newline_not_mem {s : String} (h : Mentions (lines cs) s) :
    '\n' ∉ s.toList := by
  obtain ⟨line, hline, hpart⟩ := h
  exact fun hmem => newline_not_mem_of_mem_lines hline (hpart.subset hmem)

theorem Problem.TakenFrom.newline_not_mem {line : List Char} (hline : '\n' ∉ line) {p : Problem}
    (h : p.TakenFrom line) : ∀ s ∈ p.strings, '\n' ∉ s.toList := by
  rcases h with h | ⟨rfl, -⟩
  · exact fun s hs hmem => hline ((h s hs).subset hmem)
  · exact List.forall_mem_singleton.2 (by decide)

theorem Finding.TakenFrom.newline_not_mem_property {line : List Char} (hline : '\n' ∉ line)
    {finding : Finding} (h : finding.TakenFrom line) :
    ∀ name ∈ finding.property.toList, '\n' ∉ name.toList := by
  intro name hname hmem
  obtain ⟨-, label, hlabel, herase⟩ := h.property name (Option.mem_toList.1 hname)
  rw [herase] at hmem
  exact hline (hlabel.subset (List.erase_subset hmem))

/-- No text of a record that is taken from the lines of a text holds a line feed. -/
theorem Record.TakenFrom.newline_not_mem {r : Record} (h : r.TakenFrom (Text.lines cs)) :
    ∀ s ∈ r.strings, '\n' ∉ s.toList := by
  obtain ⟨line, hmem, finding, hfinding, hproblem, outer, hpath, houter⟩ := h.finding
  have hline := Text.newline_not_mem_of_mem_lines hmem
  rw [strings, hpath, hproblem, List.forall_mem_append, List.forall_mem_append,
    List.forall_mem_append]
  refine ⟨⟨⟨?_, ?_⟩, ?_⟩, ?_⟩
  · exact fun name hname => (houter name hname).newline_not_mem
  · exact hfinding.newline_not_mem_property hline
  · exact hfinding.problem.newline_not_mem hline
  · exact fun name hname => (h.suggestion name (Option.mem_toList.1 hname)).newline_not_mem

end Newline

/-- In every mode all that a record of a text says is taken from the lines of the text, and no part
of it holds a line feed. -/
theorem Record.taken_from_lines (mode : PathMode) (text : String) :
    ∀ r ∈ ofText mode text,
      r.TakenFrom (Text.lines text.toList) ∧ ∀ s ∈ r.strings, '\n' ∉ s.toList := by
  intro r hr
  have htaken := takenFrom_of_mem_ofText hr
  exact ⟨htaken, htaken.newline_not_mem⟩

/-- A line about an optional property, whose name it does not hold without the question mark. -/
def optionalText : String := "Type '{a?:T}' is not assignable to type '{a:T[]}'"

theorem Record.taken_from_lines_optional :
    ∃ r ∈ ofText .indented optionalText, r.problem = .typeMismatch (.array "T" "T[]") ∧
      r.TakenFrom (Text.lines optionalText.toList) ∧ ∀ s ∈ r.strings, '\n' ∉ s.toList := by
  have hlines : Text.lines optionalText.toList = [⟨0, optionalText.toList⟩] := by
    decide +kernel
  have hreport : Shape.typeMismatch.contribution? optionalText.toList =
      some (.report [⟨some "a", .typeMismatch (.array "T" "T[]")⟩]) := by
    decide +kernel
  have hfinding : (Shape.typeMismatch, ⟨some "a", .typeMismatch (.array "T" "T[]")⟩) ∈
      Text.Line.findings ⟨0, optionalText.toList⟩ :=
    Text.Line.mem_findings_of_contribution? hreport (List.mem_singleton_self _)
  have hexists : ∃ r ∈ ofLines .indented (Text.lines optionalText.toList),
      r.problem = .typeMismatch (.array "T" "T[]") := by
    rw [hlines, exists_mem_ofLines_iff]
    exact ⟨_, List.mem_singleton_self _, _, hfinding, rfl⟩
  obtain ⟨r, hr, hproblem⟩ := hexists
  exact ⟨r, hr, hproblem, taken_from_lines .indented optionalText r hr⟩

end Diagnosis
