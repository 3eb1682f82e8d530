import Diagnosis.Proofs.Controls
import Diagnosis.Proofs.LiteralParts
import Diagnosis.Proofs.Uncolored
import Diagnosis.Report.Basic

/-!
# A report with and without colours

The lines of a report do not depend on whether it is coloured, only the way in which they are
written does. All that they say is made of fixed texts and of the texts of the analysis, and types
that stand side by side are made of parts of the types' texts. So if no text of the analysis holds
the escape character, no line does (`Report.unescaped_lines`), and without its colours the coloured
report is the plain one (`Analysis.uncolored_render`).
-/

namespace Diagnosis

open Text (Control Lacks Unescaped escape strip)

/-- The escape character as a control character. -/
def Text.Control.escape : Control := ⟨Text.escape, rfl⟩

/-! ## Texts made of others -/

namespace Text.Unescaped

theorem of_not_mem {cs : List Char} (h : escape ∉ cs) : Unescaped (String.ofList cs) := by
  rw [Unescaped, String.toList_ofList]
  exact h

theorem ofList {cs : List Char} (h : cs.all isPrintable = true) :
    Unescaped (String.ofList cs) :=
  Lacks.ofList (c := Control.escape) h

theorem of_subset {s : String} (hs : Unescaped s) {cs : List Char} (h : cs ⊆ s.toList) :
    escape ∉ cs :=
  fun hmem => hs (h hmem)

theorem append_iff {s t : String} : Unescaped (s ++ t) ↔ Unescaped s ∧ Unescaped t :=
  Lacks.append_iff (c := Control.escape)

theorem intercalate {sep : String} (hsep : Unescaped sep) {texts : List String}
    (h : ∀ t ∈ texts, Unescaped t) : Unescaped (sep.intercalate texts) :=
  Lacks.intercalate (c := Control.escape) hsep h

theorem repr (n : Nat) : Unescaped n.repr := Lacks.repr (c := Control.escape) n

theorem inQuotes_iff {s : String} : Unescaped (inQuotes s) ↔ Unescaped s :=
  Lacks.inQuotes_iff (c := Control.escape)

theorem commaList {texts : List String} (h : ∀ t ∈ texts, Unescaped t) :
    Unescaped (commaList texts) :=
  Lacks.commaList (c := Control.escape) h

end Text.Unescaped

open Text.Unescaped (append_iff inQuotes_iff)

namespace Text

theorem subset_of_mem_consLine {c : Char} {cs : List Char} {ls : List (List Char)} {line : List Char}
    (hls : ∀ l ∈ ls, l ⊆ cs) (hline : line ∈ consLine c ls) : line ⊆ c :: cs := by
  cases ls with
  | nil =>
    rw [List.mem_singleton.1 hline]
    exact List.cons_subset_cons c (List.nil_subset cs)
  | cons first rest =>
    rcases List.mem_cons.1 hline with rfl | hline
    · exact List.cons_subset_cons c (hls first List.mem_cons_self)
    · exact List.subset_cons_of_subset c (hls line (List.mem_cons_of_mem _ hline))

theorem subset_of_mem_printedLines {cs line : List Char} (h : line ∈ printedLines cs) :
    line ⊆ cs := by
  fun_induction printedLines cs generalizing line with
  | case1 => cases h
  | case2 rest ih =>
    rcases List.mem_cons.1 h with rfl | h
    · exact List.nil_subset _
    · exact List.subset_cons_of_subset _ (ih h)
  | case3 rest ih =>
    rcases List.mem_cons.1 h with rfl | h
    · exact List.nil_subset _
    · exact List.subset_cons_of_subset _ (List.subset_cons_of_subset _ (ih h))
  | case4 c rest _ _ ih => exact subset_of_mem_consLine (fun _ => ih) h

end Text

/-! ## Explanations -/

theorem Problem.unescaped_title (arrayExpected : Bool) (p : Problem) :
    Unescaped (p.title arrayExpected) :=
  p.lacks_title (c := Control.escape) arrayExpected

theorem Problem.unescaped_detail {p : Problem} (h : ∀ s ∈ p.strings, Unescaped s) :
    Unescaped p.detail :=
  lacks_detail (c := Control.escape) h

theorem TypeMismatch.unescaped_hint {m : TypeMismatch} (hsource : Unescaped m.sourceType)
    (htarget : Unescaped m.targetType) : Unescaped m.hint := by
  rw [hint]
  split
  · exact append_iff.2 ⟨.ofList rfl, htarget⟩
  · split
    · simp only [append_iff, inQuotes_iff, hsource, htarget, and_true]
      exact ⟨⟨.ofList rfl, .ofList rfl⟩, .ofList rfl⟩
    · exact append_iff.2 ⟨.ofList rfl, inQuotes_iff.2 htarget⟩

theorem Problem.unescaped_hint {p : Problem} (h : ∀ s ∈ p.strings, Unescaped s) :
    Unescaped p.hint := by
  unfold hint
  cases p with
  | typeMismatch m =>
    simp only [strings, List.forall_mem_cons] at h
    exact m.unescaped_hint h.1 h.2.1
  | missing missingProps => exact append_iff.2 ⟨.ofList rfl, .commaList h⟩
  | missingPropsFrom sourceType targetType missingProps =>
    simp only [strings, List.forall_mem_cons] at h
    simp only [append_iff, Unescaped.commaList h.2.2, and_true]
    exact .ofList rfl
  | cannotFindModule moduleName =>
    simp only [strings, List.forall_mem_cons] at h
    dsimp only
    split
    · simp only [append_iff, inQuotes_iff, h, and_true]
      exact ⟨.ofList rfl, .ofList rfl⟩
    · simp only [append_iff, h, and_true]
      exact ⟨⟨.ofList rfl, .ofList rfl⟩, .ofList rfl⟩
  | noOverload | unknownType | possiblyUndefined | possiblyNull | possiblyNullOrUndefined
  | notCallable | notConstructable | mustReturn | argumentCount | operatorError
  | unintentionalComparison | invalidIndexType => exact .ofList rfl
  | _ =>
    simp only [strings, List.forall_mem_cons] at h
    simp only [append_iff, inQuotes_iff, h, and_true, true_and]
    repeat' apply And.intro
    all_goals exact .ofList rfl

/-! ## The strings of an analysis -/

/-- The texts of an analysis. -/
def Analysis.strings (a : Analysis) : List String :=
  a.problems.flatMap Record.strings ++ a.text :: (a.errorCode.toList ++ a.errorCodes)

theorem Record.unescaped_hint {r : Record} (h : ∀ s ∈ r.strings, Unescaped s) :
    Unescaped r.hint := by
  simp only [strings, List.forall_mem_append] at h
  rw [hint]
  cases hsuggestion : r.suggestion with
  | none => exact Problem.unescaped_hint h.1.2
  | some name =>
    have hname : Unescaped name := h.2 name (by simp [hsuggestion])
    simp only [append_iff, inQuotes_iff, hname, and_true]
    exact ⟨.ofList rfl, .ofList rfl⟩

/-! ## Types side by side -/

namespace Property

theorem unescaped_displayWith {p : Property} (hp : Unescaped p.name) {remark : String}
    (hremark : Unescaped remark) : Unescaped (p.displayWith remark) := by
  have hmark : Unescaped p.mark := by
    rw [mark]
    split <;> exact .ofList rfl
  simp only [displayWith, append_iff, hp, hmark, hremark, and_true, true_and]
  exact .ofList rfl

/-- The properties of a type hold no escape character if its text holds none. -/
theorem unescaped_of_get? {type : String} (h : Unescaped type) {name : String} {p : Property}
    (hp : get? (TypeText.ofString type).properties name = some p) :
    Unescaped p.name ∧ Unescaped p.valueType := by
  obtain ⟨hname, hvalue⟩ := TypeText.within_of_mem_properties (List.mem_of_find?_eq_some hp)
  exact ⟨h.of_subset hname, h.of_subset hvalue⟩

end Property

namespace Alignment

theorem unescaped_sideDisplay {own other : Option Property} {remark : String}
    (hown : ∀ p, own = some p → Unescaped p.name ∧ Unescaped p.valueType)
    (hother : ∀ p, other = some p → Unescaped p.name ∧ Unescaped p.valueType)
    (hremark : Unescaped remark) : Unescaped (sideDisplay own other remark) := by
  cases own with
  | some p => exact Property.unescaped_displayWith (hown p rfl).1 (hown p rfl).2
  | none =>
    cases other with
    | some p => exact Property.unescaped_displayWith (hother p rfl).1 hremark
    | none => exact .ofList rfl

theorem unescaped_row {source target : String} (hsource : Unescaped source)
    (htarget : Unescaped target) (differences : List Difference) (name : String) :
    Unescaped (row differences (.ofString source) (.ofString target) name).sourceDisplay ∧
      Unescaped (row differences (.ofString source) (.ofString target) name).targetDisplay := by
  have hs := fun p => @Property.unescaped_of_get? source hsource name p
  have ht := fun p => @Property.unescaped_of_get? target htarget name p
  exact ⟨unescaped_sideDisplay hs ht (.ofList rfl),
    unescaped_sideDisplay ht hs (.ofList rfl)⟩

theorem unescaped_of_ofString {type text : String} (h : Unescaped type)
    (htext : TypeText.ofString type = .primitive text) : Unescaped text := by
  rw [TypeText.ofString] at htext
  split at htext
  · cases htext
  · rw [← TypeText.primitive.inj htext]
    exact .of_not_mem (h.of_subset (Text.strip_subset _))

theorem unescaped_of_between {source target s t : String} {equal : Bool} (hsource : Unescaped source)
    (htarget : Unescaped target) (h : between source target = .primitive s t equal) :
    Unescaped s ∧ Unescaped t := by
  rw [between] at h
  split at h
  · next hs ht =>
    cases h
    exact ⟨unescaped_of_ofString hsource hs, unescaped_of_ofString htarget ht⟩
  · cases h

theorem unescaped_of_mem_between {source target : String} {rows : List AlignedRow}
    (hsource : Unescaped source) (htarget : Unescaped target)
    (h : between source target = .object rows) :
    ∀ r ∈ rows, Unescaped r.sourceDisplay ∧ Unescaped r.targetDisplay := by
  rw [between] at h
  split at h
  · cases h
  · cases h
    intro r hr
    obtain ⟨name, -, rfl⟩ := List.mem_map.1 hr
    exact unescaped_row hsource htarget _ name

end Alignment

/-! ## Lines of spans -/

/-- Whether no span of a line holds the escape character. -/
def Report.UnescapedLine (line : List Span) : Prop := ∀ span ∈ line, Unescaped span.text

/-- Whether no span of some lines holds the escape character. -/
def Report.Unescaped (lines : List (List Span)) : Prop := ∀ line ∈ lines, UnescapedLine line

namespace Report

theorem unescapedLine_nil : UnescapedLine [] := nofun

theorem unescapedLine_plain {s : String} {line : List Span} :
    UnescapedLine (.plain s :: line) ↔ Text.Unescaped s ∧ UnescapedLine line :=
  List.forall_mem_cons

theorem unescapedLine_toned {tone : Tone} {s : String} {line : List Span} :
    UnescapedLine (.toned tone s :: line) ↔ Text.Unescaped s ∧ UnescapedLine line :=
  List.forall_mem_cons

theorem unescaped_nil : Unescaped [] := nofun

theorem unescaped_cons {line : List Span} {lines : List (List Span)} :
    Unescaped (line :: lines) ↔ UnescapedLine line ∧ Unescaped lines :=
  List.forall_mem_cons

theorem unescaped_append {first second : List (List Span)} :
    Unescaped (first ++ second) ↔ Unescaped first ∧ Unescaped second :=
  List.forall_mem_append

theorem unescaped_map {α : Type} {f : α → List Span} {xs : List α} :
    Unescaped (xs.map f) ↔ ∀ x ∈ xs, UnescapedLine (f x) :=
  List.forall_mem_map

theorem unescaped_flatMap {α : Type} {f : α → List (List Span)} {xs : List α} :
    Unescaped (xs.flatMap f) ↔ ∀ x ∈ xs, Unescaped (f x) :=
  List.forall_mem_flatMap

end Report

open Report (unescapedLine_nil unescapedLine_plain unescapedLine_toned unescaped_nil unescaped_cons
  unescaped_append)

namespace SideBySide

theorem unescaped_summary {type : String} (h : Unescaped type) :
    Unescaped (TypeText.summary type) := by
  unfold TypeText.summary
  dsimp only
  split
  · exact .ofList rfl
  · split
    · exact .ofList rfl
    · exact .of_not_mem (h.of_subset (Text.strip_subset _))

theorem unescaped_summaryRemark {type : String} (h : Unescaped type) :
    Unescaped (summaryRemark type) := by
  unfold summaryRemark
  dsimp only
  split
  · exact .ofList rfl
  · simp only [append_iff, unescaped_summary h, and_true]
    exact ⟨.ofList rfl, .ofList rfl⟩

theorem unescaped_padding (width : Nat) (text : String) : Unescaped (padding width text) := by
  refine .of_not_mem fun hmem => ?_
  exact absurd (List.eq_of_mem_replicate hmem) (by decide)

theorem unescaped_mark (status : RowStatus) : Unescaped status.mark := by
  cases status <;> exact .ofList rfl

theorem unescaped_typeLines {source target : String} (hsource : Unescaped source)
    (htarget : Unescaped target) : Report.Unescaped (typeLines source target) := by
  simp only [typeLines, unescaped_cons, unescaped_nil, unescapedLine_plain, unescapedLine_toned,
    unescapedLine_nil, hsource, htarget, unescaped_summaryRemark hsource,
    unescaped_summaryRemark htarget, and_true]
  repeat' apply And.intro
  all_goals exact .ofList rfl

theorem unescaped_headingLine (width : Nat) {sourceHeading targetHeading : String}
    (hsource : Unescaped sourceHeading) (htarget : Unescaped targetHeading) :
    Report.UnescapedLine (headingLine width sourceHeading targetHeading) := by
  simp only [headingLine, unescapedLine_plain, unescapedLine_toned, unescapedLine_nil, hsource,
    htarget, unescaped_padding, and_true, true_and]
  repeat' apply And.intro
  all_goals exact .ofList rfl

theorem unescaped_rowLine (width : Nat) {r : AlignedRow} (hsource : Unescaped r.sourceDisplay)
    (htarget : Unescaped r.targetDisplay) : Report.UnescapedLine (rowLine width r) := by
  simp only [rowLine, unescapedLine_plain, unescapedLine_toned, unescapedLine_nil, hsource, htarget,
    unescaped_padding, unescaped_mark, and_true, true_and]
  repeat' apply And.intro
  all_goals exact .ofList rfl

theorem unescaped_columnLines {sourceHeading targetHeading : String} {rows : List AlignedRow}
    (hsource : Unescaped sourceHeading) (htarget : Unescaped targetHeading)
    (hrows : ∀ r ∈ rows, Unescaped r.sourceDisplay ∧ Unescaped r.targetDisplay) :
    Report.Unescaped (columnLines sourceHeading targetHeading rows) := by
  refine unescaped_append.2 ⟨unescaped_cons.2 ⟨?_, Report.unescaped_map.2 fun r hr => ?_⟩, ?_⟩
  · exact unescaped_headingLine _ hsource htarget
  · exact unescaped_rowLine _ (hrows r hr).1 (hrows r hr).2
  · simp only [unescaped_cons, unescaped_nil, unescapedLine_plain, unescapedLine_toned,
      unescapedLine_nil, and_true]
    exact ⟨.ofList rfl, .ofList rfl⟩

theorem unescaped_lines {source target : String} (hsource : Unescaped source)
    (htarget : Unescaped target) : Report.Unescaped (lines source target) := by
  rw [lines]
  split
  · next s t equal h =>
    obtain ⟨hs, ht⟩ := Alignment.unescaped_of_between hsource htarget h
    exact unescaped_typeLines hs ht
  · next rows h =>
    refine unescaped_columnLines ?_ ?_ (Alignment.unescaped_of_mem_between hsource htarget h)
    · simp only [append_iff, unescaped_summary hsource, and_true]
      exact ⟨.ofList rfl, .ofList rfl⟩
    · simp only [append_iff, unescaped_summary htarget, and_true]
      exact ⟨.ofList rfl, .ofList rfl⟩

end SideBySide

/-! ## The lines of a report -/

namespace Analysis

variable {a : Analysis}

theorem unescaped_errorCodes (h : ∀ s ∈ a.strings, Unescaped s) :
    Unescaped (commaList a.errorCodes) :=
  .commaList fun s hs => h s (by simp [strings, hs])

theorem unescaped_record (h : ∀ s ∈ a.strings, Unescaped s) {r : Record} (hr : r ∈ a.problems) :
    ∀ s ∈ r.strings, Unescaped s :=
  fun s hs => h s (List.mem_append_left _ (List.mem_flatMap.2 ⟨r, hr, hs⟩))

end Analysis

namespace Report

theorem unescaped_emptyLines {a : Analysis} (h : ∀ s ∈ a.strings, Text.Unescaped s) :
    Unescaped (emptyLines a) := by
  rw [emptyLines]
  split
  · simp only [unescaped_cons, unescaped_nil, unescapedLine_toned, unescapedLine_nil, and_true]
    exact .ofList rfl
  · simp only [unescaped_cons, unescaped_nil, unescapedLine_toned, unescapedLine_plain,
      unescapedLine_nil, append_iff, a.unescaped_errorCodes h, and_true]
    exact ⟨.ofList rfl, .ofList rfl⟩

theorem unescaped_heading {a : Analysis} (h : ∀ s ∈ a.strings, Text.Unescaped s) :
    Text.Unescaped (heading a) := by
  unfold heading
  simp only [append_iff, Text.Unescaped.repr, and_true]
  refine ⟨⟨⟨.ofList rfl, .ofList rfl⟩, ?_⟩, ?_⟩
  · split <;> exact .ofList rfl
  · split
    · exact .ofList rfl
    · simp only [append_iff, a.unescaped_errorCodes h, and_true]
      exact ⟨.ofList rfl, .ofList rfl⟩

theorem unescaped_headingLines {a : Analysis} (h : ∀ s ∈ a.strings, Text.Unescaped s) :
    Unescaped (headingLines a) := by
  rw [headingLines, unescaped_cons, unescapedLine_toned]
  refine ⟨⟨unescaped_heading h, unescapedLine_nil⟩, ?_⟩
  split
  · simp only [unescaped_cons, unescaped_nil, unescapedLine_toned, unescapedLine_plain,
      unescapedLine_nil, and_true]
    exact ⟨.ofList rfl, .ofList rfl, .ofList rfl⟩
  · exact unescaped_nil

theorem unescaped_detailLines (options : Options) {p : Problem}
    (h : ∀ s ∈ p.strings, Text.Unescaped s) : Unescaped (detailLines options p) := by
  have hdetail : Unescaped [[Span.plain "   ", Span.plain p.detail]] := by
    simp only [unescaped_cons, unescaped_nil, unescapedLine_plain, unescapedLine_nil,
      p.unescaped_detail h, and_true]
    exact .ofList rfl
  rw [detailLines]
  split
  -- two types stand side by side for a type mismatch only
  · next m hm _ =>
    cases p with
    | typeMismatch m' =>
      cases hm
      simp only [Problem.strings, List.forall_mem_cons] at h
      exact SideBySide.unescaped_lines h.1 h.2.1
    | _ => cases hm
  · exact hdetail

theorem unescaped_block (options : Options) (arrayExpected : Bool) (number : Nat) {r : Record}
    (h : ∀ s ∈ r.strings, Text.Unescaped s) :
    Unescaped (block options arrayExpected number r) := by
  have hparts := h
  simp only [Record.strings, List.forall_mem_append] at hparts
  obtain ⟨⟨hpath, hproblem⟩, -⟩ := hparts
  have harrow : Text.Unescaped " → " := .ofList rfl
  unfold block
  simp only [List.cons_append, unescaped_cons, unescaped_append, unescapedLine_plain,
    unescapedLine_toned, unescapedLine_nil, append_iff, Text.Unescaped.repr,
    r.problem.unescaped_title, unescaped_detailLines options hproblem, and_true, true_and]
  refine ⟨.ofList rfl, ?_, ?_⟩
  · split
    · exact unescaped_nil
    · simp only [unescaped_cons, unescaped_nil, unescapedLine_plain, unescapedLine_toned,
        unescapedLine_nil, Text.Unescaped.intercalate harrow hpath, and_true]
      exact ⟨.ofList rfl, .ofList rfl, .ofList rfl⟩
  · split
    · simp only [unescaped_cons, unescaped_nil, unescapedLine_plain, unescapedLine_toned,
        unescapedLine_nil, r.unescaped_hint h, and_true]
      exact ⟨.ofList rfl, .ofList rfl, .ofList rfl⟩
    · exact unescaped_nil

theorem unescaped_shortLine (arrayExpected : Bool) (number : Nat) {r : Record}
    (h : ∀ s ∈ r.strings, Text.Unescaped s) :
    UnescapedLine (shortLine arrayExpected number r) := by
  simp only [Record.strings, List.forall_mem_append] at h
  obtain ⟨⟨hpath, hproblem⟩, -⟩ := h
  have hdotted : Text.Unescaped r.dottedPath := .intercalate (.ofList rfl) hpath
  unfold shortLine
  simp only [unescapedLine_plain, unescapedLine_nil, append_iff, Text.Unescaped.repr,
    r.problem.unescaped_title, r.problem.unescaped_detail hproblem, and_true, true_and]
  refine ⟨.ofList rfl, ?_, .ofList rfl⟩
  split
  · exact .ofList rfl
  · simp only [append_iff, hdotted, and_true]
    exact ⟨.ofList rfl, .ofList rfl⟩

theorem unescaped_problemLines (options : Options) {a : Analysis}
    (h : ∀ s ∈ a.strings, Text.Unescaped s) : Unescaped (problemLines options a) := by
  have hrecord : ∀ numbered ∈ a.problems.zipIdx 1, ∀ s ∈ numbered.1.strings, Text.Unescaped s := by
    intro numbered hnumbered
    exact a.unescaped_record h (List.fst_mem_of_mem_zipIdx hnumbered)
  unfold problemLines
  dsimp only
  split
  · refine unescaped_append.2 ⟨unescaped_headingLines h, unescaped_flatMap.2 ?_⟩
    intro numbered hnumbered
    exact unescaped_cons.2 ⟨unescapedLine_nil, unescaped_block _ _ _ (hrecord numbered hnumbered)⟩
  · refine unescaped_map.2 ?_
    intro numbered hnumbered
    exact unescaped_shortLine _ _ (hrecord numbered hnumbered)

theorem unescaped_of_mem_arrayProperties {a : Analysis} (h : ∀ s ∈ a.strings, Text.Unescaped s)
    {property : String} (hproperty : property ∈ arrayProperties a) : Text.Unescaped property := by
  rw [arrayProperties] at hproperty
  split at hproperty
  · rw [List.mem_singleton.1 hproperty]
    exact .ofList rfl
  · have hmem := (distinctBy_sublist id [] _).subset hproperty
    obtain ⟨r, hr, hlast⟩ := List.mem_filterMap.1 hmem
    have hrecord := a.unescaped_record h (List.mem_of_mem_filter hr)
    simp only [Record.strings, List.forall_mem_append] at hrecord
    exact hrecord.1.1 property (List.mem_of_getLast? hlast)

theorem unescaped_arrayAdvice {a : Analysis} (h : ∀ s ∈ a.strings, Text.Unescaped s) :
    Unescaped (arrayAdvice a) := by
  rw [arrayAdvice]
  split
  · exact unescaped_nil
  · simp only [unescaped_append, unescaped_cons, unescaped_nil, unescaped_map, unescapedLine_plain,
      unescapedLine_toned, unescapedLine_nil, append_iff, and_true, true_and]
    refine ⟨⟨.ofList rfl, .ofList rfl⟩, fun property hproperty => ?_⟩
    have hname := unescaped_of_mem_arrayProperties h hproperty
    exact ⟨.ofList rfl, ⟨hname, .ofList rfl⟩, .ofList rfl, hname,
      .ofList rfl⟩

theorem unescaped_traceLine {line : Text.Line} (h : escape ∉ line.text) :
    UnescapedLine (traceLine line) := by
  have hguides (n : Nat) : escape ∉ (List.replicate n "│ ".toList).flatten := by
    intro hmem
    obtain ⟨guide, hguide, hmem⟩ := List.mem_flatten.1 hmem
    rw [List.eq_of_mem_replicate hguide] at hmem
    exact absurd hmem (by decide)
  rw [traceLine, unescapedLine_plain, unescapedLine_toned, unescapedLine_plain]
  exact ⟨.ofList rfl, .of_not_mem (hguides _), .of_not_mem h, unescapedLine_nil⟩

theorem unescaped_traceLines {a : Analysis} (h : ∀ s ∈ a.strings, Text.Unescaped s) :
    Unescaped (traceLines a) := by
  have htext : Text.Unescaped a.text := h a.text (by simp [Analysis.strings])
  simp only [traceLines, unescaped_append, unescaped_cons, unescaped_nil, unescaped_map,
    unescapedLine_toned, unescapedLine_nil, and_true, true_and]
  refine ⟨.ofList rfl, fun line hline => unescaped_traceLine fun hmem => ?_⟩
  obtain ⟨piece, hpiece, hline⟩ := List.mem_filterMap.1 hline
  have hstrip := Text.Line.text_of_ofPiece? hline
  rw [hstrip] at hmem
  exact htext (Text.subset_of_mem_printedLines hpiece (Text.strip_subset piece hmem))

/-- If no text of an analysis holds the escape character, no line of its report does. -/
theorem unescaped_lines (options : Options) {a : Analysis}
    (h : ∀ s ∈ a.strings, Text.Unescaped s) : Unescaped (lines options a) := by
  have hadvice : Unescaped (if options.hints then arrayAdvice a else []) := by
    split
    · exact unescaped_arrayAdvice h
    · exact unescaped_nil
  have htrace : Unescaped (if options.trace then traceLines a else []) := by
    split
    · exact unescaped_traceLines h
    · exact unescaped_nil
  unfold lines
  dsimp only
  split
  · exact unescaped_append.2 ⟨unescaped_emptyLines h, htrace⟩
  · exact unescaped_append.2 ⟨unescaped_append.2 ⟨unescaped_problemLines options h, hadvice⟩, htrace⟩

end Report

/-- Without its colours a coloured report is the report with the same options and no colours, if no
text of the analysis holds the escape character. -/
theorem Analysis.uncolored_render (a : Analysis) (options : Options)
    (h : ∀ s ∈ a.strings, Unescaped s) :
    Tone.uncolored (a.render { options with colored := true }).toList =
      (a.render { options with colored := false }).toList :=
  Span.uncolored_writeLines (Report.unescaped_lines { options with colored := true } h)

/-- An object of a nested property stands where an array is expected. -/
def Analysis.nestedMismatch : Analysis where
  problems :=
    [{ path := ["user", "tags"]
       problem := .typeMismatch (.array "\x7b id: number \x7d" "\x7b id: string \x7d[]")
       suggestion := some "labels" }]
  isArrayObjectMismatch := true
  text := "error TS2322\n  Types of property 'tags'"
  errorCode := some "TS2322"
  errorCodes := ["TS2322"]

theorem Analysis.uncolored_render_nestedMismatch :
    (∀ s ∈ nestedMismatch.strings, Unescaped s) ∧
      Tone.uncolored (nestedMismatch.render { trace := true, colored := true }).toList =
        (nestedMismatch.render { trace := true, colored := false }).toList := by
  have h : ∀ s ∈ nestedMismatch.strings, Unescaped s := by
    unfold Unescaped
    decide
  exact ⟨h, uncolored_render nestedMismatch { trace := true } h⟩

end Diagnosis
