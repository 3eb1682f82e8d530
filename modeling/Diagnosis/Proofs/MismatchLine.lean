import Diagnosis.Proofs.Provenance
import Diagnosis.Proofs.Recognition

/-!
# Lines on two types that do not fit

A diagnostic puts the types that it speaks of between quotation marks, and the types that are read
of a line stand between two marks with no further one between them. So no type mismatch of any text
holds a quotation mark (`Record.isQuote_eq_false_of_mismatch`), neither of the kind that encloses
the types nor of the other one.

The compiler encloses types in single quotation marks and prints the types of string literals in
double ones. Such types are never read: of the message that one type is not assignable to another,
both are found again if and only if neither holds a double quotation mark
(`Record.exists_mismatch_iff_no_quotation`).
-/

namespace Diagnosis

open Text (Quotable lines)

/-! ## The characters of fields -/

theorem Piece.accepts_of_read? {accepts : Char → Bool} {cs rest : List Char} {fields : Fields}
    (h : (field accepts).read? cs = some (fields, rest)) :
    ∀ s ∈ fields, ∀ c ∈ s.toList, accepts c = true := by
  rw [read?] at h
  split at h
  · cases h
  · obtain ⟨rfl, -⟩ := Prod.mk.inj (Option.some.inj h)
    rw [List.forall_mem_singleton, String.toList_ofList]
    exact fun c hc => List.mem_takeWhile_imp hc

namespace Wording

/-- Whether the gaps of a wording accept only characters with a property. -/
def Accepts (p : Char → Prop) (wording : Wording) : Prop :=
  ∀ accepts, Piece.field accepts ∈ wording → ∀ c, accepts c = true → p c

/-- The fields of a wording consist of characters that its gaps accept. -/
theorem Accepts.forall_mem_fields {p : Char → Prop} {wording : Wording} (hw : wording.Accepts p)
    {cs rest : List Char} {fields : Fields} (h : wording.read? cs = some (fields, rest)) :
    ∀ s ∈ fields, ∀ c ∈ s.toList, p c := by
  induction wording generalizing cs rest fields with
  | nil =>
    obtain ⟨rfl, -⟩ := Prod.mk.inj (Option.some.inj h)
    exact List.forall_mem_nil _
  | cons piece wording ih =>
    have hrest : Accepts p wording := fun accepts hmem => hw accepts (List.mem_cons_of_mem _ hmem)
    rw [read?] at h
    split at h
    · next first middle hpiece =>
      obtain ⟨⟨later, rest'⟩, hlater, heq⟩ := Option.map_eq_some_iff.1 h
      obtain ⟨rfl, -⟩ := Prod.mk.inj heq
      refine List.forall_mem_append.2 ⟨?_, ih hrest hlater⟩
      cases piece with
      | field accepts =>
        intro s hs c hc
        exact hw accepts List.mem_cons_self c (Piece.accepts_of_read? hpiece s hs c hc)
      | exactly _ | quote | skip _ =>
        have hnil := (Piece.of_read? hpiece).2.1
        rw [List.eq_nil_of_length_eq_zero hnil]
        exact List.forall_mem_nil _
    · cases h

theorem forall_mem_fields_of_find? {p : Char → Prop} {wordings : List Wording}
    (hw : ∀ w ∈ wordings, w.Accepts p) {cs : List Char} {fields : Fields}
    (h : find? wordings cs = some fields) : ∀ s ∈ fields, ∀ c ∈ s.toList, p c := by
  obtain ⟨before, rest, rfl, hread⟩ := exists_readAny?_of_find? h
  obtain ⟨w, hmem, hsome⟩ := List.exists_of_findSome?_eq_some hread
  obtain ⟨⟨fields', rest'⟩, hread', rfl⟩ := Option.map_eq_some_iff.1 hsome
  exact (hw w hmem).forall_mem_fields hread'

theorem accepts_text (p : Char → Prop) (s : String) : Accepts p (text s) := by
  intro accepts hmem
  cases List.mem_singleton.1 hmem

theorem accepts_quoted : Accepts (fun c => isQuote c = false) quoted := by
  intro accepts hmem c hc
  simp only [quoted, List.mem_cons, List.not_mem_nil, Piece.field.injEq, reduceCtorEq, or_false,
    false_or] at hmem
  rw [hmem] at hc
  simpa using hc

theorem Accepts.append {p : Char → Prop} {first second : Wording} (hfirst : first.Accepts p)
    (hsecond : second.Accepts p) : Accepts p (first ++ second) := by
  intro accepts hmem
  rcases List.mem_append.1 hmem with h | h
  · exact hfirst accepts h
  · exact hsecond accepts h

end Wording

/-! ## No quotation mark in a type -/

namespace Shape

open Wording (Accepts accepts_text accepts_quoted)

variable {shape : Shape} {line : List Char} {fields : Fields}

theorem isQuote_eq_false_of_accepts
    (hw : ∀ w ∈ shape.rule.wordings, w.Accepts fun c => isQuote c = false)
    (h : shape.fields? line = some fields) (i : Nat) :
    ∀ c ∈ (fields.text i).toList, isQuote c = false := by
  rw [Fields.text, List.getD_eq_getElem?_getD]
  cases hfield : fields[i]? with
  | none => exact List.forall_mem_nil _
  | some s => exact Wording.forall_mem_fields_of_find? hw h s (List.mem_of_getElem? hfield)

theorem accepts_typeMismatch :
    ∀ w ∈ typeMismatch.rule.wordings, w.Accepts fun c => isQuote c = false :=
  List.forall_mem_singleton.2
    ((((accepts_text _ _).append accepts_quoted).append (accepts_text _ _)).append accepts_quoted)

theorem accepts_argumentMismatch :
    ∀ w ∈ argumentMismatch.rule.wordings, w.Accepts fun c => isQuote c = false :=
  List.forall_mem_singleton.2
    ((((accepts_text _ _).append accepts_quoted).append (accepts_text _ _)).append accepts_quoted)

/-- The types of a mismatch that a line reports hold no quotation mark. -/
theorem isQuote_eq_false_of_report {findings : List Finding}
    (hfields : shape.fields? line = some fields)
    (h : shape.rule.contribution fields = .report findings) {finding : Finding}
    (hf : finding ∈ findings) {m : TypeMismatch} (hm : finding.problem = .typeMismatch m) :
    ∀ s ∈ [m.sourceType, m.targetType], ∀ c ∈ s.toList, isQuote c = false := by
  have hshape := Problem.shape_of_report h hf
  rw [hm, Problem.shape] at hshape
  by_cases hargument : m.isArgument = true
  · rw [if_pos hargument] at hshape
    subst hshape
    cases h
    rw [List.mem_singleton.1 hf] at hm
    cases hm
    have hquote := isQuote_eq_false_of_accepts accepts_argumentMismatch hfields
    exact List.forall_mem_cons.2 ⟨hquote 0, List.forall_mem_singleton.2 (hquote 1)⟩
  · rw [if_neg hargument] at hshape
    subst hshape
    cases h
    have hquote := isQuote_eq_false_of_accepts accepts_typeMismatch hfields
    -- what is reported of two types is part of one of them
    have htaken := Finding.takenFrom_of_mem_ofTypes (List.prefix_append _ _).isInfix
      (List.suffix_append _ _).isInfix hf
    rcases htaken.problem with hpart | ⟨hcomparison, -⟩
    · intro s hs c hc
      rw [hm] at hpart
      rcases List.mem_append.1 ((hpart s hs).subset hc) with h | h
      · exact hquote 0 c h
      · exact hquote 1 c h
    · rw [hm] at hcomparison
      cases hcomparison

end Shape

namespace Record

/-- No type mismatch of a text holds a quotation mark. -/
theorem isQuote_eq_false_of_mismatch {mode : PathMode} {text : String} {r : Record}
    (hr : r ∈ ofText mode text) {m : TypeMismatch} (hm : r.problem = .typeMismatch m) :
    ∀ s ∈ [m.sourceType, m.targetType], ∀ c ∈ s.toList, isQuote c = false := by
  obtain ⟨line, -, ⟨shape, finding⟩, hfinding, hproblem⟩ :=
    (exists_mem_ofLines_iff mode _).1 ⟨r, hr, rfl⟩
  obtain ⟨fields, findings, hfields, hreport, hmem⟩ :=
    Text.Line.report_of_mem_findings hfinding
  exact Shape.isQuote_eq_false_of_report hfields hreport hmem (hproblem.trans hm)

end Record

/-! ## The message that two types do not fit -/

namespace Message

variable {source target : String}

theorem sound_ofMismatch (source target : String) : (ofMismatch source target).Sound :=
  ⟨rfl, ⟨_, rfl, Part.startsWith_words rfl⟩, ⟨_, rfl, Part.closes_words rfl⟩⟩

theorem forall_mem_names_ofMismatch {p : String → Prop} (hsource : p source) (htarget : p target) :
    ∀ s ∈ (ofMismatch source target).names, p s :=
  List.forall_mem_cons.2 ⟨hsource, List.forall_mem_singleton.2 htarget⟩

/-- The types of the message are read back from it. -/
theorem fields?_ofMismatch (hsource : Quotable source) (htarget : Quotable target) :
    Shape.typeMismatch.fields? (ofMismatch source target).chars = some [source, target] := by
  have hread := @read?_wording_append
    [.words "Type ", .name source, .words " is not assignable to type ", .name target]
    [.words "."] rfl (List.forall_mem_cons.2 ⟨hsource, List.forall_mem_singleton.2 htarget⟩)
  exact Wording.find?_of_readAny? (Wording.readAny?_cons_of_some hread [])

end Message

open Message (ofMismatch)

theorem Finding.ofTypes_of_not_object {source : String} (h : ¬ ['{'] <+: source.toList)
    (target : String) :
    ofTypes source target = [{ problem := .typeMismatch (.ofTypes source target) }] := by
  have hnone : arrayMismatches source target = [] := by
    rw [arrayMismatches, if_neg]
    simpa using fun hbrace => absurd hbrace h
  rw [ofTypes, hnone]

namespace Record

variable {source target : String}

/-- What is found on two types is reported of the message on them, if they can be read from it. -/
theorem exists_record_ofMismatch (mode : PathMode) (hsource : Quotable source)
    (htarget : Quotable target) {finding : Finding} (h : finding ∈ Finding.ofTypes source target) :
    ∃ r ∈ ofText mode (ofMismatch source target).text, r.problem = finding.problem := by
  have hlines := Message.lines_text (Message.sound_ofMismatch source target)
    (Message.forall_mem_names_ofMismatch hsource htarget)
  have hreport : Shape.typeMismatch.contribution? (ofMismatch source target).chars =
      some (.report (Finding.ofTypes source target)) := by
    rw [Shape.contribution?, Message.fields?_ofMismatch hsource htarget]
    rfl
  have hline : ⟨0, (ofMismatch source target).chars⟩ ∈
      lines (ofMismatch source target).text.toList := by
    rw [hlines]
    exact List.mem_singleton_self _
  exact exists_mem_ofText_of_contribution? mode hline hreport h

/-- Let two types neither be empty nor hold a single quotation mark or a line feed, and let the
first one not open with a brace. In every mode the message that the first is not assignable to the
second is recognised, by a record of the mismatch of just these types, if and only if neither of
them holds a double quotation mark. If one does, no record is about these two types, whatever else
it says. -/
theorem exists_mismatch_iff_no_quotation (mode : PathMode)
    (hsource : source ≠ "" ∧ '\'' ∉ source.toList ∧ '\n' ∉ source.toList)
    (htarget : target ≠ "" ∧ '\'' ∉ target.toList ∧ '\n' ∉ target.toList)
    (hobject : ¬ ['{'] <+: source.toList) :
    ((∃ r ∈ ofText mode (ofMismatch source target).text,
        r.problem = .typeMismatch (.ofTypes source target)) ↔
      '"' ∉ source.toList ∧ '"' ∉ target.toList) ∧
      ∀ r ∈ ofText mode (ofMismatch source target).text, ∀ m,
        r.problem = .typeMismatch m → m.sourceType = source → m.targetType = target →
          '"' ∉ source.toList ∧ '"' ∉ target.toList := by
  have hmarks : ∀ r ∈ ofText mode (ofMismatch source target).text, ∀ m,
      r.problem = .typeMismatch m → m.sourceType = source → m.targetType = target →
        '"' ∉ source.toList ∧ '"' ∉ target.toList := by
    rintro r hr m hm rfl rfl
    have hquote := isQuote_eq_false_of_mismatch hr hm
    have hnot (s : String) (hs : s ∈ [m.sourceType, m.targetType]) : '"' ∉ s.toList :=
      fun hmem => absurd (hquote s hs '"' hmem) (by decide)
    exact ⟨hnot _ List.mem_cons_self, hnot _ (List.mem_cons_of_mem _ List.mem_cons_self)⟩
  have hquotable {s : String} (h : s ≠ "" ∧ '\'' ∉ s.toList ∧ '\n' ∉ s.toList)
      (hmark : '"' ∉ s.toList) : Quotable s := by
    obtain ⟨hne, hapostrophe, hbreak⟩ := h
    refine ⟨hne, fun c hc => ⟨?_, fun heq => hbreak (heq ▸ hc)⟩⟩
    have hsingle : c ≠ '\'' := fun heq => hapostrophe (heq ▸ hc)
    have hdouble : c ≠ '"' := fun heq => hmark (heq ▸ hc)
    simp [isQuote, hsingle, hdouble]
  refine ⟨⟨?_, ?_⟩, hmarks⟩
  · rintro ⟨r, hr, hproblem⟩
    exact hmarks r hr _ hproblem rfl rfl
  · rintro ⟨hs, ht⟩
    have hfinding : { problem := .typeMismatch (.ofTypes source target) } ∈
        Finding.ofTypes source target := by
      rw [Finding.ofTypes_of_not_object hobject]
      exact List.mem_singleton_self _
    exact exists_record_ofMismatch mode (hquotable hsource hs) (hquotable htarget ht) hfinding

/-- A union of string literals is no type that a message can be read with. -/
theorem exists_mismatch_iff_no_quotation_union :
    let source := "Array<string>"
    let target := "\"a\" | \"b\""
    (source ≠ "" ∧ '\'' ∉ source.toList ∧ '\n' ∉ source.toList) ∧
      (target ≠ "" ∧ '\'' ∉ target.toList ∧ '\n' ∉ target.toList) ∧
      ¬ ['{'] <+: source.toList ∧
      ∀ r ∈ ofText .indented (ofMismatch source target).text,
        r.problem ≠ .typeMismatch (.ofTypes source target) := by
  intro source target
  have hsource : source ≠ "" ∧ '\'' ∉ source.toList ∧ '\n' ∉ source.toList := by decide +kernel
  have htarget : target ≠ "" ∧ '\'' ∉ target.toList ∧ '\n' ∉ target.toList := by decide +kernel
  have hobject : ¬ ['{'] <+: source.toList := by decide +kernel
  refine ⟨hsource, htarget, hobject, fun r hr hproblem => ?_⟩
  have hmarks := (exists_mismatch_iff_no_quotation .indented hsource htarget hobject).1.1
    ⟨r, hr, hproblem⟩
  exact hmarks.2 (by decide +kernel)

/-- Two string literal types, as the compiler prints them: nothing at all is reported of the message
that the one is not assignable to the other, although the mismatch of the two would be told to be
one of literal types. -/
theorem string_literal_types_missed :
    (ofMismatch "\"a\"" "\"b\"").text = "Type '\"a\"' is not assignable to type '\"b\"'." ∧
      ofText .monotonic "Type '\"a\"' is not assignable to type '\"b\"'." = [] ∧
      (TypeMismatch.ofTypes "\"a\"" "\"b\"").isLiteral = true := by
  decide +kernel

end Record

end Diagnosis
