import Diagnosis.Proofs.Parts
import Diagnosis.Proofs.Precedence
import Mathlib.Data.List.Induction
import Mathlib.Data.List.Nodup
import Mathlib.Data.Nat.Digits.Defs

/-!
# Counts that do not fit

A message may state a count with any number of digits, zeros in front included, while a count is
kept in 32 bits. A count that fits is kept as it is and every other one as the largest count; none
is wrapped around or given up (`Text.toNat_countOfDigits`).

The messages on the number of arguments hold no quotation mark and none of some letters that all
other wordings ask for. So nothing else is reported on them, and their records are known exactly
(`Record.stated_counts`).
-/

namespace Diagnosis

open Text (IsNumeral Line Quotable lines)

/-! ## The number behind a numeral -/

namespace Text

/-- The number that a numeral denotes. -/
def numeralValue (s : String) : Nat :=
  Nat.ofDigits 10 (s.toList.reverse.map fun c => c.toNat - '0'.toNat)

theorem decimalValue_eq_ofDigits (digits : List Char) :
    decimalValue digits = Nat.ofDigits 10 (digits.reverse.map fun c => c.toNat - '0'.toNat) := by
  induction digits using List.reverseRecOn with
  | nil => rfl
  | append_singleton front c ih =>
    have hstep : decimalValue (front ++ [c]) =
        10 * decimalValue front + (c.toNat - '0'.toNat) := by
      rw [decimalValue, List.foldl_append]
      rfl
    rw [hstep, ih, List.reverse_append, List.reverse_singleton, List.singleton_append,
      List.map_cons, Nat.ofDigits_cons, Nat.add_comm]

/-- A numeral is read as its number or, if that does not fit, as the largest count. -/
theorem toNat_countOfDigits {s : String} (h : IsNumeral s) :
    (countOfDigits s.toList).toNat = min (numeralValue s) (2 ^ 32 - 1) := by
  have hall : s.toList.all Char.isDigit = true := List.all_eq_true.2 h.2
  have hfits : min (numeralValue s) (2 ^ 32 - 1) < 2 ^ 32 :=
    Nat.lt_of_le_of_lt (Nat.min_le_right _ _) (by decide)
  rw [countOfDigits, if_pos hall, decimalValue_eq_ofDigits]
  exact UInt32.toNat_ofNat_of_lt' hfits

end Text

/-! ## Wordings that a line lacks the characters for -/

/-- Whether a piece is read only from a text with a character of a class. -/
def Piece.asks (accepts : Char → Bool) : Piece → Bool
  | exactly text => text.any accepts
  | quote => accepts '\'' && accepts '"'
  | skip _ | field _ => false

theorem Piece.exists_mem_of_asks {piece : Piece} {accepts : Char → Bool}
    (h : piece.asks accepts = true) {cs rest : List Char} {fields : Fields}
    (hread : piece.read? cs = some (fields, rest)) : ∃ c ∈ cs, accepts c = true := by
  cases piece with
  | exactly text =>
    obtain ⟨c, hc, haccepts⟩ := List.any_eq_true.1 h
    obtain ⟨rest', hstart, -⟩ := Option.map_eq_some_iff.1 hread
    refine ⟨c, ?_, haccepts⟩
    rw [← List.isPrefixOf?_eq_some_iff_append_eq.1 hstart]
    exact List.mem_append_left _ hc
  | quote =>
    obtain ⟨hsingle, hdouble⟩ := Bool.and_eq_true_iff.1 h
    obtain ⟨mark, hmark, rfl⟩ := Wording.exists_of_read?_quote hread
    refine ⟨mark, List.mem_cons_self, ?_⟩
    rcases Bool.or_eq_true_iff.1 hmark with heq | heq
    · rw [eq_of_beq heq]
      exact hsingle
    · rw [eq_of_beq heq]
      exact hdouble
  | skip | field => cases h

theorem Wording.exists_mem_of_asks {wording : Wording} {accepts : Char → Bool}
    (h : wording.any (Piece.asks accepts) = true) {cs rest : List Char} {fields : Fields}
    (hread : wording.read? cs = some (fields, rest)) : ∃ c ∈ cs, accepts c = true := by
  induction wording generalizing cs fields with
  | nil => cases h
  | cons piece wording ih =>
    obtain ⟨_, middle, _, hpiece, hlater⟩ := exists_of_read?_cons hread
    rcases Bool.or_eq_true_iff.1 h with hasks | hasks
    · exact Piece.exists_mem_of_asks hasks hpiece
    · obtain ⟨c, hc, haccepts⟩ := ih hasks hlater
      exact ⟨c, (Piece.of_read? hpiece).1.subset hc, haccepts⟩

theorem Shape.contribution?_eq_none_of_asks {shape : Shape} {accepts : Char → Bool}
    (h : (shape.rule.wordings.all fun w => w.any (Piece.asks accepts)) = true) {cs : List Char}
    (hcs : cs.any accepts = false) : shape.contribution? cs = none := by
  rw [Option.eq_none_iff_forall_ne_some]
  intro contribution hsome
  obtain ⟨fields, hfields, -⟩ := contribution?_eq_some hsome
  obtain ⟨before, rest, rfl, hread⟩ := Wording.exists_readAny?_of_find? hfields
  obtain ⟨w, hw, hsome⟩ := List.exists_of_findSome?_eq_some hread
  obtain ⟨⟨read, after⟩, hread, -⟩ := Option.map_eq_some_iff.1 hsome
  obtain ⟨c, hc, haccepts⟩ := Wording.exists_mem_of_asks (List.all_eq_true.1 h w hw) hread
  exact List.any_eq_false.1 hcs c (List.mem_append_right _ hc) haccepts

/-! ## Texts of one line -/

theorem Text.Line.contributions_eq_singleton {line : Line} {shape : Shape} {c : Contribution}
    (h : shape.contribution? line.text = some c)
    (hothers : ∀ other, other ≠ shape → other.contribution? line.text = none) :
    line.contributions = [(shape, c)] := by
  have hnone (shapes : List Shape) (hshapes : shape ∉ shapes) :
      (shapes.filterMap fun other => (other.contribution? line.text).map (other, ·)) = [] := by
    rw [List.filterMap_eq_nil_iff]
    intro other hother
    rw [hothers other fun heq => hshapes (heq ▸ hother)]
    rfl
  obtain ⟨before, after, hall⟩ := List.append_of_mem (Shape.mem_all shape)
  have hnodup := Shape.nodup_all
  rw [hall, List.nodup_middle, List.nodup_cons, List.mem_append, not_or] at hnodup
  rw [contributions, hall, List.filterMap_append, List.filterMap_cons, hnone _ hnodup.1.1,
    hnone _ hnodup.1.2, h]
  rfl

namespace Record

/-- A text with one line that contributes one problem has one record, on the whole text. -/
theorem ofText_eq_singleton {text : String} {line : Line} (hlines : lines text.toList = [line])
    {shape : Shape} {p : Problem} (h : line.contributions = [(shape, .problem p)])
    (mode : PathMode) : ofText mode text = [{ path := [], problem := p }] := by
  have hentered : line.entered? = none := by
    obtain ⟨others, hothers, -⟩ := line.contributions_eq
    cases hline : line.entered? with
    | none => rfl
    | some property =>
      rw [h, hline] at hothers
      cases hothers
  have hpath : (Nesting.arrive { mode := mode } line).path = [] := by
    rw [Nesting.arrive, hentered]
    cases mode <;> rfl
  have hevents : line.eventsAt [] = [.record { path := [], problem := p }] := by
    rw [Line.eventsAt, h]
    cases hscope : shape.rule.scope <;> simp [Contribution.problem, Contribution.eventsAt,
      Finding.recordAt, hscope]
  rw [ofText, hlines, Nesting.readLines_cons, hpath, hevents]
  rfl

/-- The problems of one shape on the records of lines are those that the lines report as such. -/
theorem filter_problems_ofLines (mode : PathMode) (ls : List Line) (shape : Shape) :
    ((ofLines mode ls).map Record.problem).filter (fun p => p.shape = shape) =
      ls.flatMap fun line => (line.findingsAs shape).map Finding.problem := by
  rw [map_problem_ofLines, List.filter_map]
  induction ls with
  | nil => rfl
  | cons line rest ih =>
    have hline : line.findings.filter ((fun p => decide (p.shape = shape)) ∘
        fun f => f.2.problem) = (line.findingsAs shape).map (shape, ·) := by
      rw [← line.filter_findings shape]
      refine List.filter_congr fun f hf => ?_
      rw [Function.comp_apply, Line.shape_of_mem_findings hf]
    rw [List.flatMap_cons, List.flatMap_cons, List.filter_append, List.map_append, ih, hline,
      List.map_map]
    rfl

end Record

/-! ## Messages with counts -/

/-- Some characters that the messages on the number of arguments do not hold. Every wording of
another shape asks for one of them. -/
def isForeign (c : Char) : Bool := isQuote c || ['N', 'T', ':', '\n'].contains c

theorem Shape.asks_isForeign {shape : Shape} (h : shape ≠ argumentCount) :
    (shape.rule.wordings.all fun w => w.any (Piece.asks isForeign)) = true := by
  cases shape <;> first | exact absurd rfl h | decide

theorem isForeign_of_isDigit {c : Char} (h : c.isDigit = true) : isForeign c = false := by
  rw [Bool.eq_false_iff]
  intro hforeign
  simp only [isForeign, isQuote, List.contains_cons, List.contains_nil, Bool.or_eq_true,
    beq_iff_eq, Bool.false_eq_true, or_false] at hforeign
  rcases hforeign with (rfl | rfl) | rfl | rfl | rfl | rfl <;> exact absurd h (by decide)

theorem any_isForeign_of_isNumeral {s : String} (h : IsNumeral s) :
    s.toList.any isForeign = false := by
  rw [List.any_eq_false]
  intro c hc hforeign
  rw [isForeign_of_isDigit (h.2 c hc)] at hforeign
  cases hforeign

variable {least most got genericType : String}

/-- On a text that states how many arguments are expected, nothing else is reported. -/
theorem Record.ofText_of_argumentCount {text : String} {p : Problem}
    (h : Shape.argumentCount.contribution? text.toList = some (.problem p))
    (hforeign : text.toList.any isForeign = false)
    (hfirst : text.toList.head? = some 'E') (hlast : text.toList.getLast? = some '.')
    (mode : PathMode) : ofText mode text = [{ path := [], problem := p }] := by
  have hne : text.toList ≠ [] := by
    intro hnil
    rw [hnil] at hfirst
    cases hfirst
  have hbreak : '\n' ∉ text.toList := fun hmem =>
    List.any_eq_false.1 hforeign '\n' hmem (by decide)
  have hlines : lines text.toList = [⟨0, text.toList⟩] := by
    refine Text.lines_eq_singleton hne hbreak ?_ ?_
    · rw [hfirst]
      rintro c ⟨⟩
      decide
    · rw [hlast]
      rintro c ⟨⟩
      decide
  refine ofText_eq_singleton hlines (Line.contributions_eq_singleton h fun other hother => ?_) mode
  exact Shape.contribution?_eq_none_of_asks (Shape.asks_isForeign hother) hforeign

theorem Record.ofText_expected {counts : String} (hcounts : counts.toList.any isForeign = false)
    (hgot : IsNumeral got) {p : Problem}
    (h : Shape.argumentCount.contribution?
      ("Expected " ++ counts ++ " arguments, but got " ++ got ++ ".").toList = some (.problem p))
    (mode : PathMode) :
    ofText mode ("Expected " ++ counts ++ " arguments, but got " ++ got ++ ".") =
      [{ path := [], problem := p }] := by
  refine ofText_of_argumentCount h ?_ ?_ ?_ mode
  · simp only [String.toList_append, List.any_append, hcounts, any_isForeign_of_isNumeral hgot]
    decide
  · simp
  · rw [String.toList_append, List.getLast?_append_of_ne_nil _ (by decide)]
    rfl

theorem Shape.contribution?_expected_range (hleast : IsNumeral least) (hmost : IsNumeral most)
    (hgot : IsNumeral got) :
    argumentCount.contribution?
        ("Expected " ++ (least ++ "-" ++ most) ++ " arguments, but got " ++ got ++ ".").toList =
      some (.problem (.argumentCount (Text.countOfDigits least.toList)
        (Text.countOfDigits most.toList) (Text.countOfDigits got.toList))) := by
  have hfirst (rest : List Char) := Wording.read?_append_of_some
    (Wording.read?_text "Expected " _)
    (Part.read?_numeral hleast (@Text.stopsCount_append "-" rfl rest))
  have hsecond (rest : List Char) := Wording.read?_append_of_some
    (Wording.read?_append_of_some (hfirst _) (Wording.read?_text "-" _))
    (Part.read?_numeral hmost (@Text.stopsCount_append " arguments, but got " rfl rest))
  have hread := Wording.read?_append_of_some
    (Wording.read?_append_of_some (hsecond _) (Wording.read?_text " arguments, but got " _))
    (Part.read?_numeral hgot (@Text.stopsCount_append "." rfl []))
  simp only [String.toList_append, List.append_assoc]
  rw [List.append_nil] at hread
  have hfields : Wording.readAny? argumentCount.rule.wordings _ = some [least, most, got] :=
    Wording.readAny?_cons_of_some hread _
  exact contribution?_of_readAny? rfl hfields

theorem Shape.contribution?_expected_single (hleast : IsNumeral least) (hgot : IsNumeral got) :
    argumentCount.contribution?
        ("Expected " ++ least ++ " arguments, but got " ++ got ++ ".").toList =
      some (.problem (.argumentCount (Text.countOfDigits least.toList)
        (Text.countOfDigits least.toList) (Text.countOfDigits got.toList))) := by
  have hread := readAny?_argumentCount hleast hgot (@Text.stopsCount_append "." rfl [])
  simp only [String.toList_append, List.append_assoc]
  rw [List.append_nil] at hread
  exact contribution?_of_readAny? rfl hread

theorem Shape.contribution?_generic (hgeneric : Quotable genericType) (hleast : IsNumeral least) :
    genericArgsRequired.contribution?
        ("Generic type '" ++ genericType ++ "' requires " ++ least ++ " type argument(s)").toList =
      some (.problem (.genericArgsRequired genericType (Text.countOfDigits least.toList))) := by
  have hchars : ("Generic type '" ++ genericType ++ "' requires " ++ least ++
        " type argument(s)").toList =
      "Generic type ".toList ++ ((inQuotes genericType).toList ++ (" requires ".toList ++
        (least.toList ++ (" type argument(s)".toList ++ [])))) := by
    simp [inQuotes]
  have hname (rest : List Char) := Wording.read?_append_of_some
    (Wording.read?_text "Generic type " _) (Part.read?_name hgeneric rest)
  have hcount := Wording.read?_append_of_some
    (Wording.read?_append_of_some (hname _) (Wording.read?_text " requires " _))
    (Part.read?_numeral hleast (@Text.stopsCount_append " type argument(s)" rfl []))
  have hread := Wording.read?_append_of_some hcount (Wording.read?_text " type argument(s)" [])
  have hfields : Wording.readAny? genericArgsRequired.rule.wordings _ =
      some [genericType, least] := Wording.readAny?_cons_of_some hread _
  rw [hchars]
  exact contribution?_of_readAny? rfl hfields

namespace Record

theorem lines_generic (hgeneric : Quotable genericType) (hleast : IsNumeral least) :
    lines ("Generic type '" ++ genericType ++ "' requires " ++ least ++
        " type argument(s)").toList =
      [⟨0, ("Generic type '" ++ genericType ++ "' requires " ++ least ++
        " type argument(s)").toList⟩] := by
  have hdigits : '\n' ∉ least.toList := fun hmem => absurd (hleast.2 _ hmem) (by decide)
  have hname : '\n' ∉ genericType.toList := fun hmem => (hgeneric.2 _ hmem).2 rfl
  refine Text.lines_eq_singleton (by simp) ?_ (fun c hc => ?_) (fun c hc => ?_)
  · simp [hdigits, hname]
  · have hfirst : c = 'G' := by simpa [eq_comm] using hc
    rw [hfirst]
    decide
  · rw [String.toList_append, List.getLast?_append_of_ne_nil _ (by decide)] at hc
    obtain rfl : ')' = c := Option.some.inj hc
    decide

theorem filter_problems_generic (hgeneric : Quotable genericType) (hleast : IsNumeral least)
    (mode : PathMode) :
    ((ofText mode ("Generic type '" ++ genericType ++ "' requires " ++ least ++
        " type argument(s)")).map Record.problem).filter
        (fun p => p.shape = .genericArgsRequired) =
      [.genericArgsRequired genericType (Text.countOfDigits least.toList)] := by
  have hlines := lines_generic hgeneric hleast
  have hcontribution := Shape.contribution?_generic hgeneric hleast
  refine (filter_problems_ofLines mode _ _).trans ?_
  rw [hlines, List.flatMap_singleton, Line.findingsAs, hcontribution]
  rfl

/-- However many digits the counts in a message have, and with how many zeros they begin, the
problem on its record has these counts as far as they fit and the largest count in the place of the
others. -/
theorem ofText_saturates (mode : PathMode) (hleast : IsNumeral least) (hmost : IsNumeral most)
    (hgot : IsNumeral got) (hgeneric : Quotable genericType) :
    (∃ kept₁ kept₂ kept₃ : UInt32,
      ofText mode ("Expected " ++ least ++ "-" ++ most ++ " arguments, but got " ++ got ++ ".") =
        [{ path := [], problem := .argumentCount kept₁ kept₂ kept₃ }] ∧
      kept₁.toNat = min (Text.numeralValue least) (2 ^ 32 - 1) ∧
      kept₂.toNat = min (Text.numeralValue most) (2 ^ 32 - 1) ∧
      kept₃.toNat = min (Text.numeralValue got) (2 ^ 32 - 1)) ∧
    (∃ kept₁ kept₂ : UInt32,
      ofText mode ("Expected " ++ least ++ " arguments, but got " ++ got ++ ".") =
        [{ path := [], problem := .argumentCount kept₁ kept₁ kept₂ }] ∧
      kept₁.toNat = min (Text.numeralValue least) (2 ^ 32 - 1) ∧
      kept₂.toNat = min (Text.numeralValue got) (2 ^ 32 - 1)) ∧
    ∃ kept : UInt32,
      ((ofText mode ("Generic type '" ++ genericType ++ "' requires " ++ least ++
        " type argument(s)")).map Record.problem).filter
          (fun p => p.shape = .genericArgsRequired) = [.genericArgsRequired genericType kept] ∧
      kept.toNat = min (Text.numeralValue least) (2 ^ 32 - 1) := by
  have hleast' := Text.toNat_countOfDigits hleast
  have hmost' := Text.toNat_countOfDigits hmost
  have hgot' := Text.toNat_countOfDigits hgot
  have hsingle := any_isForeign_of_isNumeral hleast
  have hrange : (least ++ "-" ++ most).toList.any isForeign = false := by
    simp only [String.toList_append, List.any_append, hsingle, any_isForeign_of_isNumeral hmost]
    decide
  refine ⟨⟨_, _, _, ?_, hleast', hmost', hgot'⟩, ⟨_, _, ?_, hleast', hgot'⟩, _, ?_, hleast'⟩
  · have htwo := ofText_expected hrange hgot (Shape.contribution?_expected_range hleast hmost hgot)
      mode
    simpa only [String.append_assoc] using htwo
  · exact ofText_expected hsingle hgot (Shape.contribution?_expected_single hleast hgot) mode
  · exact filter_problems_generic hgeneric hleast mode

/-- The first count that is too large, one of twenty digits, and a small one with zeros in front. -/
theorem ofText_saturates_large :
    ofText .indented "Expected 4294967296-99999999999999999999 arguments, but got 007." =
        [{ path := [], problem := .argumentCount 4294967295 4294967295 7 }] ∧
      ofText .indented "Expected 4294967296 arguments, but got 007." =
        [{ path := [], problem := .argumentCount 4294967295 4294967295 7 }] ∧
      ((ofText .indented "Generic type 'Map' requires 4294967296 type argument(s)").map
          Record.problem).filter (fun p => p.shape = .genericArgsRequired) =
        [.genericArgsRequired "Map" 4294967295] := by
  obtain ⟨⟨kept₁, kept₂, kept₃, htwo, h₁, h₂, h₃⟩, ⟨least, got, hone, hleast, hgot⟩, kept,
      hgeneric, hkept⟩ :=
    @ofText_saturates "4294967296" "99999999999999999999" "007" "Map" .indented (by decide)
      (by decide) (by decide) (by decide)
  have hvalues : Text.numeralValue "4294967296" = 4294967296 ∧
      Text.numeralValue "99999999999999999999" = 99999999999999999999 ∧
      Text.numeralValue "007" = 7 := by decide +kernel
  rw [hvalues.1] at h₁ hleast hkept
  rw [hvalues.2.1] at h₂
  rw [hvalues.2.2] at h₃ hgot
  obtain rfl : kept₁ = 4294967295 := UInt32.toNat_inj.1 h₁
  obtain rfl : kept₂ = 4294967295 := UInt32.toNat_inj.1 h₂
  obtain rfl : kept₃ = 7 := UInt32.toNat_inj.1 h₃
  obtain rfl : least = 4294967295 := UInt32.toNat_inj.1 hleast
  obtain rfl : got = 7 := UInt32.toNat_inj.1 hgot
  obtain rfl : kept = 4294967295 := UInt32.toNat_inj.1 hkept
  exact ⟨htwo, hone, hgeneric⟩

end Record

end Diagnosis
