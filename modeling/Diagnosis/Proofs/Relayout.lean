import Diagnosis.Proofs.Indentation

/-!
# Texts that differ in their layout

Two texts may say the same and be laid out differently: the one has blank lines where the other has
none, blanks at the ends of its lines such as the carriage returns of another convention for line
ends, or other margins. If a larger margin in the one text always is a larger one in the other, the
two have the same records (`Record.ofText_of_relaid`).

The relation is told of the pieces between line feeds, one line at a time, so that any number of
changes can be made at once. On the lines that are read it comes to a change of the indentations
alone (`Text.Relaid.lines_eq`).
-/

namespace Diagnosis

namespace Text

/-- Whether a text is blank. -/
def IsBlank (cs : List Char) : Prop := ∀ c ∈ cs, isBlank c = true

instance (cs : List Char) : Decidable (IsBlank cs) :=
  decidable_of_iff (cs.all isBlank = true) List.all_eq_true

/-- Whether the lines of two texts, blank ones included, differ in their layout alone. A margin of
`n` blanks in the first text is one of `f n` blanks in the second. -/
inductive RelaidLines (f : Nat → Nat) : List (List Char) → List (List Char) → Prop where
  /-- There are no lines. -/
  | nil : RelaidLines f [] []
  /-- A blank line stands in the second text only. -/
  | insert {blank : List Char} {ps qs : List (List Char)} (hblank : IsBlank blank)
      (hrest : RelaidLines f ps qs) : RelaidLines f ps (blank :: qs)
  /-- A blank line stands in the first text only. -/
  | remove {blank : List Char} {ps qs : List (List Char)} (hblank : IsBlank blank)
      (hrest : RelaidLines f ps qs) : RelaidLines f (blank :: ps) qs
  /-- A line has other blanks in front of its first character and at its end. -/
  | line {margin margin' trailing trailing' body : List Char} {first : Char}
      {ps qs : List (List Char)} (hmargin : IsBlank margin) (hmargin' : IsBlank margin')
      (htrailing : IsBlank trailing) (htrailing' : IsBlank trailing')
      (hfirst : isBlank first = false) (hlength : margin'.length = f margin.length)
      (hrest : RelaidLines f ps qs) :
      RelaidLines f ((margin ++ (first :: body ++ trailing)) :: ps)
        ((margin' ++ (first :: body ++ trailing')) :: qs)

/-- Whether two texts differ in their layout alone. -/
def Relaid (f : Nat → Nat) (a b : String) : Prop :=
  RelaidLines f (cutAt (· == '\n') a.toList) (cutAt (· == '\n') b.toList)

/-- A line is told by its text and by the number of blanks in front of it. -/
theorem Line.ofPiece?_of_margin {margin trailing body : List Char} {first : Char}
    (hmargin : IsBlank margin) (htrailing : IsBlank trailing) (hfirst : isBlank first = false) :
    ofPiece? (margin ++ (first :: body ++ trailing)) =
      some ⟨margin.length, strip (first :: body)⟩ := by
  obtain ⟨rest, hrest⟩ := strip_cons_of_not_blank hfirst body
  have hflush : ofPiece? (first :: body) = some ⟨0, first :: rest⟩ := by
    rw [ofPiece?, hrest, indentation, List.takeWhile_cons_of_neg (by simp [hfirst])]
    rfl
  rw [ofPiece?_blanks_append hmargin, ofPiece?_append_blanks htrailing, hflush, hrest,
    Option.map_some, reindent, Nat.zero_add]

/-- What is read of lines that differ in their layout differs in the indentations alone. -/
theorem RelaidLines.filterMap_eq {f : Nat → Nat} {ps qs : List (List Char)}
    (h : RelaidLines f ps qs) :
    qs.filterMap Line.ofPiece? = (ps.filterMap Line.ofPiece?).map (Line.reindent f) := by
  induction h with
  | nil => rfl
  | insert hblank _ ih => rw [List.filterMap_cons_none (Line.ofPiece?_of_blank hblank), ih]
  | remove hblank _ ih => rw [List.filterMap_cons_none (Line.ofPiece?_of_blank hblank), ih]
  | line hmargin hmargin' htrailing htrailing' hfirst hlength _ ih =>
    rw [List.filterMap_cons_some (Line.ofPiece?_of_margin hmargin htrailing hfirst),
      List.filterMap_cons_some (Line.ofPiece?_of_margin hmargin' htrailing' hfirst), ih, hlength]
    rfl

theorem Relaid.lines_eq {f : Nat → Nat} {a b : String} (h : Relaid f a b) :
    lines b.toList = (lines a.toList).map (Line.reindent f) := h.filterMap_eq

end Text

/-- In both modes two texts have the same records if they differ in blank lines, in the blanks at
the ends of lines and in their margins alone, as long as a larger margin in the one is a larger one
in the other. -/
theorem Record.ofText_of_relaid (mode : PathMode) {f : Nat → Nat} (hf : StrictMono f)
    {a b : String} (h : Text.Relaid f a b) : ofText mode b = ofText mode a :=
  ofText_of_lines_reindent hf h.lines_eq mode

/-- Two lines, the second of which is nested, and the same two with carriage returns, a blank line
between them, a blank at the end and margins that are twice as large and two blanks more. -/
theorem Record.ofText_of_relaid_nested :
    let a := "Types of property 'p' are incompatible\n Object is possibly 'null'"
    let b := "  Types of property 'p' are incompatible\r\n\t\r\n\t\t\t\tObject is possibly 'null' "
    StrictMono (fun n => 2 * n + 2) ∧ Text.Relaid (fun n => 2 * n + 2) a b ∧
      ofText .indented b = ofText .indented a := by
  intro a b
  have hmono : StrictMono fun n => 2 * n + 2 := by
    intro m n h
    dsimp only
    omega
  have ha : Text.cutAt (· == '\n') a.toList =
      [[] ++ ('T' :: "ypes of property 'p' are incompatible".toList ++ []),
        [' '] ++ ('O' :: "bject is possibly 'null'".toList ++ [])] := by
    decide +kernel
  have hb : Text.cutAt (· == '\n') b.toList =
      [[' ', ' '] ++ ('T' :: "ypes of property 'p' are incompatible".toList ++ ['\r']),
        ['\t', '\r'],
        ['\t', '\t', '\t', '\t'] ++ ('O' :: "bject is possibly 'null'".toList ++ [' '])] := by
    decide +kernel
  have hrelaid : Text.Relaid (fun n => 2 * n + 2) a b := by
    rw [Text.Relaid, ha, hb]
    refine .line (by decide) (by decide) (by decide) (by decide) (by decide) rfl ?_
    refine .insert (by decide) ?_
    exact .line (by decide) (by decide) (by decide) (by decide) (by decide) rfl .nil
  exact ⟨hmono, hrelaid, ofText_of_relaid .indented hmono hrelaid⟩

end Diagnosis
