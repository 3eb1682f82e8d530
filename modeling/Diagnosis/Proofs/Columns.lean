import Diagnosis.Proofs.AlignedRows
import Diagnosis.Report.SideBySide

/-!
# Two columns

The lines of two types side by side are put together in two ways, one for the headings and one for
the rows, with other characters in front. Both leave the same room for the left column, as much as
its widest entry takes. So no entry is too wide for it, and the bar between the columns stands below
itself from the headings to the last row (`SideBySide.columns_aligned`). Widths are numbers of
characters, whatever the size of these characters is when they are encoded.
-/

namespace Diagnosis.SideBySide

open Diagnosis.Span

/-- Whether a line that is written without colours has some text, then blanks up to a width, and
then the bar between the columns with another text behind it. -/
def Divided (width : Nat) (left right : String) (line : List Span) : Prop :=
  ∃ blanks, left.length + blanks = width ∧
    writeLine false line =
      (left ++ String.ofList (List.replicate blanks ' ') ++ "│ " ++ right ++ "\n").toList

/-- The width is the number of characters in front of the bar. -/
theorem Divided.getElem?_width {width : Nat} {left right : String} {line : List Span}
    (h : Divided width left right line) : (writeLine false line)[width]? = some '│' := by
  obtain ⟨blanks, hwidth, hwrite⟩ := h
  have hfront : (left.toList ++ List.replicate blanks ' ').length = width := by
    rw [List.length_append, List.length_replicate, String.length_toList, hwidth]
  have hline : writeLine false line =
      (left.toList ++ List.replicate blanks ' ') ++ '│' :: ' ' :: (right ++ "\n").toList := by
    simp [hwrite]
  rw [hline, ← hfront, List.getElem?_append_right (Nat.le_refl _), Nat.sub_self]
  rfl

/-! ## The width of the left column -/

section Width

variable (heading : String) (rows : List AlignedRow)

/-- The left column is as wide as its widest entry. -/
theorem max?_columnWidth :
    (heading.length :: rows.map fun row => row.sourceDisplay.length).max? =
      some (columnWidth heading rows) := by
  rw [List.max?_cons', List.foldl_map]
  rfl

theorem length_heading_le_columnWidth : heading.length ≤ columnWidth heading rows := by
  have hmost := (List.max?_eq_some_iff.1 (max?_columnWidth heading rows)).2
  exact hmost _ List.mem_cons_self

theorem length_sourceDisplay_le_columnWidth {row : AlignedRow} (h : row ∈ rows) :
    row.sourceDisplay.length ≤ columnWidth heading rows := by
  have hmost := (List.max?_eq_some_iff.1 (max?_columnWidth heading rows)).2
  exact hmost _ (List.mem_cons_of_mem _ (List.mem_map_of_mem h))

end Width

/-! ## The lines -/

variable {width : Nat}

/-- The width is reached by the padding and the blank in front of the bar. -/
theorem divided_of_padding {front entry right : String} {line : List Span}
    (hfits : entry.length ≤ width)
    (hline : line.flatMap (fun span => span.text.toList) =
      (front ++ entry ++ padding width entry ++ " " ++ "│ " ++ right).toList) :
    Divided (front.length + width + 1) (front ++ entry) right line := by
  refine ⟨width - entry.length + 1, ?_, ?_⟩
  · rw [String.length_append]
    omega
  · have hwrite : line.flatMap (write false) = line.flatMap fun span => span.text.toList :=
      List.flatMap_congr fun span _ => write_false span
    rw [writeLine, hwrite, hline, List.replicate_succ']
    simp [padding]

theorem divided_headingLine {heading : String} (hfits : heading.length ≤ width)
    (targetHeading : String) :
    Divided (8 + width) ("   ┌─  " ++ heading) targetHeading
      (headingLine width heading targetHeading) := by
  have hdivided := @divided_of_padding width "   ┌─  " heading targetHeading
    (headingLine width heading targetHeading) hfits (by simp [headingLine, plain, toned])
  have hwidth : "   ┌─  ".length + width + 1 = 8 + width := by
    rw [show "   ┌─  ".length = 7 from rfl]
    omega
  rwa [hwidth] at hdivided

theorem divided_rowLine {row : AlignedRow} (hfits : row.sourceDisplay.length ≤ width) :
    Divided (8 + width) ("   │ " ++ row.status.mark ++ " " ++ row.sourceDisplay)
      row.targetDisplay (rowLine width row) := by
  have hdivided := @divided_of_padding width ("   │ " ++ row.status.mark ++ " ")
    row.sourceDisplay row.targetDisplay (rowLine width row) hfits
    (by simp [rowLine, plain, toned])
  have hmark : row.status.mark.length = 1 := by cases row.status <;> rfl
  have hwidth : ("   │ " ++ row.status.mark ++ " ").length + width + 1 = 8 + width := by
    rw [String.length_append, String.length_append, hmark, show "   │ ".length = 5 from rfl,
      show " ".length = 1 from rfl]
    omega
  rwa [hwidth] at hdivided

/-- If one of two types is an object type, the two are shown in two columns. The left one is as wide
as the widest of its heading and the entries of its rows, so each of these fits. In the line with
the headings and in each row, written without colours, the bar between the columns stands behind as
many characters as that and eight more. -/
theorem columns_aligned {source target : String}
    (h : (TypeText.ofString source).isObject = true ∨
      (TypeText.ofString target).isObject = true) :
    ∃ heading targetHeading rows width,
      heading = "actual (" ++ TypeText.summary source ++ ")" ∧
      targetHeading = "expected (" ++ TypeText.summary target ++ ")" ∧
      Alignment.between source target = .object rows ∧
      (heading.length :: rows.map fun row => row.sourceDisplay.length).max? = some width ∧
      heading.length ≤ width ∧ (∀ row ∈ rows, row.sourceDisplay.length ≤ width) ∧
      lines source target = headingLine width heading targetHeading ::
        rows.map (rowLine width) ++ [[plain "   ", toned .muted "└─"]] ∧
      Divided (8 + width) ("   ┌─  " ++ heading) targetHeading
        (headingLine width heading targetHeading) ∧
      ∀ row ∈ rows, Divided (8 + width) ("   │ " ++ row.status.mark ++ " " ++ row.sourceDisplay)
        row.targetDisplay (rowLine width row) := by
  obtain ⟨rows, hrows⟩ : ∃ rows, Alignment.between source target = .object rows :=
    ⟨_, Alignment.between_eq_object h⟩
  have hheading := length_heading_le_columnWidth ("actual (" ++ TypeText.summary source ++ ")") rows
  have hentry (row : AlignedRow) (hrow : row ∈ rows) :=
    length_sourceDisplay_le_columnWidth ("actual (" ++ TypeText.summary source ++ ")") rows hrow
  refine ⟨_, _, rows, _, rfl, rfl, hrows, max?_columnWidth _ rows, hheading, hentry, ?_,
    divided_headingLine hheading _, fun row hrow => divided_rowLine (hentry row hrow)⟩
  rw [lines, hrows]
  rfl

/-- Two types with names in several scripts. The widest entry on the left is in the row of the
property that only the target has. -/
theorem columns_aligned_scripts :
    ∃ columns,
      lines "\x7b имя: string; 年: number \x7d" "\x7b имя: string; größe?: number \x7d" =
        columns ++ [[plain "   ", toned .muted "└─"]] ∧
      columns.length = 4 ∧ ∀ line ∈ columns, (writeLine false line)[25]? = some '│' := by
  have hobject : (TypeText.ofString "\x7b имя: string; 年: number \x7d").isObject = true := by
    decide +kernel
  obtain ⟨_, _, rows, width, rfl, rfl, hrows, hmax, -, -, hlines, hheadings, hentries⟩ :=
    @columns_aligned _ "\x7b имя: string; größe?: number \x7d" (Or.inl hobject)
  have hlengths : rows.map (fun row => row.sourceDisplay.length) = [11, 9, 17] := by
    have hconcrete : (match Alignment.between "\x7b имя: string; 年: number \x7d"
        "\x7b имя: string; größe?: number \x7d" with
      | .object rows => rows.map fun row => row.sourceDisplay.length
      | .primitive .. => []) = [11, 9, 17] := by decide +kernel
    rwa [hrows] at hconcrete
  have hsummary : TypeText.summary "\x7b имя: string; 年: number \x7d" = "object" := by
    decide +kernel
  have hwidth : 17 = width := by
    rw [hlengths, hsummary] at hmax
    exact Option.some.inj hmax
  subst hwidth
  refine ⟨_, hlines, ?_, List.forall_mem_cons.2 ⟨hheadings.getElem?_width, ?_⟩⟩
  · have hlength := congrArg List.length hlengths
    rw [List.length_map] at hlength
    rw [List.length_cons, List.length_map, hlength]
    rfl
  · rw [List.forall_mem_map]
    exact fun row hrow => (hentries row hrow).getElem?_width

end Diagnosis.SideBySide
