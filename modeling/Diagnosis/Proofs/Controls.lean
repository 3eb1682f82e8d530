import Diagnosis.Explanation.Detail
import Diagnosis.Explanation.Title

/-!
# Control characters in explanations

The control characters come before the blank. Line feeds are among them, and so is the character
that opens a colour. Titles are fixed texts, and a detail is made of fixed texts, of numerals and of
the texts that the problem mentions. No fixed text and no numeral has a control character, so none
stands in a title (`Problem.lacks_title`), and one that stands in a detail stands in a text that the
problem mentions (`Problem.lacks_detail`).
-/

namespace Diagnosis

/-- Whether a character is no control character. -/
def Text.isPrintable (d : Char) : Bool := ' ' ≤ d

/-- A control character. -/
structure Text.Control where
  /-- The character. -/
  char : Char
  isPrintable_eq_false : isPrintable char = false

/-- Whether a control character does not stand in a text. -/
def Text.Lacks (c : Text.Control) (s : String) : Prop := c.char ∉ s.toList

open Text (Control Lacks)

variable {c : Control}

/-! ## Texts made of others -/

namespace Text.Lacks

theorem ofList {cs : List Char} (h : cs.all isPrintable = true) : Lacks c (String.ofList cs) := by
  rw [Lacks, String.toList_ofList]
  intro hmem
  have hprintable := List.all_eq_true.1 h c.char hmem
  rw [c.isPrintable_eq_false] at hprintable
  cases hprintable

theorem append_iff {s t : String} : Lacks c (s ++ t) ↔ Lacks c s ∧ Lacks c t := by
  simp [Lacks]

theorem intercalate {sep : String} (hsep : Lacks c sep) {texts : List String}
    (h : ∀ t ∈ texts, Lacks c t) : Lacks c (sep.intercalate texts) := by
  induction texts with
  | nil => exact ofList rfl
  | cons t rest ih =>
    obtain ⟨ht, hrest⟩ := List.forall_mem_cons.1 h
    cases rest with
    | nil => simpa [Lacks] using ht
    | cons next rest =>
      rw [String.intercalate_cons_cons, append_iff, append_iff]
      exact ⟨⟨ht, hsep⟩, ih hrest⟩

theorem repr (n : Nat) : Lacks c n.repr := by
  refine ofList (List.all_eq_true.2 fun d hmem => ?_)
  have hdigit := Nat.isDigit_of_mem_toDigits (by decide) (by decide) hmem
  rw [Char.isDigit, Bool.and_eq_true, decide_eq_true_iff] at hdigit
  exact decide_eq_true (Char.le_trans (by decide : ' ' ≤ '0') hdigit.1)

theorem inQuotes_iff {s : String} : Lacks c (inQuotes s) ↔ Lacks c s := by
  have hquote : Lacks c "'" := ofList rfl
  rw [inQuotes, append_iff, append_iff, and_iff_left hquote, and_iff_right hquote]

theorem commaList {texts : List String} (h : ∀ t ∈ texts, Lacks c t) :
    Lacks c (commaList texts) :=
  intercalate (ofList rfl) h

end Text.Lacks

open Text.Lacks (append_iff inQuotes_iff)

/-! ## Explanations -/

theorem Problem.lacks_title (arrayExpected : Bool) (p : Problem) :
    Lacks c (p.title arrayExpected) := by
  cases p with
  | typeMismatch m =>
    simp only [title, TypeMismatch.title]
    repeat' split
    all_goals exact .ofList rfl
  | _ => exact .ofList rfl

theorem Problem.lacks_detail {p : Problem} (h : ∀ s ∈ p.strings, Lacks c s) :
    Lacks c p.detail := by
  unfold detail
  cases p with
  | typeMismatch m =>
    simp only [strings, List.forall_mem_cons] at h
    simp only [TypeMismatch.detail]
    split
    · simp only [append_iff, inQuotes_iff, h, and_true]
      exact ⟨.ofList rfl, .ofList rfl⟩
    · simp only [append_iff, inQuotes_iff, h, and_true, true_and]
      exact .ofList rfl
  | missing missingProps => exact append_iff.2 ⟨.ofList rfl, .commaList h⟩
  | missingPropsFrom sourceType targetType missingProps =>
    simp only [strings, List.forall_mem_cons] at h
    simp only [append_iff, inQuotes_iff, h.1, h.2.1, Lacks.commaList h.2.2, and_true, true_and]
    exact ⟨.ofList rfl, .ofList rfl⟩
  -- counts are not among the texts of a problem, their digits are harmless by themselves
  | argumentCount expectedMin expectedMax got =>
    have hcomma : Lacks c ", got " := .ofList rfl
    have hdash : Lacks c "-" := .ofList rfl
    simp only [append_iff, Lacks.repr, countText, hcomma, and_true]
    refine ⟨.ofList rfl, ?_⟩
    split
    · exact .repr _
    · simp only [append_iff, Lacks.repr, hdash, and_true]
  | genericArgsRequired genericType requiredCount =>
    simp only [strings, List.forall_mem_cons] at h
    simp only [append_iff, inQuotes_iff, countText, Lacks.repr, h, and_true, true_and]
    exact ⟨.ofList rfl, .ofList rfl⟩
  | noOverload | unknownType | possiblyUndefined | possiblyNull | possiblyNullOrUndefined
  | notCallable | notConstructable | mustReturn => exact .ofList rfl
  | _ =>
    simp only [strings, List.forall_mem_cons] at h
    simp only [append_iff, inQuotes_iff, h, and_true, true_and]
    repeat' apply And.intro
    all_goals exact .ofList rfl

end Diagnosis
