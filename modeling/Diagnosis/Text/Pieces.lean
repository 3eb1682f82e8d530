import Diagnosis.Text.Blank

/-!
# Pieces of a text

A text is cut at the characters of a class: into lines at line feeds, into the entries of a list at
commas, into words at blanks. Cutting keeps every piece, the empty ones too, so that joining the
pieces gives the text back; words are the pieces that are not empty.
-/

namespace Diagnosis.Text

/-- The pieces between the characters of a class. -/
def cutAt (sep : Char → Bool) : List Char → List (List Char)
  | [] => [[]]
  | c :: rest =>
    if sep c then [] :: cutAt sep rest else (cutAt sep rest).modifyHead (c :: ·)

theorem cutAt_ne_nil (sep : Char → Bool) (cs : List Char) : cutAt sep cs ≠ [] := by
  induction cs with
  | nil => simp [cutAt]
  | cons c rest ih =>
    by_cases h : sep c = true
    · simp [cutAt, h]
    · cases hr : cutAt sep rest with
      | nil => exact absurd hr ih
      | cons piece pieces => simp [cutAt, h, hr]

/-- Cutting at a separator that is already known leaves two texts to cut. -/
theorem cutAt_append_cons {sep : Char → Bool} {c : Char} (hc : sep c = true)
    (before after : List Char) :
    cutAt sep (before ++ c :: after) = cutAt sep before ++ cutAt sep after := by
  induction before with
  | nil => simp [cutAt, hc]
  | cons b rest ih =>
    by_cases hb : sep b = true
    · simp [cutAt, hb, ih]
    · cases hr : cutAt sep rest with
      | nil => exact absurd hr (cutAt_ne_nil sep rest)
      | cons piece pieces => simp [cutAt, hb, ih, hr]

/-- A text with `n` separators has `n + 1` pieces. -/
theorem length_cutAt (sep : Char → Bool) (cs : List Char) :
    (cutAt sep cs).length = cs.countP sep + 1 := by
  induction cs with
  | nil => rfl
  | cons c rest ih => by_cases hc : sep c = true <;> simp [cutAt, hc, ih]

/-- The pieces between the occurrences of one character, joined by that character, are the text. -/
theorem intercalate_cutAt (d : Char) (cs : List Char) :
    [d].intercalate (cutAt (· == d) cs) = cs := by
  induction cs with
  | nil => rfl
  | cons c rest ih =>
    obtain ⟨piece, pieces, hr⟩ := List.exists_cons_of_ne_nil (cutAt_ne_nil (· == d) rest)
    rw [hr] at ih
    by_cases hc : c = d
    · subst hc
      simpa [cutAt, hr, List.intercalate_cons_cons] using ih
    · cases pieces with
      | nil => simpa [cutAt, hc, hr] using ih
      | cons next pieces =>
        simpa [cutAt, hc, hr, List.intercalate_cons_cons] using ih

/-- No piece holds a separator. -/
theorem not_sep_of_mem_cutAt {sep : Char → Bool} {cs piece : List Char}
    (h : piece ∈ cutAt sep cs) : ∀ c ∈ piece, sep c = false := by
  induction cs generalizing piece with
  | nil =>
    simp only [cutAt, List.mem_singleton] at h
    simp [h]
  | cons b rest ih =>
    by_cases hb : sep b = true
    · simp only [cutAt, hb, if_true, List.mem_cons] at h
      rcases h with rfl | h
      · simp
      · exact ih h
    · cases hr : cutAt sep rest with
      | nil => exact absurd hr (cutAt_ne_nil sep rest)
      | cons first pieces =>
        simp only [cutAt, if_neg hb, hr, List.modifyHead_cons, List.mem_cons] at h
        rcases h with rfl | h
        · intro c hc
          rcases List.mem_cons.1 hc with rfl | hc
          · simpa using hb
          · exact ih (by simp [hr]) c hc
        · exact ih (by simp [hr, h])

/-! ## Words -/

/-- The words of a text: its longest runs without a blank. -/
def words (cs : List Char) : List (List Char) :=
  (cutAt isBlank cs).filter fun piece => !piece.isEmpty

/-- The words on the two sides of a blank are the words of the whole. -/
theorem words_append_cons {c : Char} (hc : isBlank c = true) (before after : List Char) :
    words (before ++ c :: after) = words before ++ words after := by
  simp [words, cutAt_append_cons hc]

/-- A word is not empty and holds no blank. -/
theorem of_mem_words {cs word : List Char} (h : word ∈ words cs) :
    word ≠ [] ∧ ∀ c ∈ word, isBlank c = false := by
  obtain ⟨hw, hne⟩ := List.mem_filter.1 h
  exact ⟨by simpa using hne, not_sep_of_mem_cutAt hw⟩

/-- The words of a text with one space between them. Two texts with the same normal form differ in
their blanks only. -/
def normalize (s : String) : String :=
  String.ofList ([' '].intercalate (words s.toList))

/-! ## Occurrences -/

/-- Whether a text contains another one as a contiguous part. -/
def occursIn (part : List Char) : List Char → Bool
  | [] => part.isEmpty
  | c :: rest => part.isPrefixOf (c :: rest) || occursIn part rest

/-- Whether a text contains another one as a contiguous part. -/
def contains (s part : String) : Bool := occursIn part.toList s.toList

end Diagnosis.Text
