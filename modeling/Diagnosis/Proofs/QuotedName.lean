import Diagnosis.Proofs.WordingLaws

/-!
# The first name in quotation marks

The lines that enter a property or suggest a name have one gap, a name in quotation marks between
words that are always the same. Which name such a line has can be said by its characters alone
(`Text.FirstQuotes`), and the wording made of the words and the gap finds just that name
(`Wording.find?_between_eq_some_iff`).
-/

namespace Diagnosis

theorem isQuote_iff_mem {c : Char} : isQuote c = true ↔ c ∈ ['\'', '"'] := by
  simp [isQuote]

theorem forall_isQuote_eq_false_iff {cs : List Char} :
    (∀ c ∈ cs, isQuote c = false) ↔ '\'' ∉ cs ∧ '"' ∉ cs := by
  constructor
  · intro h
    exact ⟨fun hmem => absurd (h _ hmem) (by decide), fun hmem => absurd (h _ hmem) (by decide)⟩
  · rintro ⟨hsingle, hdouble⟩ c hc
    rw [Bool.eq_false_iff, ne_eq, isQuote_iff_mem]
    intro hmark
    rcases List.mem_pair.1 hmark with rfl | rfl
    · exact hsingle hc
    · exact hdouble hc

namespace Text

variable {front back name : String} {cs : List Char}

/-- Whether a text begins with a name in quotation marks between two given texts. The marks may be
single or double; the name is not empty and holds neither. -/
def Quotes (front back name : String) (cs : List Char) : Prop :=
  ∃ opening ∈ ['\'', '"'], ∃ closing ∈ ['\'', '"'], ∃ rest,
    cs = front.toList ++ opening :: (name.toList ++ closing :: (back.toList ++ rest)) ∧
      name ≠ "" ∧ '\'' ∉ name.toList ∧ '"' ∉ name.toList

/-- Whether a name in quotation marks stands between two given texts, and no name stands so further
left. -/
def FirstQuotes (front back name : String) (cs : List Char) : Prop :=
  ∃ i, Quotes front back name (cs.drop i) ∧ ∀ j < i, ∀ other, ¬ Quotes front back other (cs.drop j)

theorem FirstQuotes.ne_empty (h : FirstQuotes front back name cs) : name ≠ "" := by
  obtain ⟨i, ⟨_, _, _, _, _, _, hne, _⟩, -⟩ := h
  exact hne

end Text

namespace Wording

variable {front back : String} {cs : List Char} {fields : Fields}

/-- What a gap between two texts reads is the name that the text quotes there. -/
theorem readAny?_between_eq_some_iff :
    readAny? [text front ++ quoted ++ text back] cs = some fields ↔
      ∃ name, fields = [name] ∧ Text.Quotes front back name cs := by
  rw [readAny?, List.findSome?_singleton, Option.map_eq_some_iff]
  constructor
  · rintro ⟨⟨_, rest⟩, hread, rfl⟩
    obtain ⟨_, cs₂, _, hfirst, hback, rfl⟩ := read?_append_eq_some_iff.1 hread
    obtain ⟨_, cs₁, _, hfront, hquoted, rfl⟩ := read?_append_eq_some_iff.1 hfirst
    obtain ⟨rfl, rfl⟩ := read?_text_eq_some_iff.1 hfront
    obtain ⟨rfl, rfl⟩ := read?_text_eq_some_iff.1 hback
    obtain ⟨opening, name, closing, hopen, hclose, hne, hname, rfl, rfl⟩ :=
      read?_quoted_eq_some_iff.1 hquoted
    refine ⟨String.ofList name, rfl, opening, isQuote_iff_mem.1 hopen, closing,
      isQuote_iff_mem.1 hclose, rest, ?_, ?_, ?_⟩
    · rw [String.toList_ofList]
    · rwa [ne_eq, String.ofList_eq_empty_iff]
    · rw [String.toList_ofList]
      exact forall_isQuote_eq_false_iff.1 hname
  · rintro ⟨name, rfl, opening, hopen, closing, hclose, rest, rfl, hne, hname⟩
    have hquoted : quoted.read? (opening :: (name.toList ++ closing :: (back.toList ++ rest))) =
        some ([name], back.toList ++ rest) :=
      read?_quoted_eq_some_iff.2 ⟨opening, name.toList, closing, isQuote_iff_mem.2 hopen,
        isQuote_iff_mem.2 hclose, mt String.toList_eq_nil_iff.1 hne,
        forall_isQuote_eq_false_iff.2 hname, rfl, by rw [String.ofList_toList]⟩
    have hfirst := read?_append_of_some (read?_text front _) hquoted
    exact ⟨_, read?_append_of_some hfirst (read?_text back rest), rfl⟩

/-- What a gap between two texts finds is the first name that the text quotes between them. -/
theorem find?_between_eq_some_iff :
    find? [text front ++ quoted ++ text back] cs = some fields ↔
      ∃ name, fields = [name] ∧ Text.FirstQuotes front back name cs := by
  have hnone (rest : List Char) : readAny? [text front ++ quoted ++ text back] rest = none ↔
      ∀ other, ¬ Text.Quotes front back other rest := by
    rw [Option.eq_none_iff_forall_ne_some]
    constructor
    · exact fun h other hquotes => h _ (readAny?_between_eq_some_iff.2 ⟨other, rfl, hquotes⟩)
    · intro h fields hread
      obtain ⟨other, -, hquotes⟩ := readAny?_between_eq_some_iff.1 hread
      exact h other hquotes
  rw [find?_eq_some_iff]
  constructor
  · rintro ⟨i, -, hread, hearlier⟩
    obtain ⟨name, hfields, hquotes⟩ := readAny?_between_eq_some_iff.1 hread
    exact ⟨name, hfields, i, hquotes, fun j hj => (hnone _).1 (hearlier j hj)⟩
  · rintro ⟨name, hfields, i, hquotes, hearlier⟩
    refine ⟨i, ?_, readAny?_between_eq_some_iff.2 ⟨name, hfields, hquotes⟩,
      fun j hj => (hnone _).2 (hearlier j hj)⟩
    -- behind the end of the text nothing is quoted
    by_contra hi
    obtain ⟨opening, -, closing, -, rest, hcs, -⟩ := hquotes
    rw [List.drop_of_length_le (by omega)] at hcs
    simp at hcs

theorem map_text_find?_between_eq_some_iff {name : String} :
    (find? [text front ++ quoted ++ text back] cs).map (fun fields => fields.text 0) = some name ↔
      Text.FirstQuotes front back name cs := by
  rw [Option.map_eq_some_iff]
  constructor
  · rintro ⟨fields, hfind, rfl⟩
    obtain ⟨name, rfl, hfirst⟩ := find?_between_eq_some_iff.1 hfind
    exact hfirst
  · exact fun hfirst => ⟨[name], find?_between_eq_some_iff.2 ⟨name, rfl, hfirst⟩, rfl⟩

end Wording

end Diagnosis
