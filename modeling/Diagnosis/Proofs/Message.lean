import Diagnosis.Explanation.Detail
import Diagnosis.Proofs.Layout
import Diagnosis.Proofs.WordingLaws

/-!
# Writing a message

A message is a sequence of parts: fixed words, fixed words between quotation marks, names between
quotation marks, and counts. The same parts tell the wording of the message and the fields that it
mentions. Reading is the inverse of writing: the wording, read at the start of the message, keeps
exactly these fields and leaves nothing (`Message.read?_wording`), and the message is a line of its
own (`Message.lines_text`).

Both need some care where parts meet. Quotation marks end a name, so a name must not hold any; a
count goes on as long as there are digits, so no digit may follow one; and a line loses the blanks
at its ends, so a message must not begin or end with one.
-/

namespace Diagnosis

open Text (isBlank isDecimalDigit lines)

/-- Whether a text stays on its line. -/
def Text.Unbroken (s : String) : Prop := '\n' ∉ s.toList

open Text (Unbroken)

theorem Text.Unbroken.ofList {cs : List Char} (h : '\n' ∉ cs) : Unbroken (String.ofList cs) := by
  rw [Unbroken, String.toList_ofList]
  exact h

/-- A part of a message: fixed words, bare or between quotation marks, a name between quotation
marks, or a count in decimal digits. -/
inductive Part where
  | words (text : String) (unbroken : Unbroken text := by exact .ofList (by decide))
  | quotedWord (text : String) (unbroken : Unbroken text := by exact .ofList (by decide))
  | name (text : String)
  | count (n : UInt32)

/-- A sequence of parts. -/
abbrev Message := List Part

namespace Part

/-- The part as it is written. -/
def text : Part → String
  | words text _ => text
  | quotedWord text _ | name text => inQuotes text
  | count n => countText n

/-- The wording that reads the part. -/
def wording : Part → Wording
  | words text _ => Wording.text text
  | quotedWord text _ => Wording.quotedWord text
  | name _ => Wording.quoted
  | count _ => Wording.digits

/-- What the wording keeps of the part. -/
def fields : Part → Fields
  | words .. | quotedWord .. => []
  | name text => [text]
  | count n => [countText n]

/-- The name that a part mentions. -/
def name? : Part → Option String
  | name text => some text
  | _ => none

/-- Whether a part begins with a character of a class. Of counts this is not told. -/
def startsWith (accepts : Char → Bool) : Part → Bool
  | words text _ => text.toList.head?.any accepts
  | quotedWord .. | name _ => accepts '\''
  | count _ => false

/-- Whether a part does not end in a blank. -/
def closes : Part → Bool
  | words text _ => text.toList.getLast?.any fun c => !isBlank c
  | _ => true

/-- Whether a part is a count. -/
def isCount : Part → Bool
  | count _ => true
  | _ => false

theorem startsWith_words {accepts : Char → Bool} {cs : List Char} {h : Unbroken (String.ofList cs)}
    (hcs : cs.head?.any accepts = true) : (words (String.ofList cs) h).startsWith accepts = true := by
  rw [startsWith, String.toList_ofList]
  exact hcs

theorem closes_words {cs : List Char} {h : Unbroken (String.ofList cs)}
    (hcs : (cs.getLast?.any fun c => !isBlank c) = true) :
    (words (String.ofList cs) h).closes = true := by
  rw [closes, String.toList_ofList]
  exact hcs

end Part

namespace Message

/-- The characters of a message. -/
def chars (m : Message) : List Char := m.flatMap fun part => part.text.toList

/-- A message as it is written. -/
def text (m : Message) : String := String.ofList m.chars

/-- The wording that reads a message. -/
def wording (m : Message) : Wording := m.flatMap Part.wording

/-- What the wording keeps of a message. -/
def fields (m : Message) : Fields := m.flatMap Part.fields

/-- The names that a message mentions. -/
def names (m : Message) : List String := m.filterMap Part.name?

/-- Whether no count runs into the part behind it. -/
def isDelimited : Message → Bool
  | [] => true
  | part :: rest =>
    (!part.isCount || rest.head?.all (Part.startsWith fun c => !isDecimalDigit c)) &&
      isDelimited rest

/-- Whether the fixed words of a message make it one that can be read back from a line. -/
structure Sound (m : Message) : Prop where
  delimited : m.isDelimited = true
  opens : ∃ part, m.head? = some part ∧ part.startsWith (fun c => !isBlank c) = true
  closes : ∃ part, m.getLast? = some part ∧ part.closes = true

end Message

/-- Whether a text can be a name in a message: it is not empty, holds no quotation mark and stays on
its line. -/
def Text.Quotable (s : String) : Prop := s ≠ "" ∧ ∀ c ∈ s.toList, isQuote c = false ∧ c ≠ '\n'

instance (s : String) : Decidable (Text.Quotable s) :=
  decidable_of_iff (s ≠ "" ∧ (s.toList.all fun c => !isQuote c && c != '\n') = true)
    (by simp [Text.Quotable])

theorem Text.Quotable.ofList {cs : List Char} (hne : cs ≠ [])
    (h : (cs.all fun c => !isQuote c && c != '\n') = true) : Quotable (String.ofList cs) := by
  refine ⟨mt String.ofList_eq_empty_iff.1 hne, fun c hc => ?_⟩
  rw [String.toList_ofList] at hc
  simpa using List.all_eq_true.1 h c hc

theorem Text.Quotable.isQuote_eq_false {s : String} (h : Quotable s) :
    ∀ c ∈ s.toList, isQuote c = false :=
  fun c hc => (h.2 c hc).1

open Text (Quotable)

/-! ## Counts -/

namespace Text

theorem toNat_of_isDigit {c : Char} (h : c.isDigit = true) : 48 ≤ c.toNat ∧ c.toNat < 58 := by
  simp only [Char.isDigit, Bool.and_eq_true, decide_eq_true_eq, UInt32.le_iff_toNat_le] at h
  exact ⟨h.1, Nat.lt_succ_of_le h.2⟩

theorem isDecimalDigit_of_isDigit {c : Char} (h : c.isDigit = true) : isDecimalDigit c = true := by
  obtain ⟨hleast, hmost⟩ := toNat_of_isDigit h
  refine List.any_eq_true.2 ⟨0x30, by decide, ?_⟩
  simp [hleast, hmost]

theorem isBlank_of_isDigit {c : Char} (h : c.isDigit = true) : isBlank c = false := by
  have hrange := toNat_of_isDigit h
  rw [Bool.eq_false_iff]
  intro hblank
  simp only [isBlank, blankRanges, List.any_cons, List.any_nil, Bool.or_eq_true,
    Bool.and_eq_true, decide_eq_true_eq, Bool.false_eq_true, or_false] at hblank
  omega

/-- Whether a text is a numeral: digits, and at least one of them. -/
def IsNumeral (s : String) : Prop := s ≠ "" ∧ ∀ c ∈ s.toList, c.isDigit = true

instance (s : String) : Decidable (IsNumeral s) :=
  decidable_of_iff (s ≠ "" ∧ s.toList.all Char.isDigit = true) (by simp [IsNumeral])

theorem isNumeral_repr (n : Nat) : IsNumeral n.repr := by
  have hdigits : n.repr.toList = Nat.toDigits 10 n := by
    rw [Nat.repr_eq_ofList_toDigits, String.toList_ofList]
  refine ⟨mt String.toList_eq_nil_iff.2 ?_, fun c hc => ?_⟩
  · rw [hdigits]
    exact Nat.toDigits_ne_nil
  · rw [hdigits] at hc
    exact Nat.isDigit_of_mem_toDigits (by decide) (by decide) hc

theorem isNumeral_countText (n : UInt32) : IsNumeral (countText n) := isNumeral_repr n.toNat

/-- A count is read back from its digits. -/
theorem countOfDigits_countText (n : UInt32) : countOfDigits (countText n).toList = n := by
  have hall : (countText n).toList.all Char.isDigit = true :=
    List.all_eq_true.2 (isNumeral_countText n).2
  have hvalue : decimalValue (countText n).toList = n.toNat := by
    rw [countText, Nat.repr_eq_ofList_toDigits, String.toList_ofList]
    exact Nat.ofDigitChars_toDigits (by decide) (by decide)
  have hmin : Nat.min n.toNat maxCount = n.toNat :=
    Nat.min_eq_left (Nat.le_of_lt_succ n.toNat_lt)
  rw [countOfDigits, if_pos hall, hvalue, hmin, UInt32.ofNat_toNat]

end Text

/-! ## Reading a part -/

/-- Whether a count ends where a text goes on. -/
def Text.StopsCount (rest : List Char) : Prop := ∀ c ∈ rest.head?, isDecimalDigit c = false

open Text (StopsCount)

theorem Text.stopsCount_append {words : String}
    (h : (words.toList.head?.any fun c => !isDecimalDigit c) = true) (rest : List Char) :
    StopsCount (words.toList ++ rest) := by
  obtain ⟨first, hfirst, hdigit⟩ := (Option.any_eq_true _ _).1 h
  intro c hc
  rw [List.head?_append, hfirst] at hc
  cases hc
  simpa using hdigit

namespace Part

theorem toList_inQuotes (s : String) : (inQuotes s).toList = '\'' :: (s.toList ++ ['\'']) := by
  simp [inQuotes]

theorem toList_inQuotes_append (s : String) (rest : List Char) :
    (inQuotes s).toList ++ rest = '\'' :: (s.toList ++ '\'' :: rest) := by
  rw [toList_inQuotes, List.cons_append, List.append_assoc, List.singleton_append]

theorem read?_quotedWord (text : String) (rest : List Char) :
    (Wording.quotedWord text).read? ((inQuotes text).toList ++ rest) = some ([], rest) := by
  have hmark : isQuote '\'' = true := rfl
  rw [toList_inQuotes_append]
  show Wording.read? [.quote, .exactly text.toList, .quote] _ = _
  rw [Wording.read?_cons (Piece.read?_quote hmark _), Wording.read?_cons (Piece.read?_exactly _ _),
    Wording.read?_cons (Piece.read?_quote hmark _)]
  rfl

theorem read?_name {text : String} (h : Quotable text) (rest : List Char) :
    Wording.quoted.read? ((inQuotes text).toList ++ rest) = some ([text], rest) := by
  rw [toList_inQuotes_append]
  refine Wording.read?_quoted_eq_some_iff.2 ⟨'\'', text.toList, '\'', rfl, rfl,
    mt String.toList_eq_nil_iff.1 h.1, h.isQuote_eq_false, rfl, ?_⟩
  rw [String.ofList_toList]

theorem read?_numeral {text : String} (h : Text.IsNumeral text) {rest : List Char}
    (hrest : StopsCount rest) :
    Wording.digits.read? (text.toList ++ rest) = some ([text], rest) := by
  have hfield := Piece.read?_field (mt String.toList_eq_nil_iff.1 h.1)
    (fun c hc => Text.isDecimalDigit_of_isDigit (h.2 c hc)) hrest
  rw [String.ofList_toList] at hfield
  show Wording.read? [.field isDecimalDigit] _ = _
  rw [Wording.read?_cons hfield]
  rfl

variable {part : Part}

/-- A part is read back from its text, whatever text follows, unless digits follow a count. -/
theorem read?_wording (hname : ∀ s ∈ part.name?, Quotable s) {rest : List Char}
    (hcount : part.isCount = true → StopsCount rest) :
    part.wording.read? (part.text.toList ++ rest) = some (part.fields, rest) := by
  cases part with
  | words text _ => exact Wording.read?_text text rest
  | quotedWord text _ => exact read?_quotedWord text rest
  | name text => exact read?_name (hname text rfl) rest
  | count n => exact read?_numeral (Text.isNumeral_countText n) (hcount rfl)

theorem head?_text_append {accepts : Char → Bool} (h : part.startsWith accepts = true)
    (rest : List Char) : ∃ c, (part.text.toList ++ rest).head? = some c ∧ accepts c = true := by
  have hhead : ∃ c, part.text.toList.head? = some c ∧ accepts c = true := by
    cases part with
    | words text _ => exact (Option.any_eq_true _ _).1 h
    | quotedWord text _ | name text =>
      refine ⟨'\'', ?_, h⟩
      rw [Part.text, toList_inQuotes]
      rfl
    | count n => cases h
  obtain ⟨c, hc, haccepts⟩ := hhead
  refine ⟨c, ?_, haccepts⟩
  rw [List.head?_append, hc]
  rfl

theorem unbroken_text (hname : ∀ s ∈ part.name?, Quotable s) : Unbroken part.text := by
  have hquotes {s : String} (h : Unbroken s) : Unbroken (inQuotes s) := by
    simpa [Unbroken, toList_inQuotes] using h
  cases part with
  | words text unbroken => exact unbroken
  | quotedWord text unbroken => exact hquotes unbroken
  | name text => exact hquotes fun hmem => ((hname text rfl).2 '\n' hmem).2 rfl
  | count n => exact fun hmem => absurd ((Text.isNumeral_countText n).2 _ hmem) (by decide)

theorem getLast?_append_text (h : part.closes = true) (front : List Char) :
    ∃ c, (front ++ part.text.toList).getLast? = some c ∧ isBlank c = false := by
  have hlast : ∃ c, part.text.toList.getLast? = some c ∧ isBlank c = false := by
    cases part with
    | words text _ =>
      obtain ⟨c, hc, hblank⟩ := (Option.any_eq_true _ _).1 h
      exact ⟨c, hc, by simpa using hblank⟩
    | quotedWord text _ | name text =>
      refine ⟨'\'', ?_, by decide⟩
      rw [Part.text, toList_inQuotes, ← List.cons_append, List.getLast?_concat]
    | count n =>
      obtain ⟨hempty, hdigits⟩ := Text.isNumeral_countText n
      have hne := mt String.toList_eq_nil_iff.1 hempty
      have hdigit := hdigits _ (List.getLast_mem hne)
      exact ⟨_, List.getLast?_eq_some_getLast hne, Text.isBlank_of_isDigit hdigit⟩
  obtain ⟨c, hc, hblank⟩ := hlast
  refine ⟨c, ?_, hblank⟩
  rw [List.getLast?_append, hc]
  rfl

end Part

namespace Message

/-! ## Reading a message -/

theorem chars_cons (part : Part) (m : Message) :
    chars (part :: m) = part.text.toList ++ m.chars := List.flatMap_cons

theorem chars_append (m after : Message) : chars (m ++ after) = m.chars ++ after.chars :=
  List.flatMap_append

theorem forall_mem_names_cons {p : String → Prop} {part : Part} {m : Message} :
    (∀ s ∈ names (part :: m), p s) ↔ (∀ s ∈ part.name?, p s) ∧ ∀ s ∈ m.names, p s := by
  cases h : part.name? <;> simp [names, h]

theorem stopsCount_chars {m : Message}
    (h : m.head?.all (Part.startsWith fun c => !isDecimalDigit c) = true) : StopsCount m.chars := by
  cases m with
  | nil => nofun
  | cons part rest =>
    obtain ⟨first, hfirst, hdigit⟩ := part.head?_text_append h (chars rest)
    intro c hc
    rw [chars_cons, hfirst] at hc
    rw [← Option.some.inj hc]
    simpa using hdigit

/-- The wording of a message reads the message up to where another one goes on, and keeps what the
message mentions. -/
theorem read?_wording_append {m after : Message} (h : (m ++ after).isDelimited = true)
    (hnames : ∀ s ∈ m.names, Quotable s) :
    m.wording.read? (chars (m ++ after)) = some (m.fields, after.chars) := by
  induction m with
  | nil => rfl
  | cons part rest ih =>
    rw [List.cons_append, isDelimited, Bool.and_eq_true] at h
    obtain ⟨hpart, hrest⟩ := forall_mem_names_cons.1 hnames
    -- digits behind a count would be read as a part of it
    have hcount (hc : part.isCount = true) : StopsCount (chars (rest ++ after)) := by
      refine stopsCount_chars ?_
      simpa [hc] using h.1
    show Wording.read? (part.wording ++ wording rest) _ = some (part.fields ++ fields rest, _)
    rw [List.cons_append, chars_cons, Wording.read?_append, part.read?_wording hpart hcount,
      Option.bind_some, ih h.2 hrest]
    rfl

theorem read?_wording {m : Message} (hm : m.Sound) (hnames : ∀ s ∈ m.names, Quotable s) :
    m.wording.read? m.chars = some (m.fields, []) := by
  have hdelimited : isDelimited (m ++ []) = true := by
    rw [List.append_nil]
    exact hm.delimited
  have hread := read?_wording_append hdelimited hnames
  rwa [List.append_nil] at hread

theorem newline_not_mem_chars {m : Message} (hnames : ∀ s ∈ m.names, Quotable s) :
    '\n' ∉ m.chars := by
  intro hmem
  obtain ⟨part, hpart, hmem⟩ := List.mem_flatMap.1 hmem
  refine part.unbroken_text (fun s hs => ?_) hmem
  exact hnames s (List.mem_filterMap.2 ⟨part, hpart, hs⟩)

/-- A message is one line, with nothing to strip from it. -/
theorem lines_text {m : Message} (hm : m.Sound) (hnames : ∀ s ∈ m.names, Quotable s) :
    lines m.text.toList = [⟨0, m.chars⟩] := by
  obtain ⟨part, hpart, hopens⟩ := hm.opens
  obtain ⟨rest, rfl⟩ := List.head?_eq_some_iff.1 hpart
  obtain ⟨first, hfirst, hopens⟩ := part.head?_text_append hopens (chars rest)
  obtain ⟨last, hlast, hcloses⟩ := hm.closes
  obtain ⟨front, hfront⟩ := List.getLast?_eq_some_iff.1 hlast
  obtain ⟨c, hc, hblank⟩ := last.getLast?_append_text hcloses (chars front)
  have hchars : chars (part :: rest) = chars front ++ last.text.toList := by
    rw [hfront]
    simp [chars]
  have hopening : (chars (part :: rest)).head? = some first := hfirst
  rw [text, String.toList_ofList]
  refine Text.lines_eq_singleton ?_ (newline_not_mem_chars hnames) (fun d hd => ?_) (fun d hd => ?_)
  · intro hnil
    rw [hnil] at hopening
    cases hopening
  · rw [hopening] at hd
    rw [← Option.some.inj hd]
    simpa using hopens
  · rw [hchars, hc] at hd
    rw [← Option.some.inj hd]
    exact hblank

end Message

end Diagnosis
