import Diagnosis.Proofs.Message
import Diagnosis.Proofs.NameList

/-!
# English lists are read back

An English list may have an "and" in front of its last entry, and it may end by counting the names
that it leaves out. It is read entry by entry, whatever the entries hold
(`PropertyList.readEnglish_commaList_eq_flatMap`), so each entry can be looked at by itself: a name
is read as it is, behind an "and" too, and of a count nothing is read. Hence the names of a list are
read back in all the forms that a list has (`PropertyList.readEnglish_recovers_names`).

A name may be the word "and" or the word "more", or begin with one of them. No name is cut or left
out for that, because an "and" is dropped only in front of a blank, a count has a blank in front of
its "more", and no name holds a blank.
-/

namespace Diagnosis

open Text (IsNumeral Listable stripLeft)

theorem Text.listable_of_isNumeral {s : String} (h : IsNumeral s) : Listable s := by
  refine ⟨h.1, fun c hc => ⟨isBlank_of_isDigit (h.2 c hc), ?_⟩⟩
  rintro rfl
  exact absurd (h.2 ',' hc) (by decide)

namespace PropertyList

/-! ## Entry by entry -/

theorem readEnglish_append (first second : String) :
    readEnglish (first ++ ", " ++ second) = readEnglish first ++ readEnglish second := by
  have hchars : (first ++ ", " ++ second).toList =
      first.toList ++ ',' :: ' ' :: second.toList := by
    rw [String.toList_append, String.toList_append, List.append_assoc]
    rfl
  rw [readEnglish, hchars, entries_append_comma, entries_cons_space, List.map_append,
    List.filter_append, List.map_append]
  rfl

/-- Texts with a comma between them are read one after the other, also where a text is a list
itself. -/
theorem readEnglish_commaList_eq_flatMap {texts : List String} (hne : texts ≠ []) :
    readEnglish (commaList texts) = texts.flatMap readEnglish := by
  induction texts with
  | nil => exact absurd rfl hne
  | cons text rest ih =>
    cases rest with
    | nil => rw [commaList_singleton, List.flatMap_singleton]
    | cons next rest =>
      rw [commaList, String.intercalate_cons_cons, ← commaList, readEnglish_append,
        ih (List.cons_ne_nil _ _), ← List.flatMap_cons]

/-! ## Entries -/

/-- Two entries with a space between them are an entry. -/
theorem IsEntry.append_space {first second : List Char} (hfirst : IsEntry first)
    (hsecond : IsEntry second) : IsEntry (first ++ ' ' :: second) where
  ne_nil := List.append_ne_nil_of_left_ne_nil hfirst.ne_nil _
  comma_not_mem := by
    rw [List.mem_append, List.mem_cons]
    rintro (hmem | hmem | hmem)
    · exact hfirst.comma_not_mem hmem
    · exact absurd hmem (by decide)
    · exact hsecond.comma_not_mem hmem
  isBlank_head? := by
    rw [List.head?_append_of_ne_nil _ hfirst.ne_nil]
    exact hfirst.isBlank_head?
  isBlank_getLast? := by
    rw [List.getLast?_append_of_ne_nil _ (List.cons_ne_nil _ _),
      List.getLast?_cons_of_ne_nil hsecond.ne_nil]
    exact hsecond.isBlank_getLast?

variable {name count entry : String}

theorem dropJoiner_and {cs : List Char} (h : IsEntry cs) :
    dropJoiner ("and".toList ++ ' ' :: cs) = cs := by
  -- the blank behind the "and" tells it from the beginning of a name
  show stripLeft (' ' :: cs) = cs
  rw [stripLeft, List.dropWhile_cons_of_pos (by decide)]
  exact Text.stripLeft_eq_self h.isBlank_head?

/-- An entry behind an "and" is kept if it is a name. -/
theorem readEnglish_and (h : IsEntry entry.toList) :
    readEnglish ("and " ++ entry) = if isName entry.toList then [entry] else [] := by
  have hand : Listable "and" := by decide
  have hchars : ("and " ++ entry).toList = "and".toList ++ ' ' :: entry.toList := by
    rw [String.toList_append]
    rfl
  have hentries := ((isEntry_of_listable hand).append_space h).entries_eq
  rw [readEnglish, hchars, hentries, List.map_singleton, dropJoiner_and h, List.filter_singleton]
  cases isName entry.toList with
  | true => exact congrArg ([·]) String.ofList_toList
  | false => rfl

theorem readEnglish_and_name (h : Listable name) : readEnglish ("and " ++ name) = [name] := by
  rw [readEnglish_and (isEntry_of_listable h), if_pos (isName_of_listable h)]

/-- The count of what a list leaves out is no name. Its "more" may be followed by anything but
blanks and commas. -/
theorem readEnglish_and_more (hcount : Listable count) {stop : String}
    (hmore : Listable ("more" ++ stop)) :
    readEnglish ("and " ++ (count ++ " more" ++ stop)) = [] := by
  have hchars : (count ++ " more" ++ stop).toList =
      count.toList ++ ' ' :: ("more" ++ stop).toList := by
    simp
  have hentry : IsEntry (count ++ " more" ++ stop).toList := by
    rw [hchars]
    exact (isEntry_of_listable hcount).append_space (isEntry_of_listable hmore)
  -- the blank that " more" asks for is the one behind the count
  have hoccurs : Text.occursIn " more".toList (count ++ " more" ++ stop).toList = true := by
    rw [Text.occursIn_iff]
    exact ⟨count.toList, stop.toList, by simp⟩
  have hname : ¬ isName (count ++ " more" ++ stop).toList = true := by
    rw [isName, hoccurs, Bool.not_true, Bool.and_false]
    exact Bool.false_ne_true
  rw [readEnglish_and hentry, if_neg hname]

/-! ## Lists -/

variable {names : List String}

theorem flatMap_readEnglish (h : ∀ name ∈ names, Listable name) :
    names.flatMap readEnglish = names := by
  by_cases hne : names = []
  · rw [hne, List.flatMap_nil]
  · rw [← readEnglish_commaList_eq_flatMap hne, readEnglish_commaList hne h]

/-- A list that ends in an "and" and its last name. -/
theorem readEnglish_joined (hne : names ≠ []) (h : ∀ name ∈ names, Listable name) :
    readEnglish (commaList (names.dropLast ++ ["and " ++ names.getLast hne])) = names := by
  have hfront : names.dropLast.flatMap readEnglish = names.dropLast :=
    flatMap_readEnglish fun name hname => h name (List.dropLast_subset names hname)
  have hlast : readEnglish ("and " ++ names.getLast hne) = [names.getLast hne] :=
    readEnglish_and_name (h _ (List.getLast_mem hne))
  rw [readEnglish_commaList_eq_flatMap (by simp), List.flatMap_append, List.flatMap_singleton,
    hfront, hlast, List.dropLast_append_getLast hne]

/-- A list that ends in a count of the names that it leaves out. -/
theorem readEnglish_counted (hne : names ≠ []) (h : ∀ name ∈ names, Listable name)
    (hcount : Listable count) (stop : String) (hmore : Listable ("more" ++ stop)) :
    readEnglish (commaList names ++ ", and " ++ count ++ " more" ++ stop) = names := by
  have hentries : commaList names ++ ", and " ++ count ++ " more" ++ stop =
      commaList names ++ ", " ++ ("and " ++ (count ++ " more" ++ stop)) := by
    rw [← String.toList_inj]
    simp
  rw [hentries, readEnglish_append, readEnglish_commaList hne h,
    readEnglish_and_more hcount hmore, List.append_nil]

/-- The names of a list are read back in their order: with commas between them, with an "and" in
front of the last one, and with a count of further names behind them that may end in a full stop. -/
theorem readEnglish_recovers_names (hne : names ≠ []) (h : ∀ name ∈ names, Listable name)
    (k : Nat) :
    readEnglish (commaList names) = names ∧
      readEnglish (commaList (names.dropLast ++ ["and " ++ names.getLast hne])) = names ∧
      readEnglish (commaList names ++ ", and " ++ toString k ++ " more") = names ∧
      readEnglish (commaList names ++ ", and " ++ toString k ++ " more.") = names := by
  have hcount : Listable (toString k) := Text.listable_of_isNumeral (Text.isNumeral_repr k)
  have hopen := readEnglish_counted hne h hcount "" (by decide)
  have hclosed := readEnglish_counted hne h hcount "." (by decide)
  rw [String.append_empty] at hopen
  rw [String.append_assoc] at hclosed
  exact ⟨readEnglish_commaList hne h, readEnglish_joined hne h, hopen, hclosed⟩

/-- Names that are the words of an English list themselves, or begin with one. -/
theorem readEnglish_recovers_names_joiners :
    readEnglish "and, android, more" = ["and", "android", "more"] ∧
      readEnglish "and, android, and more" = ["and", "android", "more"] ∧
      readEnglish "and, android, more, and 35 more" = ["and", "android", "more"] ∧
      readEnglish "and, android, more, and 35 more." = ["and", "android", "more"] :=
  @readEnglish_recovers_names ["and", "android", "more"] (by decide) (by decide) 35

end PropertyList

end Diagnosis
