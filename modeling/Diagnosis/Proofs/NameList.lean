import Diagnosis.Explanation.Detail
import Diagnosis.Proofs.Layout
import Diagnosis.Proofs.Parts
import Mathlib.Data.List.Chain

/-!
# Lists of names are read back

Names are listed with a comma and a space between them. If they hold neither commas nor blanks, and
none of them is empty, both ways of reading a list give them back as they are
(`PropertyList.read_commaList`, `PropertyList.readEnglish_commaList`): an "and" is dropped only in
front of a blank, and the count of what a list leaves out has a blank in it too, so neither is ever
seen in a name.
-/

namespace Diagnosis

open Text (isBlank cutAt strip)

/-- Whether a text can be a name in a list. -/
def Text.Listable (name : String) : Prop :=
  name ≠ "" ∧ ∀ c ∈ name.toList, isBlank c = false ∧ c ≠ ','

instance (name : String) : Decidable (Text.Listable name) :=
  decidable_of_iff (name ≠ "" ∧ (name.toList.all fun c => !isBlank c && c != ',') = true)
    (by simp [Text.Listable])

open Text (Listable)

/-! ## The text of a list -/

theorem commaList_singleton (name : String) : commaList [name] = name := by
  simp [commaList]

theorem commaList_cons_cons (name next : String) (rest : List String) :
    (commaList (name :: next :: rest)).toList =
      name.toList ++ ',' :: ' ' :: (commaList (next :: rest)).toList := by
  rw [commaList, String.intercalate_cons_cons, String.toList_append, String.toList_append,
    List.append_assoc]
  rfl

theorem mem_commaList {names : List String} {c : Char} (h : c ∈ (commaList names).toList) :
    c = ',' ∨ c = ' ' ∨ ∃ name ∈ names, c ∈ name.toList := by
  induction names with
  | nil => cases h
  | cons name rest ih =>
    cases rest with
    | nil =>
      rw [commaList_singleton] at h
      exact Or.inr (Or.inr ⟨name, List.mem_cons_self, h⟩)
    | cons next rest =>
      rw [commaList_cons_cons, List.mem_append, List.mem_cons, List.mem_cons] at h
      rcases h with h | h | h | h
      · exact Or.inr (Or.inr ⟨name, List.mem_cons_self, h⟩)
      · exact Or.inl h
      · exact Or.inr (Or.inl h)
      · rcases ih h with h | h | ⟨name', hname', h⟩
        · exact Or.inl h
        · exact Or.inr (Or.inl h)
        · exact Or.inr (Or.inr ⟨name', List.mem_cons_of_mem _ hname', h⟩)

theorem newline_not_mem_commaList {names : List String} (h : ∀ name ∈ names, Listable name) :
    '\n' ∉ (commaList names).toList := by
  intro hmem
  rcases mem_commaList hmem with hc | hc | ⟨name, hname, hc⟩
  · cases hc
  · cases hc
  · exact absurd ((h name hname).2 _ hc).1 (by decide)

/-- A list begins as its first name does. -/
theorem exists_commaList_eq_append (name : String) (rest : List String) :
    ∃ more, (commaList (name :: rest)).toList = name.toList ++ more := by
  cases rest with
  | nil => exact ⟨[], by rw [commaList_singleton, List.append_nil]⟩
  | cons next rest => exact ⟨_, commaList_cons_cons name next rest⟩

/-- A list ends as its last name does. -/
theorem exists_commaList_eq_append_getLast {names : List String} (hne : names ≠ []) :
    ∃ name ∈ names, ∃ front, (commaList names).toList = front ++ name.toList := by
  induction names with
  | nil => exact absurd rfl hne
  | cons name rest ih =>
    cases rest with
    | nil => exact ⟨name, List.mem_cons_self, [], by rw [commaList_singleton, List.nil_append]⟩
    | cons next rest =>
      obtain ⟨last, hlast, front, hfront⟩ := ih (List.cons_ne_nil _ _)
      refine ⟨last, List.mem_cons_of_mem _ hlast, name.toList ++ ',' :: ' ' :: front, ?_⟩
      rw [commaList_cons_cons, hfront, List.append_assoc]
      rfl

theorem toList_commaList_ne_nil {names : List String} (hne : names ≠ [])
    (h : ∀ name ∈ names, Listable name) : (commaList names).toList ≠ [] := by
  obtain ⟨name, rest, rfl⟩ := List.exists_cons_of_ne_nil hne
  obtain ⟨more, hmore⟩ := exists_commaList_eq_append name rest
  rw [hmore]
  exact List.append_ne_nil_of_left_ne_nil
    (mt String.toList_eq_nil_iff.1 (h name List.mem_cons_self).1) more

theorem isBlank_head?_commaList {names : List String} (h : ∀ name ∈ names, Listable name) :
    ∀ c ∈ (commaList names).toList.head?, isBlank c = false := by
  cases names with
  | nil => nofun
  | cons name rest =>
    have hname : Listable name := h name List.mem_cons_self
    obtain ⟨more, hmore⟩ := exists_commaList_eq_append name rest
    rw [hmore, List.head?_append_of_ne_nil _ (mt String.toList_eq_nil_iff.1 hname.1)]
    exact fun c hc => (hname.2 c (List.mem_of_head? hc)).1

theorem isBlank_getLast?_commaList {names : List String} (h : ∀ name ∈ names, Listable name) :
    ∀ c ∈ (commaList names).toList.getLast?, isBlank c = false := by
  by_cases hne : names = []
  · rw [hne]
    nofun
  · obtain ⟨name, hname, front, hfront⟩ := exists_commaList_eq_append_getLast hne
    rw [hfront, List.getLast?_append_of_ne_nil _ (mt String.toList_eq_nil_iff.1 (h name hname).1)]
    exact fun c hc => ((h name hname).2 c (List.mem_of_getLast? hc)).1

/-- Whether a character can follow another one in a list of names: a blank follows nothing but a
comma, or the colon in front of the list. -/
def CanFollow (a b : Char) : Prop := isBlank b = true → a = ',' ∨ a = ':'

instance : DecidableRel CanFollow := fun a b =>
  inferInstanceAs (Decidable (isBlank b = true → a = ',' ∨ a = ':'))

theorem canFollow_of_not_blank {a b : Char} (h : isBlank b = false) : CanFollow a b := by
  intro hblank
  rw [h] at hblank
  cases hblank

theorem isChain_canFollow_commaList {names : List String} (h : ∀ name ∈ names, Listable name) :
    (commaList names).toList.IsChain CanFollow := by
  have hchain {name : String} (hname : Listable name) : name.toList.IsChain CanFollow :=
    (List.pairwise_of_forall_mem_list fun _ _ b hb =>
      canFollow_of_not_blank (hname.2 b hb).1).isChain
  induction names with
  | nil => exact .nil
  | cons name rest ih =>
    obtain ⟨hname, hrest⟩ := List.forall_mem_cons.1 h
    cases rest with
    | nil =>
      rw [commaList_singleton]
      exact hchain hname
    | cons next rest =>
      have hhead : ∀ c ∈ (commaList (next :: rest)).toList.head?, CanFollow ' ' c :=
        fun c hc => canFollow_of_not_blank (isBlank_head?_commaList hrest c hc)
      rw [commaList_cons_cons, List.isChain_append, List.isChain_cons_cons]
      refine ⟨hchain hname, ⟨fun _ => Or.inl rfl, (ih hrest).cons hhead⟩, ?_⟩
      intro a _ b hb hblank
      rw [← Option.some.inj hb] at hblank
      cases hblank

namespace PropertyList

/-! ## Entries -/

theorem entries_append_comma (cs ds : List Char) :
    entries (cs ++ ',' :: ds) = entries cs ++ entries ds := by
  rw [entries, Text.cutAt_append_cons (by decide), List.map_append]
  rfl

/-- A blank in front of a list is no part of its first entry. -/
theorem entries_cons_space (cs : List Char) : entries (' ' :: cs) = entries cs := by
  obtain ⟨piece, pieces, hcut⟩ := List.exists_cons_of_ne_nil (Text.cutAt_ne_nil (· == ',') cs)
  have hcons : cutAt (· == ',') (' ' :: cs) = (' ' :: piece) :: pieces := by
    rw [cutAt, if_neg (by decide), hcut]
    rfl
  rw [entries, entries, hcons, hcut]
  rfl

/-- Whether a text is an entry as it stands: it is not empty, it has no comma in it, and it neither
opens nor closes with a blank. -/
structure IsEntry (cs : List Char) : Prop where
  ne_nil : cs ≠ []
  comma_not_mem : ',' ∉ cs
  isBlank_head? : ∀ c ∈ cs.head?, isBlank c = false
  isBlank_getLast? : ∀ c ∈ cs.getLast?, isBlank c = false

theorem IsEntry.entries_eq {cs : List Char} (h : IsEntry cs) : entries cs = [cs] := by
  have hcut : cutAt (· == ',') cs = [cs] := by
    refine Text.cutAt_of_forall_not_sep fun c hc => beq_eq_false_iff_ne.2 ?_
    rintro rfl
    exact h.comma_not_mem hc
  rw [entries, hcut, List.map_singleton, Text.strip_eq_self h.isBlank_head? h.isBlank_getLast?]

variable {name : String}

theorem isEntry_of_listable (h : Listable name) : IsEntry name.toList where
  ne_nil := mt String.toList_eq_nil_iff.1 h.1
  comma_not_mem hmem := (h.2 ',' hmem).2 rfl
  isBlank_head? c hc := (h.2 c (List.mem_of_head? hc)).1
  isBlank_getLast? c hc := (h.2 c (List.mem_of_getLast? hc)).1

theorem entries_commaList {names : List String} (hne : names ≠ [])
    (h : ∀ name ∈ names, Listable name) :
    entries (commaList names).toList = names.map String.toList := by
  induction names with
  | nil => exact absurd rfl hne
  | cons name rest ih =>
    obtain ⟨hname, hrest⟩ := List.forall_mem_cons.1 h
    cases rest with
    | nil => exact (isEntry_of_listable hname).entries_eq
    | cons next rest =>
      rw [commaList_cons_cons, entries_append_comma, entries_cons_space,
        (isEntry_of_listable hname).entries_eq, ih (List.cons_ne_nil _ _) hrest]
      rfl

/-- No character of a list is lost but commas and blanks. -/
theorem exists_mem_read {s : String} {c : Char} (hc : c ∈ s.toList) (hblank : isBlank c = false)
    (hcomma : c ≠ ',') : ∃ name ∈ read s, c ∈ name.toList := by
  obtain ⟨piece, hpiece, hmem⟩ : ∃ piece ∈ cutAt (· == ',') s.toList, c ∈ piece :=
    Text.exists_mem_cutAt hc (beq_eq_false_iff_ne.2 hcomma)
  refine ⟨_, List.mem_map_of_mem (List.mem_map_of_mem hpiece), ?_⟩
  rw [String.toList_ofList]
  exact Text.mem_strip hmem hblank

/-! ## Names -/

/-- A name has no blank, so none follows an "and" at its start. -/
theorem dropJoiner_of_listable (h : Listable name) : dropJoiner name.toList = name.toList := by
  rw [dropJoiner]
  split
  · next c rest hstart =>
    have hname := List.isPrefixOf?_eq_some_iff_append_eq.1 hstart
    have hc : c ∈ name.toList := by
      rw [← hname]
      exact List.mem_append_right _ List.mem_cons_self
    rw [if_neg (by rw [(h.2 c hc).1]; decide)]
  · rfl

theorem isName_of_listable (h : Listable name) : isName name.toList = true := by
  have hne : name.toList.isEmpty = false :=
    List.isEmpty_eq_false_iff.2 (mt String.toList_eq_nil_iff.1 h.1)
  have hmore : Text.occursIn " more".toList name.toList = false := by
    rw [Bool.eq_false_iff, Ne, Text.occursIn_iff]
    intro hpart
    have hspace := (h.2 ' ' (hpart.subset (by decide))).1
    exact absurd hspace (by decide)
  rw [isName, hne, hmore]
  rfl

/-! ## Lists -/

variable {names : List String}

theorem read_commaList (hne : names ≠ []) (h : ∀ name ∈ names, Listable name) :
    read (commaList names) = names := by
  rw [read, entries_commaList hne h, List.map_map]
  exact List.map_id'' (fun name => String.ofList_toList) names

theorem readEnglish_commaList (hne : names ≠ []) (h : ∀ name ∈ names, Listable name) :
    readEnglish (commaList names) = names := by
  have hdrop : (names.map String.toList).map dropJoiner = names.map String.toList := by
    rw [List.map_map]
    exact List.map_congr_left fun name hname => dropJoiner_of_listable (h name hname)
  have hfilter : (names.map String.toList).filter isName = names.map String.toList :=
    List.filter_eq_self.2
      (List.forall_mem_map.2 fun name hname => isName_of_listable (h name hname))
  rw [readEnglish, entries_commaList hne h, hdrop, hfilter, List.map_map]
  exact List.map_id'' (fun name => String.ofList_toList) names

end PropertyList

end Diagnosis
