import Diagnosis.Proofs.WordingLaws
import Diagnosis.Shape.PropertyList
import Diagnosis.Shape.Rule
import Diagnosis.Text.Lines
import Mathlib.Data.List.Basic
import Mathlib.Data.List.TakeWhile

/-!
# Parts of a text

Nothing that is read of a text is made up: stripping, cutting into entries and reading a wording all
give contiguous parts of the text. For the fields of a wording this follows from the way in which a
wording is read, piece by piece from left to right (`Wording.infix_of_mem_find?`).
-/

namespace Diagnosis

namespace Text

theorem stripLeft_suffix (cs : List Char) : stripLeft cs <:+ cs := List.dropWhile_suffix isBlank

theorem prefix_stripRight (cs : List Char) : stripRight cs <+: cs := by
  have hsuffix := (stripLeft_suffix cs.reverse).reverse
  rwa [List.reverse_reverse] at hsuffix

theorem infix_strip (cs : List Char) : strip cs <:+: cs :=
  (prefix_stripRight _).isInfix.trans (stripLeft_suffix cs).isInfix

theorem strip_subset (cs : List Char) : strip cs ⊆ cs := (infix_strip cs).subset

theorem mem_stripLeft {c : Char} {cs : List Char} (hc : c ∈ cs) (hblank : isBlank c = false) :
    c ∈ stripLeft cs := by
  rw [← List.takeWhile_append_dropWhile (p := isBlank) (l := cs)] at hc
  rcases List.mem_append.1 hc with hc | hc
  · rw [List.mem_takeWhile_imp hc] at hblank
    cases hblank
  · exact hc

/-- Nothing but blanks is lost by stripping. -/
theorem mem_strip {c : Char} {cs : List Char} (hc : c ∈ cs) (hblank : isBlank c = false) :
    c ∈ strip cs :=
  List.mem_reverse.2 (mem_stripLeft (List.mem_reverse.2 (mem_stripLeft hc hblank)) hblank)

/-- A piece is a part of what it is joined to. -/
theorem infix_intercalate_of_mem {piece : List Char} {pieces : List (List Char)}
    (h : piece ∈ pieces) (sep : List Char) : piece <:+: sep.intercalate pieces := by
  induction pieces with
  | nil => cases h
  | cons first rest ih =>
    cases rest with
    | nil =>
      rw [List.intercalate_singleton]
      exact (List.mem_singleton.1 h) ▸ List.infix_refl piece
    | cons next rest =>
      rw [List.intercalate_cons_cons]
      rcases List.mem_cons.1 h with rfl | h
      · rw [List.append_assoc]
        exact (List.prefix_append _ _).isInfix
      · exact (ih h).trans (List.suffix_append _ _).isInfix

theorem infix_of_mem_cutAt {d : Char} {cs piece : List Char} (h : piece ∈ cutAt (· == d) cs) :
    piece <:+: cs := by
  have hpart := infix_intercalate_of_mem h [d]
  rwa [intercalate_cutAt] at hpart

/-- Nothing but separators is lost by cutting. -/
theorem exists_mem_cutAt {sep : Char → Bool} {c : Char} {cs : List Char} (hc : c ∈ cs)
    (hsep : sep c = false) : ∃ piece ∈ cutAt sep cs, c ∈ piece := by
  induction cs with
  | nil => cases hc
  | cons b rest ih =>
    rw [cutAt]
    split
    · next hb =>
      rcases List.mem_cons.1 hc with rfl | hc
      · rw [hsep] at hb
        cases hb
      · obtain ⟨piece, hpiece, hmem⟩ := ih hc
        exact ⟨piece, List.mem_cons_of_mem _ hpiece, hmem⟩
    · obtain ⟨first, pieces, hcut⟩ := List.exists_cons_of_ne_nil (cutAt_ne_nil sep rest)
      rw [hcut, List.modifyHead_cons]
      rcases List.mem_cons.1 hc with rfl | hc
      · exact ⟨_, List.mem_cons_self, List.mem_cons_self⟩
      · obtain ⟨piece, hpiece, hmem⟩ := ih hc
        rw [hcut] at hpiece
        rcases List.mem_cons.1 hpiece with rfl | hpiece
        · exact ⟨_, List.mem_cons_self, List.mem_cons_of_mem _ hmem⟩
        · exact ⟨piece, List.mem_cons_of_mem _ hpiece, hmem⟩

/-- A text occurs in another one if it is a part of it. -/
theorem occursIn_iff {part cs : List Char} : occursIn part cs = true ↔ part <:+: cs := by
  induction cs with
  | nil => rw [occursIn, List.isEmpty_iff, List.infix_nil]
  | cons c rest ih =>
    rw [occursIn, Bool.or_eq_true, List.isPrefixOf_iff_prefix, ih, List.infix_cons_iff]

theorem bne_of_not_mem {c : Char} {cs : List Char} (h : c ∉ cs) : ∀ d ∈ cs, (d != c) = true := by
  intro d hd
  rw [bne_iff_ne]
  rintro rfl
  exact h hd

/-- A text without some character does not reach beyond that character. -/
theorem prefix_append_cons_iff {part cs rest : List Char} {c : Char} (h : c ∉ part) :
    part <+: cs ++ c :: rest ↔ part <+: cs := by
  constructor
  · intro hstart
    rcases List.prefix_or_prefix_of_prefix hstart (List.prefix_append cs _) with hcs | ⟨more, hmore⟩
    · exact hcs
    · cases more with
      | nil =>
        rw [List.append_nil] at hmore
        exact hmore ▸ List.prefix_refl cs
      | cons d more =>
        rw [← hmore, List.prefix_append_right_inj, List.cons_prefix_cons] at hstart
        refine absurd ?_ h
        rw [← hmore, hstart.1]
        exact List.mem_append_right _ List.mem_cons_self
  · exact fun hstart => hstart.trans (List.prefix_append _ _)

/-- No line holds a line feed. -/
theorem newline_not_mem_of_mem_lines {cs : List Char} {line : Line} (h : line ∈ lines cs) :
    '\n' ∉ line.text := by
  obtain ⟨piece, hpiece, hline⟩ := List.mem_filterMap.1 h
  intro hmem
  rw [Line.text_of_ofPiece? hline] at hmem
  have hsep := not_sep_of_mem_cutAt hpiece '\n' (strip_subset piece hmem)
  exact absurd hsep (by decide)

end Text

/-! ## Entries of a list -/

namespace PropertyList

theorem infix_of_mem_entries {cs entry : List Char} (h : entry ∈ entries cs) : entry <:+: cs := by
  obtain ⟨piece, hpiece, rfl⟩ := List.mem_map.1 h
  exact (Text.infix_strip piece).trans (Text.infix_of_mem_cutAt hpiece)

theorem dropJoiner_suffix (entry : List Char) : dropJoiner entry <:+ entry := by
  rw [dropJoiner]
  split
  · next c rest hstart =>
    have hentry := List.isPrefixOf?_eq_some_iff_append_eq.1 hstart
    split
    · rw [← hentry]
      exact (Text.stripLeft_suffix _).trans (List.suffix_append _ _)
    · exact List.suffix_refl entry
  · exact List.suffix_refl entry

theorem infix_of_mem_read {list name : String} (h : name ∈ read list) :
    name.toList <:+: list.toList := by
  obtain ⟨entry, hentry, rfl⟩ := List.mem_map.1 h
  rw [String.toList_ofList]
  exact infix_of_mem_entries hentry

theorem infix_of_mem_readEnglish {list name : String} (h : name ∈ readEnglish list) :
    name.toList <:+: list.toList := by
  obtain ⟨kept, hkept, rfl⟩ := List.mem_map.1 h
  obtain ⟨entry, hentry, rfl⟩ := List.mem_map.1 (List.mem_filter.1 hkept).1
  rw [String.toList_ofList]
  exact (dropJoiner_suffix entry).isInfix.trans (infix_of_mem_entries hentry)

end PropertyList

/-! ## Fields of a wording -/

/-- The number of fields that a piece keeps. -/
def Piece.fieldCount : Piece → Nat
  | field _ => 1
  | _ => 0

/-- What a piece leaves is the end of the text, and what it keeps is a part of it. -/
theorem Piece.of_read? {piece : Piece} {cs rest : List Char} {fields : Fields}
    (h : piece.read? cs = some (fields, rest)) :
    rest <:+ cs ∧ fields.length = piece.fieldCount ∧
      ∀ field ∈ fields, field.toList <:+: cs := by
  cases piece with
  | exactly text =>
    obtain ⟨rest', hstart, heq⟩ := Option.map_eq_some_iff.1 h
    obtain ⟨rfl, rfl⟩ := Prod.mk.inj heq
    rw [← List.isPrefixOf?_eq_some_iff_append_eq.1 hstart]
    exact ⟨List.suffix_append _ _, rfl, nofun⟩
  | quote =>
    cases cs with
    | nil => cases h
    | cons mark cs =>
      rw [read?] at h
      split at h
      · obtain ⟨rfl, rfl⟩ := Prod.mk.inj (Option.some.inj h)
        exact ⟨List.suffix_cons _ _, rfl, nofun⟩
      · cases h
  | skip accepts =>
    obtain ⟨rfl, rfl⟩ := Prod.mk.inj (Option.some.inj h)
    exact ⟨List.dropWhile_suffix accepts, rfl, nofun⟩
  | field accepts =>
    rw [read?] at h
    split at h
    · cases h
    · obtain ⟨rfl, rfl⟩ := Prod.mk.inj (Option.some.inj h)
      refine ⟨List.dropWhile_suffix accepts, rfl, List.forall_mem_singleton.2 ?_⟩
      rw [String.toList_ofList]
      exact (List.takeWhile_prefix accepts).isInfix

namespace Wording

theorem infix_of_read? {wording : Wording} {cs rest : List Char} {fields : Fields}
    (h : wording.read? cs = some (fields, rest)) : ∀ field ∈ fields, field.toList <:+: cs := by
  induction wording generalizing cs rest fields with
  | nil =>
    obtain ⟨rfl, -⟩ := Prod.mk.inj (Option.some.inj h)
    exact nofun
  | cons piece wording ih =>
    obtain ⟨first, middle, later, hpiece, hlater⟩ := exists_of_read?_cons h
    rw [read?_cons hpiece, hlater] at h
    obtain ⟨rfl, -⟩ := Prod.mk.inj (Option.some.inj h)
    obtain ⟨hmiddle, -, hfirst⟩ := Piece.of_read? hpiece
    exact List.forall_mem_append.2
      ⟨hfirst, fun field hfield => (ih hlater field hfield).trans hmiddle.isInfix⟩

/-- The fields of a wording that is found in a text are parts of the text. -/
theorem infix_of_find? {wordings : List Wording} {cs : List Char} {fields : Fields}
    (h : find? wordings cs = some fields) : ∀ field ∈ fields, field.toList <:+: cs := by
  obtain ⟨before, rest, rfl, hread⟩ := exists_readAny?_of_find? h
  obtain ⟨wording, -, hsome⟩ := List.exists_of_findSome?_eq_some hread
  obtain ⟨⟨fields', rest'⟩, hread', rfl⟩ := Option.map_eq_some_iff.1 hsome
  intro field hfield
  exact (infix_of_read? hread' field hfield).trans (List.suffix_append _ _).isInfix

end Wording

/-- A field is a part of the line, and so is the empty text in the place of one that is absent. -/
theorem Shape.infix_of_fields? {shape : Shape} {line : List Char} {fields : Fields}
    (h : shape.fields? line = some fields) (i : Nat) : (fields.text i).toList <:+: line := by
  rw [Fields.text, List.getD_eq_getElem?_getD]
  cases hfield : fields[i]? with
  | none => exact List.nil_infix
  | some field => exact Wording.infix_of_find? h field (List.mem_of_getElem? hfield)

end Diagnosis
