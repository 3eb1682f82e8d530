import Diagnosis.Text.Lines
import Mathlib.Data.List.Basic
import Mathlib.Data.List.TakeWhile

/-!
# Lines under a change of layout

Blanks at the ends of a text and in front of its lines change the lines in a way that can be told
exactly. Removing the blanks at both ends of a text takes the indentation of its first line and
leaves all other lines as they are (`lines_strip`); putting the same number of spaces in front of
every line makes every indentation larger by that number (`lines_indent`).
-/

namespace Diagnosis.Text

/-! ## Pieces -/

/-- A character in front of the first of some pieces stays there when the last piece grows. -/
theorem exists_of_modifyHead_eq_concat {c : Char} {pieces front : List (List Char)}
    {last : List Char} (hne : pieces ≠ []) (h : pieces.modifyHead (c :: ·) = front ++ [last]) :
    ∃ front' last', pieces = front' ++ [last'] ∧ ∀ more rest,
      (front' ++ (last' ++ more) :: rest).modifyHead (c :: ·) = front ++ (last ++ more) :: rest := by
  obtain ⟨piece, pieces, rfl⟩ := List.exists_cons_of_ne_nil hne
  rw [List.modifyHead_cons] at h
  cases front with
  | nil =>
    obtain ⟨rfl, rfl⟩ := List.cons.inj h
    exact ⟨[], piece, rfl, fun more rest => rfl⟩
  | cons first front =>
    obtain ⟨rfl, rfl⟩ := List.cons.inj h
    exact ⟨piece :: front, last, rfl, fun more rest => rfl⟩

/-- Cutting two texts together joins the last piece of the one to the first piece of the other. -/
theorem cutAt_append {sep : Char → Bool} {before after : List Char} {front rest : List (List Char)}
    {last first : List Char} (hbefore : cutAt sep before = front ++ [last])
    (hafter : cutAt sep after = first :: rest) :
    cutAt sep (before ++ after) = front ++ (last ++ first) :: rest := by
  induction before generalizing front last with
  | nil =>
    cases front with
    | nil =>
      have hlast : last = [] := by simpa [cutAt] using hbefore.symm
      simp [hafter, hlast]
    | cons piece pieces => simp [cutAt] at hbefore
  | cons c before ih =>
    by_cases hc : sep c = true
    · rw [cutAt, if_pos hc] at hbefore
      rw [List.cons_append, cutAt, if_pos hc]
      cases front with
      | nil => exact absurd (List.cons.inj hbefore).2 (cutAt_ne_nil sep before)
      | cons piece pieces =>
        obtain ⟨hpiece, hpieces⟩ := List.cons.inj hbefore
        rw [ih hpieces, ← hpiece]
        rfl
    · rw [cutAt, if_neg hc] at hbefore
      obtain ⟨front', last', hcut, hgrow⟩ :=
        exists_of_modifyHead_eq_concat (cutAt_ne_nil sep before) hbefore
      rw [List.cons_append, cutAt, if_neg hc, ih hcut, hgrow]

theorem mem_of_mem_cutAt {sep : Char → Bool} {cs piece : List Char} (h : piece ∈ cutAt sep cs)
    {c : Char} (hc : c ∈ piece) : c ∈ cs := by
  induction cs generalizing piece with
  | nil =>
    rw [cutAt, List.mem_singleton] at h
    rw [h] at hc
    exact hc
  | cons b rest ih =>
    by_cases hb : sep b = true
    · rw [cutAt, if_pos hb] at h
      rcases List.mem_cons.1 h with rfl | h
      · cases hc
      · exact List.mem_cons_of_mem _ (ih h hc)
    · obtain ⟨first, pieces, hcut⟩ := List.exists_cons_of_ne_nil (cutAt_ne_nil sep rest)
      rw [cutAt, if_neg hb, hcut, List.modifyHead_cons] at h
      rcases List.mem_cons.1 h with rfl | h
      · rcases List.mem_cons.1 hc with rfl | hc
        · exact List.mem_cons_self
        · exact List.mem_cons_of_mem _ (ih (by rw [hcut]; exact List.mem_cons_self) hc)
      · exact List.mem_cons_of_mem _ (ih (by rw [hcut]; exact List.mem_cons_of_mem _ h) hc)

theorem cutAt_of_forall_not_sep {sep : Char → Bool} {cs : List Char}
    (h : ∀ c ∈ cs, sep c = false) : cutAt sep cs = [cs] := by
  induction cs with
  | nil => rfl
  | cons c rest ih =>
    have hc := h c List.mem_cons_self
    have hrest := ih fun c hc => h c (List.mem_cons_of_mem _ hc)
    simp [cutAt, hc, hrest]

/-- Pieces without the character between them are found again when they have been joined by it. -/
theorem cutAt_intercalate (d : Char) {pieces : List (List Char)} (hne : pieces ≠ [])
    (h : ∀ piece ∈ pieces, ∀ c ∈ piece, (c == d) = false) :
    cutAt (· == d) ([d].intercalate pieces) = pieces := by
  induction pieces with
  | nil => exact absurd rfl hne
  | cons piece rest ih =>
    have hpiece := cutAt_of_forall_not_sep (h piece List.mem_cons_self)
    cases rest with
    | nil => simpa using hpiece
    | cons next rest =>
      have hrest := ih (by simp) fun p hp => h p (List.mem_cons_of_mem _ hp)
      rw [List.intercalate_cons_cons, List.append_assoc, List.singleton_append,
        cutAt_append_cons (by simp), hpiece, hrest]
      rfl

/-! ## Blanks around a piece -/

theorem stripLeft_append_of_blank {blanks : List Char} (h : ∀ c ∈ blanks, isBlank c = true)
    (cs : List Char) : stripLeft (blanks ++ cs) = stripLeft cs := by
  have hnil : blanks.dropWhile isBlank = [] := List.dropWhile_eq_nil_iff.2 h
  rw [stripLeft, List.dropWhile_append, hnil]
  rfl

theorem stripRight_append_of_blank {blanks : List Char} (h : ∀ c ∈ blanks, isBlank c = true)
    (cs : List Char) : stripRight (cs ++ blanks) = stripRight cs := by
  have hrev : ∀ c ∈ blanks.reverse, isBlank c = true := fun c hc => h c (List.mem_reverse.1 hc)
  rw [stripRight, List.reverse_append, stripLeft_append_of_blank hrev]
  rfl

theorem stripLeft_eq_nil_iff {cs : List Char} : stripLeft cs = [] ↔ ∀ c ∈ cs, isBlank c = true :=
  List.dropWhile_eq_nil_iff

theorem isBlank_of_stripLeft_eq_cons {cs rest : List Char} {c : Char}
    (h : stripLeft cs = c :: rest) : isBlank c = false := by
  have hhead := List.head?_dropWhile_not isBlank cs
  rw [show cs.dropWhile isBlank = c :: rest from h] at hhead
  exact hhead

theorem strip_eq_nil_iff {cs : List Char} : strip cs = [] ↔ ∀ c ∈ cs, isBlank c = true := by
  rw [← stripLeft_eq_nil_iff, strip, stripRight, List.reverse_eq_nil_iff, stripLeft_eq_nil_iff]
  constructor
  · intro hall
    cases hleft : stripLeft cs with
    | nil => rfl
    | cons c rest =>
      rw [hleft] at hall
      have hc := isBlank_of_stripLeft_eq_cons hleft
      rw [hall c (by simp)] at hc
      cases hc
  · intro hnil
    rw [hnil]
    simp

theorem strip_append_of_blank {blanks : List Char} (h : ∀ c ∈ blanks, isBlank c = true)
    (cs : List Char) : strip (cs ++ blanks) = strip cs := by
  rw [strip, strip]
  by_cases hcs : stripLeft cs = []
  · have hall : ∀ c ∈ cs ++ blanks, isBlank c = true := by
      intro c hc
      rcases List.mem_append.1 hc with hc | hc
      · exact stripLeft_eq_nil_iff.1 hcs c hc
      · exact h c hc
    rw [hcs, stripLeft_eq_nil_iff.2 hall]
  · have hleft : stripLeft (cs ++ blanks) = stripLeft cs ++ blanks := by
      rw [stripLeft, List.dropWhile_append, if_neg (by simpa [stripLeft] using hcs)]
      rfl
    rw [hleft, stripRight_append_of_blank h]

theorem strip_cons_of_not_blank {c : Char} (hc : isBlank c = false) (cs : List Char) :
    ∃ rest, strip (c :: cs) = c :: rest := by
  have hleft : stripLeft (c :: cs) = c :: cs := List.dropWhile_cons_of_neg (by simp [hc])
  rw [strip, hleft, stripRight, stripLeft, List.reverse_cons, List.dropWhile_append]
  split
  · refine ⟨[], ?_⟩
    simp [hc]
  · exact ⟨(cs.reverse.dropWhile isBlank).reverse, by simp⟩

theorem stripLeft_eq_self {cs : List Char} (h : ∀ c ∈ cs.head?, isBlank c = false) :
    stripLeft cs = cs := by
  cases cs with
  | nil => rfl
  | cons c rest => exact List.dropWhile_cons_of_neg (by simp [h c rfl])

theorem stripRight_eq_self {cs : List Char} (h : ∀ c ∈ cs.getLast?, isBlank c = false) :
    stripRight cs = cs := by
  have hrev : ∀ c ∈ cs.reverse.head?, isBlank c = false := by
    rw [List.head?_reverse]
    exact h
  rw [stripRight, stripLeft_eq_self hrev, List.reverse_reverse]

/-- A text that neither opens nor closes with a blank stays as it is. -/
theorem strip_eq_self {cs : List Char} (hfirst : ∀ c ∈ cs.head?, isBlank c = false)
    (hlast : ∀ c ∈ cs.getLast?, isBlank c = false) : strip cs = cs := by
  rw [strip, stripLeft_eq_self hfirst, stripRight_eq_self hlast]

theorem strip_cons_concat {first last : Char} (hfirst : isBlank first = false)
    (hlast : isBlank last = false) (cs : List Char) :
    strip (first :: (cs ++ [last])) = first :: (cs ++ [last]) := by
  refine strip_eq_self (fun c hc => ?_) (fun c hc => ?_)
  · rw [← Option.some.inj hc]
    exact hfirst
  · rw [← List.cons_append, List.getLast?_concat] at hc
    rw [← Option.some.inj hc]
    exact hlast

theorem isBlank_of_strip_eq_cons {cs rest : List Char} {c : Char} (h : strip cs = c :: rest) :
    isBlank c = false := by
  cases hleft : stripLeft cs with
  | nil =>
    rw [strip, hleft] at h
    cases h
  | cons d ds =>
    have hd := isBlank_of_stripLeft_eq_cons hleft
    have hstrip : strip cs = strip (d :: ds) := by
      rw [strip, strip, hleft, stripLeft, List.dropWhile_cons_of_neg (by simp [hd])]
    obtain ⟨ds', hds⟩ := strip_cons_of_not_blank hd ds
    rw [hstrip, hds] at h
    rw [← (List.cons.inj h).1]
    exact hd

/-- The line with another indentation in the place of its own. -/
def Line.reindent (f : Nat → Nat) (line : Line) : Line := { line with indent := f line.indent }

theorem Line.ofPiece?_blanks_append {blanks : List Char} (h : ∀ c ∈ blanks, isBlank c = true)
    (piece : List Char) :
    Line.ofPiece? (blanks ++ piece) =
      (Line.ofPiece? piece).map (Line.reindent (· + blanks.length)) := by
  have hstrip : strip (blanks ++ piece) = strip piece := by
    rw [strip, strip, stripLeft_append_of_blank h]
  have hindent : indentation (blanks ++ piece) = indentation piece + blanks.length := by
    rw [indentation, List.takeWhile_append_of_pos h, List.length_append, indentation, Nat.add_comm]
  rw [Line.ofPiece?, Line.ofPiece?, hstrip, hindent]
  cases strip piece <;> rfl

theorem Line.ofPiece?_append_blanks {blanks : List Char} (h : ∀ c ∈ blanks, isBlank c = true)
    (piece : List Char) : Line.ofPiece? (piece ++ blanks) = Line.ofPiece? piece := by
  rw [Line.ofPiece?, Line.ofPiece?, strip_append_of_blank h]
  by_cases hall : ∀ c ∈ piece, isBlank c = true
  · have hnil : strip piece = [] := by
      rw [strip, stripLeft_eq_nil_iff.2 hall]
      rfl
    rw [hnil]
  · have hindent : indentation (piece ++ blanks) = indentation piece := by
      rw [indentation, List.takeWhile_append, if_neg, indentation]
      intro hlength
      have hself := (List.takeWhile_prefix isBlank).eq_of_length hlength
      exact hall (List.takeWhile_eq_self_iff.1 hself)
    rw [hindent]

theorem lines_of_unbroken {cs : List Char} (hbreak : '\n' ∉ cs) :
    lines cs = [cs].filterMap Line.ofPiece? := by
  rw [lines, cutAt_of_forall_not_sep]
  intro c hc
  rw [beq_eq_false_iff_ne]
  rintro rfl
  exact hbreak hc

/-- A text in one piece that neither opens nor closes with a blank is a line. -/
theorem lines_eq_singleton {cs : List Char} (hne : cs ≠ []) (hbreak : '\n' ∉ cs)
    (hfirst : ∀ c ∈ cs.head?, isBlank c = false) (hlast : ∀ c ∈ cs.getLast?, isBlank c = false) :
    lines cs = [⟨0, cs⟩] := by
  have hline : Line.ofPiece? cs = some ⟨0, cs⟩ := by
    obtain ⟨c, rest, rfl⟩ := List.exists_cons_of_ne_nil hne
    have hc : isBlank c = false := hfirst c rfl
    rw [Line.ofPiece?, strip_eq_self hfirst hlast, indentation,
      List.takeWhile_cons_of_neg (by simp [hc])]
    rfl
  rw [lines_of_unbroken hbreak, List.filterMap_cons_some hline]
  rfl

theorem Line.ofPiece?_of_blank {piece : List Char} (h : ∀ c ∈ piece, isBlank c = true) :
    Line.ofPiece? piece = none := by
  rw [Line.ofPiece?, strip, stripLeft_eq_nil_iff.2 h]
  rfl

/-! ## Blanks around a text -/

theorem exists_append_getLast_cutAt (sep : Char → Bool) (cs : List Char) :
    ∃ front last, cutAt sep cs = front ++ [last] :=
  ⟨_, _, (List.dropLast_concat_getLast (cutAt_ne_nil sep cs)).symm⟩

theorem lines_append_of_blank {blanks : List Char} (h : ∀ c ∈ blanks, isBlank c = true)
    (cs : List Char) : lines (cs ++ blanks) = lines cs := by
  obtain ⟨front, last, hcs⟩ := exists_append_getLast_cutAt (· == '\n') cs
  obtain ⟨first, rest, hcut⟩ := List.exists_cons_of_ne_nil (cutAt_ne_nil (· == '\n') blanks)
  have hblank : ∀ piece ∈ first :: rest, ∀ c ∈ piece, isBlank c = true := by
    intro piece hpiece c hc
    rw [← hcut] at hpiece
    exact h c (mem_of_mem_cutAt hpiece hc)
  have hrest : rest.filterMap Line.ofPiece? = [] := by
    rw [List.filterMap_eq_nil_iff]
    intro piece hpiece
    exact Line.ofPiece?_of_blank (hblank piece (List.mem_cons_of_mem _ hpiece))
  rw [lines, lines, cutAt_append hcs hcut, hcs, List.filterMap_append, List.filterMap_append,
    List.filterMap_cons, List.filterMap_cons, hrest,
    Line.ofPiece?_append_blanks (hblank first List.mem_cons_self)]
  rfl

theorem lines_stripRight (cs : List Char) : lines (stripRight cs) = lines cs := by
  have hcs : cs = stripRight cs ++ (cs.reverse.takeWhile isBlank).reverse := by
    rw [stripRight, stripLeft, ← List.reverse_append, List.takeWhile_append_dropWhile,
      List.reverse_reverse]
  have hblank : ∀ c ∈ (cs.reverse.takeWhile isBlank).reverse, isBlank c = true := by
    intro c hc
    exact List.mem_takeWhile_imp (List.mem_reverse.1 hc)
  have hlines := lines_append_of_blank hblank (stripRight cs)
  rw [← hcs] at hlines
  exact hlines.symm

/-- Blanks in front of a text change nothing but the indentation of its first line. -/
theorem exists_lines_blanks_append {c : Char} (hc : isBlank c = false) (rest : List Char) :
    ∃ text later, ∀ blanks : List Char, (∀ b ∈ blanks, isBlank b = true) →
      ∃ indent, lines (blanks ++ c :: rest) = ⟨indent, c :: text⟩ :: later ∧
        (blanks = [] → indent = 0) := by
  have hbreak : ¬ (c == '\n') = true := by
    intro hbreak
    rw [eq_of_beq hbreak] at hc
    exact absurd hc (by decide)
  obtain ⟨piece, pieces, hrest⟩ := List.exists_cons_of_ne_nil (cutAt_ne_nil (· == '\n') rest)
  have hcut : cutAt (· == '\n') (c :: rest) = (c :: piece) :: pieces := by
    rw [cutAt, if_neg hbreak, hrest]
    rfl
  obtain ⟨text, htext⟩ := strip_cons_of_not_blank hc piece
  have hfirst : Line.ofPiece? (c :: piece) = some ⟨0, c :: text⟩ := by
    rw [Line.ofPiece?, htext, indentation, List.takeWhile_cons_of_neg (by simp [hc])]
    rfl
  refine ⟨text, pieces.filterMap Line.ofPiece?, fun blanks hblanks => ?_⟩
  -- only the last piece of the blanks in front shares a line with the rest
  obtain ⟨front, last, hfront⟩ := exists_append_getLast_cutAt (· == '\n') blanks
  have hpieces : ∀ p ∈ front ++ [last], ∀ b ∈ p, isBlank b = true := by
    intro p hp b hb
    rw [← hfront] at hp
    exact hblanks b (mem_of_mem_cutAt hp hb)
  have hnone : front.filterMap Line.ofPiece? = [] := by
    rw [List.filterMap_eq_nil_iff]
    intro p hp
    exact Line.ofPiece?_of_blank (hpieces p (List.mem_append_left _ hp))
  have hlast := Line.ofPiece?_blanks_append (hpieces last (by simp)) (c :: piece)
  rw [hfirst, Option.map_some] at hlast
  refine ⟨0 + last.length, ?_, ?_⟩
  · rw [lines, cutAt_append hfront hcut, List.filterMap_append, hnone,
      List.filterMap_cons_some hlast]
    rfl
  · rintro rfl
    rw [cutAt] at hfront
    cases front with
    | nil => rw [← (List.cons.inj hfront).1]; rfl
    | cons p ps => simp at hfront

/-- The lines, the first one without its indentation. -/
def flush : List Line → List Line
  | [] => []
  | line :: rest => { line with indent := 0 } :: rest

theorem lines_stripLeft (cs : List Char) : lines (stripLeft cs) = flush (lines cs) := by
  have hcs : cs = cs.takeWhile isBlank ++ stripLeft cs := List.takeWhile_append_dropWhile.symm
  cases hleft : stripLeft cs with
  | nil =>
    have hlines := lines_append_of_blank (stripLeft_eq_nil_iff.1 hleft) []
    rw [List.nil_append] at hlines
    rw [hlines]
    rfl
  | cons c rest =>
    obtain ⟨text, later, hlines⟩ :=
      exists_lines_blanks_append (isBlank_of_stripLeft_eq_cons hleft) rest
    obtain ⟨indent, hblanks, -⟩ :=
      hlines (cs.takeWhile isBlank) fun b hb => List.mem_takeWhile_imp hb
    obtain ⟨indent', hnone, hindent'⟩ := hlines [] (by simp)
    rw [List.nil_append] at hnone
    rw [hleft] at hcs
    rw [hcs, hblanks, hnone, hindent' rfl]
    rfl

/-- Without the blanks at the ends of a text its first line has no indentation, and its other lines
are the same. -/
theorem lines_strip (cs : List Char) : lines (strip cs) = flush (lines cs) := by
  rw [strip, lines_stripRight, lines_stripLeft]

theorem strip_eq_nil_iff_lines {cs : List Char} : strip cs = [] ↔ lines cs = [] := by
  have hlines := lines_strip cs
  constructor
  · intro hstrip
    rw [hstrip] at hlines
    cases hcs : lines cs with
    | nil => rfl
    | cons line rest =>
      rw [hcs] at hlines
      cases hlines
  · intro hnil
    rw [hnil, strip, lines_stripRight] at hlines
    cases hleft : stripLeft cs with
    | nil => rw [strip, hleft]; rfl
    | cons c rest =>
      obtain ⟨text, later, hblanks⟩ :=
        exists_lines_blanks_append (isBlank_of_stripLeft_eq_cons hleft) rest
      obtain ⟨indent, hcons, -⟩ := hblanks [] (by simp)
      rw [hleft, ← List.nil_append (c :: rest), hcons] at hlines
      cases hlines

/-! ## Indenting -/

/-- The text with more spaces in front of each of its lines. -/
def indent (k : Nat) (s : String) : String :=
  String.ofList (['\n'].intercalate
    ((cutAt (· == '\n') s.toList).map (List.replicate k ' ' ++ ·)))

/-- Indenting a text makes the indentation of all its lines larger. -/
theorem lines_indent (k : Nat) (s : String) :
    lines (indent k s).toList = (lines s.toList).map (Line.reindent (· + k)) := by
  have hblank : ∀ c ∈ List.replicate k ' ', isBlank c = true := by
    intro c hc
    rw [List.eq_of_mem_replicate hc]
    decide
  have hcut : cutAt (· == '\n') (indent k s).toList =
      (cutAt (· == '\n') s.toList).map (List.replicate k ' ' ++ ·) := by
    rw [indent, String.toList_ofList]
    refine cutAt_intercalate '\n' (by simpa using cutAt_ne_nil _ s.toList) ?_
    intro piece hpiece c hc
    obtain ⟨p, hp, rfl⟩ := List.mem_map.1 hpiece
    rcases List.mem_append.1 hc with hc | hc
    · rw [List.eq_of_mem_replicate hc]
      decide
    · exact not_sep_of_mem_cutAt hp c hc
  rw [lines, lines, hcut, List.filterMap_map, List.map_filterMap]
  refine List.filterMap_congr fun piece _ => ?_
  rw [Function.comp_apply, Line.ofPiece?_blanks_append hblank, List.length_replicate]

end Diagnosis.Text
