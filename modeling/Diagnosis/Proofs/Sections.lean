import Diagnosis.Proofs.Layout
import Diagnosis.TypeText.ObjectLiteral
import Mathlib.Data.List.Basic
import Mathlib.Data.List.Induction
import Mathlib.Data.List.TakeWhile

/-!
# Sections of an object literal

The body of an object literal is read character by character. Seen as a whole it is a list of
sections, the texts between the semicolons at depth zero (`sections`), and a section is a label and
a value, the texts on the two sides of its first colon at depth zero (`splitLabel?`). All sections
but the last are balanced, so that the depth starts from zero in each of them.

At every moment the reader holds the properties of the sections that are complete and what it has
read of the last one (`Reader.exists_sections`).
-/

namespace Diagnosis.ObjectLiteral

open Text (isBlank strip)

/-! ## The balance of brackets -/

/-- Brackets opened less brackets closed. -/
def net : List Char → Int
  | [] => 0
  | c :: rest => bracketStep c + net rest

@[simp] theorem net_nil : net [] = 0 := rfl

@[simp] theorem net_cons (c : Char) (cs : List Char) : net (c :: cs) = bracketStep c + net cs := rfl

@[simp] theorem net_append (cs ds : List Char) : net (cs ++ ds) = net cs + net ds := by
  induction cs with
  | nil => simp
  | cons c rest ih =>
    rw [List.cons_append, net_cons, net_cons, ih]
    omega

theorem bracketStep_of_blank {c : Char} (h : isBlank c = true) : bracketStep c = 0 := by
  unfold bracketStep
  split <;> first
    | rfl
    | exact absurd h (by decide)

theorem net_eq_zero {cs : List Char} (h : ∀ c ∈ cs, bracketStep c = 0) : net cs = 0 := by
  induction cs with
  | nil => rfl
  | cons c rest ih =>
    rw [net_cons, h c List.mem_cons_self, ih fun d hd => h d (List.mem_cons_of_mem _ hd)]
    rfl

theorem net_reverse (cs : List Char) : net cs.reverse = net cs := by
  induction cs with
  | nil => rfl
  | cons c rest ih =>
    rw [List.reverse_cons, net_append, ih, net_cons, net_cons, net_nil]
    omega

theorem net_stripLeft (cs : List Char) : net (Text.stripLeft cs) = net cs := by
  have hblank : net (cs.takeWhile isBlank) = 0 :=
    net_eq_zero fun c hc => bracketStep_of_blank (List.mem_takeWhile_imp hc)
  have hsplit := net_append (cs.takeWhile isBlank) (cs.dropWhile isBlank)
  rw [List.takeWhile_append_dropWhile, hblank] at hsplit
  unfold Text.stripLeft
  omega

theorem net_strip (cs : List Char) : net (strip cs) = net cs := by
  rw [strip, Text.stripRight, net_reverse, net_stripLeft, net_reverse, net_stripLeft]

theorem net_intercalate_space (pieces : List (List Char)) :
    net ([' '].intercalate pieces) = net pieces.flatten := by
  induction pieces with
  | nil => rfl
  | cons piece rest ih =>
    cases rest with
    | nil => simp
    | cons next rest =>
      rw [List.intercalate_cons_cons, net_append, net_append, ih, show net [' '] = 0 from rfl,
        Int.add_zero, ← net_append]
      rfl

theorem net_flatten_cutAt (cs : List Char) : net (Text.cutAt isBlank cs).flatten = net cs := by
  induction cs with
  | nil => rfl
  | cons c rest ih =>
    by_cases hc : isBlank c = true
    · rw [Text.cutAt, if_pos hc, List.flatten_cons, List.nil_append, ih, net_cons,
        bracketStep_of_blank hc]
      omega
    · obtain ⟨piece, pieces, hcut⟩ :=
        List.exists_cons_of_ne_nil (Text.cutAt_ne_nil isBlank rest)
      rw [hcut] at ih
      rw [Text.cutAt, if_neg hc, hcut, List.modifyHead_cons, List.flatten_cons, List.cons_append,
        net_cons, net_cons, ← ih, List.flatten_cons]

/-- The opening brackets of a text less the closing ones. -/
def balance (cs : List Char) : Int :=
  cs.countP (· ∈ ['{', '[', '(', '<']) - cs.countP (· ∈ ['}', ']', ')', '>'])

/-- What the steps of the characters add up to is the balance. -/
theorem net_eq_balance (cs : List Char) : net cs = balance cs := by
  induction cs with
  | nil => rfl
  | cons c rest ih =>
    rw [net_cons, ih, balance, balance, List.countP_cons, List.countP_cons]
    unfold bracketStep
    split <;> simp_all <;> omega

/-- Texts with the same words have the same balance. -/
theorem net_normalize (s : String) : net (Text.normalize s).toList = net s.toList := by
  have hfilter (pieces : List (List Char)) :
      (pieces.filter fun piece => !piece.isEmpty).flatten = pieces.flatten := by
    induction pieces with
    | nil => rfl
    | cons piece rest ih => cases piece <;> simp [ih]
  rw [Text.normalize, String.toList_ofList, net_intercalate_space, Text.words, hfilter,
    net_flatten_cutAt]

/-! ## Sections -/

/-- The texts between the semicolons at depth zero, when the text starts at some depth. -/
def sections (depth : Int) : List Char → List (List Char)
  | [] => [[]]
  | c :: rest =>
    if depth + bracketStep c = 0 ∧ c = ';' then [] :: sections (depth + bracketStep c) rest
    else (sections (depth + bracketStep c) rest).modifyHead (c :: ·)

theorem sections_ne_nil (depth : Int) (cs : List Char) : sections depth cs ≠ [] := by
  induction cs generalizing depth with
  | nil => simp [sections]
  | cons c rest ih =>
    rw [sections]
    split
    · simp
    · rw [Ne, List.modifyHead_eq_nil_iff]
      exact ih _

/-- One more character starts a section if it is a semicolon at depth zero, and belongs to the last
section otherwise. -/
theorem sections_concat {depth : Int} {cs : List Char} {front : List (List Char)}
    {last : List Char} (h : sections depth cs = front ++ [last]) (c : Char) :
    sections depth (cs ++ [c]) =
      if depth + net cs + bracketStep c = 0 ∧ c = ';' then front ++ [last, []]
      else front ++ [last ++ [c]] := by
  induction cs generalizing depth front last with
  | nil =>
    cases front with
    | nil =>
      have hlast : last = [] := by simpa [sections] using h.symm
      simp [sections, hlast]
    | cons piece pieces => simp [sections] at h
  | cons b rest ih =>
    have hnet : depth + net (b :: rest) = depth + bracketStep b + net rest := by
      rw [net_cons]
      omega
    rw [hnet, List.cons_append, sections]
    rw [sections] at h
    split at h
    · next hb =>
      rw [if_pos hb]
      cases front with
      | nil => exact absurd (List.cons.inj h).2 (sections_ne_nil _ _)
      | cons piece pieces =>
        obtain ⟨hpiece, hpieces⟩ := List.cons.inj h
        rw [ih hpieces, ← hpiece]
        split <;> rfl
    · next hb =>
      rw [if_neg hb]
      obtain ⟨front', last', hcut, hgrow⟩ :=
        Text.exists_of_modifyHead_eq_concat (sections_ne_nil _ rest) h
      rw [ih hcut]
      split
      · simpa using hgrow [] [[]]
      · exact hgrow [c] []

/-! ## Labels -/

/-- The texts before and after the first colon at depth zero, when the text starts at some depth. -/
def splitLabel? (depth : Int) : List Char → Option (List Char × List Char)
  | [] => none
  | c :: rest =>
    if depth + bracketStep c = 0 ∧ c = ':' then some ([], rest)
    else (splitLabel? (depth + bracketStep c) rest).map fun p => (c :: p.1, p.2)

/-- One more character belongs to the value if there is a label already, and ends the label if it is
a colon at depth zero. -/
theorem splitLabel?_concat (depth : Int) (cs : List Char) (c : Char) :
    splitLabel? depth (cs ++ [c]) =
      match splitLabel? depth cs with
      | some p => some (p.1, p.2 ++ [c])
      | none => if depth + net cs + bracketStep c = 0 ∧ c = ':' then some (cs, []) else none := by
  induction cs generalizing depth with
  | nil => simp [splitLabel?]
  | cons b rest ih =>
    have hnet : depth + net (b :: rest) = depth + bracketStep b + net rest := by
      rw [net_cons]
      omega
    rw [hnet, List.cons_append, splitLabel?, splitLabel?]
    by_cases hb : depth + bracketStep b = 0 ∧ b = ':'
    · rw [if_pos hb, if_pos hb]
    · rw [if_neg hb, if_neg hb, ih]
      cases splitLabel? (depth + bracketStep b) rest with
      | some p => rfl
      | none =>
        simp only [Option.map_none]
        split <;> rfl

theorem net_of_splitLabel? {depth : Int} {cs : List Char} {p : List Char × List Char}
    (h : splitLabel? depth cs = some p) : net p.2 = depth + net cs := by
  induction cs generalizing depth p with
  | nil => cases h
  | cons c rest ih =>
    rw [splitLabel?] at h
    rw [net_cons]
    split at h
    · next hc =>
      cases h
      dsimp only
      omega
    · obtain ⟨q, hq, rfl⟩ := Option.map_eq_some_iff.1 h
      have hrest := ih hq
      dsimp only
      omega

/-- The label of a section. -/
def label? (sec : List Char) : Option Label :=
  (splitLabel? 0 sec).map fun p => Label.ofText p.1

/-- What a section holds after its label, or all of it if it has none. -/
def afterLabel (sec : List Char) : List Char :=
  (splitLabel? 0 sec).elim sec Prod.snd

theorem net_afterLabel (sec : List Char) : net (afterLabel sec) = net sec := by
  unfold afterLabel
  cases h : splitLabel? 0 sec with
  | none => rfl
  | some p =>
    have hnet := net_of_splitLabel? h
    rw [Option.elim_some]
    omega

/-! ## The reader -/

/-- Between two braces stands the body. -/
theorem body_object (cs : List Char) : body ('{' :: (cs ++ ['}'])) = cs := by
  rw [body, Text.strip_cons_concat (by decide) (by decide)]
  simp

namespace Reader

/-- The reader that has read a section after some properties. -/
def inSection (object : ObjectType) (sec : List Char) : Reader where
  object := object
  depth := net sec
  label := label? sec
  pending := (afterLabel sec).reverse

/-- The properties with the one of a section. -/
def addSection (object : ObjectType) (sec : List Char) : ObjectType :=
  (inSection object sec).withCurrent

/-- In a section a character either ends the section or belongs to it. -/
theorem step_inSection (object : ObjectType) (sec : List Char) (c : Char) :
    (inSection object sec).step c =
      if net sec + bracketStep c = 0 ∧ c = ';' then inSection (addSection object sec) []
      else inSection object (sec ++ [c]) := by
  have hnet : net (sec ++ [c]) = net sec + bracketStep c := by simp
  have hlabel := splitLabel?_concat 0 sec c
  rw [Int.zero_add] at hlabel
  by_cases hsemicolon : net sec + bracketStep c = 0 ∧ c = ';'
  · obtain ⟨hdepth, rfl⟩ := hsemicolon
    rw [if_pos ⟨hdepth, rfl⟩]
    simp [step, inSection, addSection, hdepth, label?, afterLabel, splitLabel?]
  · rw [if_neg hsemicolon]
    cases hsplit : splitLabel? 0 sec with
    | some p =>
      rw [hsplit] at hlabel
      simp only [step, inSection, label?, afterLabel, hsplit, hlabel, hnet]
      simp [hsemicolon]
    | none =>
      rw [hsplit] at hlabel
      by_cases hcolon : net sec + bracketStep c = 0 ∧ c = ':'
      · rw [if_pos hcolon] at hlabel
        obtain ⟨hdepth, rfl⟩ := hcolon
        simp only [step, inSection, label?, afterLabel, hsplit, hlabel, hnet]
        simp [hdepth]
      · rw [if_neg hcolon] at hlabel
        simp only [step, inSection, label?, afterLabel, hsplit, hlabel, hnet]
        simp [hsemicolon, hcolon]

/-- After a part of the body the reader holds the properties of its complete sections, all of which
are balanced, and is in its last section. -/
theorem exists_sections (cs : List Char) :
    ∃ front last, sections 0 cs = front ++ [last] ∧ (∀ sec ∈ front, net sec = 0) ∧
      net last = net cs ∧
      cs.foldl step {} = inSection (front.foldl addSection .empty) last := by
  induction cs using List.reverseRecOn with
  | nil => exact ⟨[], [], rfl, by simp, rfl, rfl⟩
  | append_singleton cs c ih =>
    obtain ⟨front, last, hsections, hfront, hlast, hread⟩ := ih
    have hconcat := sections_concat hsections c
    have hnet : net (cs ++ [c]) = net cs + bracketStep c := by simp
    rw [Int.zero_add, ← hlast] at hconcat
    rw [List.foldl_concat, hread, step_inSection, hnet]
    by_cases hsemicolon : net last + bracketStep c = 0 ∧ c = ';'
    · rw [if_pos hsemicolon] at hconcat ⊢
      refine ⟨front ++ [last], [], by simpa using hconcat, ?_, ?_, ?_⟩
      · intro sec hsec
        rcases List.mem_append.1 hsec with h | h
        · exact hfront sec h
        · obtain ⟨hdepth, rfl⟩ := hsemicolon
          rw [List.mem_singleton.1 h]
          simpa [bracketStep] using hdepth
      · rw [← hlast, hsemicolon.1]
        rfl
      · rw [List.foldl_concat]
    · rw [if_neg hsemicolon] at hconcat ⊢
      refine ⟨front, last ++ [c], hconcat, hfront, ?_, rfl⟩
      rw [← hlast]
      simp

end Reader

end Diagnosis.ObjectLiteral
