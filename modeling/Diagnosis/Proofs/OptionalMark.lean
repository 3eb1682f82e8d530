import Diagnosis.Proofs.Layout
import Diagnosis.Proofs.LiteralEntries
import Diagnosis.Proofs.Parts
import Mathlib.Data.List.Rotate

/-!
# The mark of an optional property

A label that ends in a question mark belongs to an optional property, whose name is the label
without this mark and without the blanks before it (`Label.withoutMark`). The reader finds the mark
at the end of the label, but what it leaves out of the name is the first question mark, wherever
that stands, and the blanks before it remain.

Both come to the same name for exactly those labels in which nothing follows a question mark but
more of them and a single one stands right behind the name (`Label.MarksAtEnd`). The label of a
method with an optional parameter is not one of them, and the method is read under a name that is
written nowhere (`ObjectLiteral.optional_parameter_loses_mark`).
-/

namespace Diagnosis

open Text (strip stripRight)

namespace Label

/-- A label without the mark of an optional property and the blanks before it. -/
def withoutMark (raw : List Char) : List Char :=
  if raw.getLast? = some '?' then stripRight raw.dropLast else raw

/-- Whether all question marks of a label stand at its end, a single one right behind the name. -/
def MarksAtEnd (raw : List Char) : Prop :=
  ∃ name marks, raw = name ++ List.replicate marks '?' ∧ '?' ∉ name ∧
    (marks = 1 → stripRight name = name)

theorem withoutMark_concat (cs : List Char) : withoutMark (cs ++ ['?']) = stripRight cs := by
  rw [withoutMark, if_pos List.getLast?_concat, List.dropLast_concat]

theorem withoutMark_concat_of_ne {c : Char} (hc : c ≠ '?') (cs : List Char) :
    withoutMark (cs ++ [c]) = cs ++ [c] := by
  have hlast : (cs ++ [c]).getLast? ≠ some '?' := by
    rw [List.getLast?_concat]
    exact mt Option.some.inj hc
  rw [withoutMark, if_neg hlast]

/-! ## Labels with their marks at the end -/

theorem marksAtEnd_of_not_mem {raw : List Char} (h : '?' ∉ raw) : MarksAtEnd raw := by
  refine ⟨raw, 0, ?_, h, ?_⟩
  · rw [List.replicate_zero, List.append_nil]
  · intro hzero
    cases hzero

/-- The first question mark of a label has one place. -/
theorem length_eq_of_append_cons_eq {front rest front' rest' : List Char} (h : '?' ∉ front)
    (h' : '?' ∉ front') (heq : front ++ '?' :: rest = front' ++ '?' :: rest') :
    front.length = front'.length := by
  have hplace (cs ds : List Char) (hcs : '?' ∉ cs) : (cs ++ '?' :: ds).idxOf '?' = cs.length := by
    rw [List.idxOf_append_of_notMem hcs, List.idxOf_cons_self, Nat.add_zero]
  rw [← hplace front rest h, heq, hplace front' rest' h']

theorem marksAtEnd_append_cons_iff {front rest : List Char} (hfront : '?' ∉ front) :
    MarksAtEnd (front ++ '?' :: rest) ↔
      (∀ c ∈ rest, c = '?') ∧ (rest = [] → stripRight front = front) := by
  constructor
  · rintro ⟨name, marks, hraw, hname, hone⟩
    obtain ⟨k, rfl⟩ : ∃ k, marks = k + 1 := by
      refine Nat.exists_eq_succ_of_ne_zero ?_
      rintro rfl
      rw [List.replicate_zero, List.append_nil] at hraw
      exact hname (hraw ▸ by simp)
    rw [List.replicate_succ] at hraw
    obtain ⟨rfl, hrest⟩ := List.append_inj hraw (length_eq_of_append_cons_eq hfront hname hraw)
    obtain rfl : rest = List.replicate k '?' := (List.cons.inj hrest).2
    refine ⟨fun c hc => List.eq_of_mem_replicate hc, ?_⟩
    intro hnil
    have hk : k = 0 := (List.replicate_eq_nil_iff '?').1 hnil
    exact hone (by omega)
  · rintro ⟨hrest, hnil⟩
    refine ⟨front, rest.length + 1, ?_, hfront, ?_⟩
    · rw [List.replicate_succ, ← List.eq_replicate_length.2 hrest]
    · intro hone
      exact hnil (List.length_eq_zero_iff.1 (by omega))

/-! ## The first mark and the last one -/

/-- A character is added at either end of a text alike if the text holds no other. -/
theorem concat_eq_cons_iff {c : Char} {cs : List Char} : cs ++ [c] = c :: cs ↔ ∀ d ∈ cs, d = c := by
  constructor
  · intro hshift
    have hrotate : (c :: cs).rotate 1 = c :: cs := by
      rw [List.rotate_cons_succ, List.rotate_zero, hshift]
    obtain ⟨d, hall⟩ := List.rotate_one_eq_self_iff_eq_replicate.1 hrotate
    rw [List.length_cons, List.replicate_succ] at hall
    obtain ⟨rfl, htail⟩ := List.cons.inj hall
    exact List.eq_replicate_length.1 htail
  · intro hall
    rw [List.eq_replicate_length.2 hall, ← List.replicate_succ', List.replicate_succ]

/-- The first mark or the last one may be left out alike if there is nothing between them but other
marks. -/
theorem append_concat_eq_stripRight_iff (front middle : List Char) :
    front ++ (middle ++ ['?']) = stripRight (front ++ '?' :: middle) ↔ ∀ c ∈ middle, c = '?' := by
  rw [← concat_eq_cons_iff]
  constructor
  · intro hsame
    have hlength : (stripRight (front ++ '?' :: middle)).length =
        (front ++ '?' :: middle).length := by
      rw [← hsame]
      simp
    rw [(Text.prefix_stripRight _).eq_of_length hlength] at hsame
    exact List.append_cancel_left hsame
  · intro hshift
    have hlast : ∀ c ∈ (front ++ (middle ++ ['?'])).getLast?, Text.isBlank c = false := by
      intro c hc
      rw [← List.append_assoc, List.getLast?_concat] at hc
      cases hc
      decide
    rw [← hshift, Text.stripRight_eq_self hlast]

/-- Leaving out the first mark gives the name for those labels alone that have their marks at the
end. -/
theorem erase_eq_withoutMark_iff (raw : List Char) :
    raw.erase '?' = withoutMark raw ↔ MarksAtEnd raw := by
  by_cases hmem : '?' ∈ raw
  · obtain ⟨front, rest, rfl, hfront⟩ := List.eq_append_cons_of_mem hmem
    have herase : (front ++ '?' :: rest).erase '?' = front ++ rest := by
      rw [List.erase_append_right _ hfront, List.erase_cons_head]
    rw [herase, marksAtEnd_append_cons_iff hfront]
    -- what the label ends in decides whether there is a mark to leave out
    rcases List.eq_nil_or_concat' rest with rfl | ⟨middle, c, rfl⟩
    · rw [withoutMark_concat, List.append_nil]
      simp [eq_comm]
    · have hend : front ++ '?' :: (middle ++ [c]) = front ++ '?' :: middle ++ [c] := by simp
      rw [hend]
      by_cases hc : c = '?'
      · subst hc
        rw [withoutMark_concat, append_concat_eq_stripRight_iff, List.forall_mem_append,
          List.forall_mem_singleton]
        simp
      · rw [withoutMark_concat_of_ne hc]
        refine iff_of_false ?_ ?_
        · intro hsame
          have hlength := congrArg List.length hsame
          simp at hlength
        · rintro ⟨hall, -⟩
          exact hc (hall c List.mem_concat_self)
  · have hlast : raw.getLast? ≠ some '?' := mt List.mem_of_getLast? hmem
    rw [List.erase_of_not_mem hmem, withoutMark, if_neg hlast]
    exact iff_of_true rfl (marksAtEnd_of_not_mem hmem)

end Label

namespace ObjectLiteral

/-- The object type that is read of a text is written by the entries of its body. An entry is
optional if its label ends in a question mark, and its name is the label without this mark if and
only if the label has its question marks at the end. -/
theorem read_names_iff_marksAtEnd (text : List Char) :
    read text = ((entries (body text)).map Entry.property).foldl ObjectType.insert .empty ∧
      ∀ e ∈ entries (body text),
        (e.property.optional = true ↔ (strip e.label).getLast? = some '?') ∧
        (e.property.name = String.ofList (Label.withoutMark (strip e.label)) ↔
          Label.MarksAtEnd (strip e.label)) := by
  refine ⟨Reader.finish_foldl_step (body text), ?_⟩
  intro e _
  refine ⟨beq_iff_eq, ?_⟩
  have hname : e.property.name = String.ofList ((strip e.label).erase '?') := rfl
  rw [hname, String.ofList_inj, Label.erase_eq_withoutMark_iff]

/-- A method whose only parameter is optional: the mark of the parameter is left out of the name,
and the method itself is not optional. -/
theorem optional_parameter_loses_mark :
    let text := "\x7b f(a?: string): void \x7d".toList
    (entries (body text)).map Entry.label = [" f(a?: string)".toList] ∧
      String.ofList (Label.withoutMark "f(a?: string)".toList) = "f(a?: string)" ∧
      (read text).properties = [⟨"f(a: string)", false, "void"⟩] := by
  decide +kernel

end ObjectLiteral

end Diagnosis
