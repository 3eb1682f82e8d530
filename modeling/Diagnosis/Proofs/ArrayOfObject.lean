import Diagnosis.Proofs.Comparison
import Diagnosis.Proofs.Layout
import Diagnosis.Proofs.Sections

/-!
# An object type and the array of it

A text that opens with a brace is read as an object literal, also if brackets follow the closing
brace and the text is the type of an array. The closing brace and the brackets then belong to the
last section of the body. They become the end of the value of the last property if that section has
a label, and are dropped without a trace if it has none, as after a final semicolon.

So an object type is told from the array of it exactly if a property is still open at the end of its
body (`Difference.array_of_object_iff`). That the open property is always told apart follows from
the balance of brackets: the closing brace makes it differ from that of every value that could stand
under the same name.
-/

namespace Diagnosis

open Text (strip)

namespace ObjectLiteral

/-! ## What follows the closing brace -/

/-- The label of the last section of a body. -/
def openLabel (cs : List Char) : Option Label := (sections 0 cs).getLast?.bind label?

/-- Whether a property with a name is still open at the end of a body. -/
def HasOpenProperty (cs : List Char) : Prop :=
  ∃ label, openLabel cs = some label ∧ label.name ≠ ""

/-- The text between two braces. -/
def inBraces (inner : String) : String := "\x7b" ++ inner ++ "\x7d"

/-- The end of the text of an array of objects. -/
def arrayEnd : List Char := ['}', '[', ']']

theorem strip_array (cs : List Char) :
    strip ('{' :: (cs ++ arrayEnd)) = '{' :: (cs ++ arrayEnd) := by
  have harray : '{' :: (cs ++ arrayEnd) = '{' :: ((cs ++ ['}', '[']) ++ [']']) := by
    simp [arrayEnd]
  rw [harray, Text.strip_cons_concat (by decide) (by decide)]

theorem body_array (cs : List Char) : body ('{' :: (cs ++ arrayEnd)) = cs ++ arrayEnd := by
  rw [body, strip_array]
  simp [arrayEnd]

namespace Reader

theorem net_value (r : Reader) : net r.value.toList = net r.pending := by
  rw [value, String.toList_ofList, net_strip, net_reverse]

theorem foldl_arrayEnd (r : Reader) :
    arrayEnd.foldl step r =
      { r with depth := r.depth - 1, pending := arrayEnd.reverse ++ r.pending } := by
  simp [arrayEnd, step, bracketStep]
  omega

theorem label_foldl (cs : List Char) : (cs.foldl step {}).label = openLabel cs := by
  obtain ⟨front, last, hsections, -, -, hread⟩ := exists_sections cs
  rw [hread, openLabel, hsections, List.getLast?_concat]
  rfl

end Reader

/-! ## The balance of values -/

/-- Whether all values are balanced. -/
def Balanced (o : ObjectType) : Prop :=
  ∀ name p, o.get? name = some p → net p.valueType.toList = 0

namespace Reader

theorem balanced_addSection {object : ObjectType} (h : Balanced object) {sec : List Char}
    (hsec : net sec = 0) : Balanced (addSection object sec) := by
  have hvalue : net (inSection object sec).value.toList = 0 := by
    rw [net_value, inSection, net_reverse, net_afterLabel, hsec]
  unfold addSection withCurrent
  split
  · next label hlabel =>
    split
    · exact h
    · intro name p hp
      by_cases hname : label.name = name
      · subst hname
        rw [ObjectType.get?_insert_self] at hp
        rw [← Option.some.inj hp]
        exact hvalue
      · rw [ObjectType.get?_insert_of_ne _ hname] at hp
        exact h name p hp
  · exact h

/-- The values of the complete properties are balanced. -/
theorem balanced_foldl (cs : List Char) : Balanced (cs.foldl step {}).object := by
  have hfold (object : ObjectType) (front : List (List Char)) (h : Balanced object)
      (hfront : ∀ sec ∈ front, net sec = 0) : Balanced (front.foldl addSection object) := by
    induction front generalizing object with
    | nil => exact h
    | cons sec rest ih =>
      exact ih _ (balanced_addSection h (hfront sec List.mem_cons_self))
        fun sec hsec => hfront sec (List.mem_cons_of_mem _ hsec)
  obtain ⟨front, last, -, hfront, -, hread⟩ := exists_sections cs
  have hempty : Balanced .empty := by
    intro name p hp
    cases hp
  rw [hread]
  exact hfold .empty front hempty hfront

/-! ## The open property -/

/-- Without an open property the end of an array leaves no trace. -/
theorem finish_foldl_arrayEnd {r : Reader} (h : ¬ ∃ label, r.label = some label ∧ label.name ≠ "") :
    (arrayEnd.foldl step r).finish = r.finish := by
  have hfinish (s : Reader) (hlabel : s.label = r.label) : s.finish = s.object := by
    have hcurrent : s.withCurrent = s.object := by
      unfold withCurrent
      split
      · next label hsome =>
        have hname : label.name = "" := by
          by_contra hne
          exact h ⟨label, hlabel ▸ hsome, hne⟩
        rw [if_pos (String.isEmpty_iff.2 hname)]
      · rfl
    rw [finish, hcurrent, ite_self]
  rw [foldl_arrayEnd, hfinish r rfl]
  exact hfinish _ rfl

/-- What stands under the name of the open property is balanced as what was read of its value. -/
theorem net_of_get?_finish {r : Reader} (hbalanced : Balanced r.object) {label : Label}
    (hlabel : r.label = some label) (hname : label.name ≠ "") {p : Property}
    (hp : r.finish.get? label.name = some p) : net p.valueType.toList = net r.pending := by
  rw [finish] at hp
  split at hp
  · next hempty =>
    have hvalue : r.value = "" := String.isEmpty_iff.1 hempty
    rw [hbalanced _ _ hp, ← net_value, hvalue]
    rfl
  · rw [withCurrent, hlabel] at hp
    dsimp only at hp
    rw [if_neg (mt String.isEmpty_iff.1 hname)] at hp
    have hself := r.object.get?_insert_self ⟨label.name, label.optional, r.value⟩
    rw [hself] at hp
    rw [← Option.some.inj hp]
    exact net_value r

/-- The end of an array becomes the end of the value of the open property. -/
theorem finish_foldl_arrayEnd_of_label {r : Reader} {label : Label} (hlabel : r.label = some label)
    (hname : label.name ≠ "") :
    (arrayEnd.foldl step r).finish =
      r.object.insert ⟨label.name, label.optional, (arrayEnd.foldl step r).value⟩ := by
  have hvalue : (arrayEnd.foldl step r).value ≠ "" := by
    rw [value, foldl_arrayEnd, Ne, String.ofList_eq_empty_iff, Text.strip_eq_nil_iff]
    intro hblank
    have hbrace := hblank '}' (by simp [arrayEnd])
    exact absurd hbrace (by decide)
  rw [finish, if_neg (mt String.isEmpty_iff.1 hvalue), withCurrent, foldl_arrayEnd]
  dsimp only
  rw [hlabel]
  dsimp only
  rw [if_neg (mt String.isEmpty_iff.1 hname)]

theorem get?_finish_foldl_arrayEnd {r : Reader} {label : Label} (hlabel : r.label = some label)
    (hname : label.name ≠ "") :
    ∃ p, (arrayEnd.foldl step r).finish.get? label.name = some p ∧
      net p.valueType.toList = net r.pending - 1 := by
  have hnet : net (arrayEnd.foldl step r).value.toList = net r.pending - 1 := by
    rw [net_value, foldl_arrayEnd, net_append, show net arrayEnd.reverse = -1 from rfl]
    omega
  rw [finish_foldl_arrayEnd_of_label hlabel hname]
  exact ⟨_, ObjectType.get?_insert_self _ _, hnet⟩

/-- The object types with and without the end of an array hold the same up to the blanks if and only
if no property is open. -/
theorem words?_finish_foldl_arrayEnd_iff {r : Reader} (hbalanced : Balanced r.object) :
    (∀ name, r.finish.words? name = (arrayEnd.foldl step r).finish.words? name) ↔
      ¬ ∃ label, r.label = some label ∧ label.name ≠ "" := by
  constructor
  · rintro hsame ⟨label, hlabel, hname⟩
    obtain ⟨q, hq, hnet⟩ := get?_finish_foldl_arrayEnd hlabel hname
    have hwords := hsame label.name
    rw [ObjectType.words?, ObjectType.words?, hq] at hwords
    obtain ⟨p, hp, hpq⟩ := Option.map_eq_some_iff.1 hwords
    have hpending := net_of_get?_finish hbalanced hlabel hname hp
    rw [← net_normalize, hpq, net_normalize] at hpending
    omega
  · intro hopen name
    rw [finish_foldl_arrayEnd hopen]

end Reader

/-! ## The two texts -/

theorem toList_inBraces (inner : String) :
    (inBraces inner).toList = '{' :: (inner.toList ++ ['}']) := by
  simp [inBraces]

theorem toList_inBraces_array (inner : String) :
    (inBraces inner ++ "[]").toList = '{' :: (inner.toList ++ arrayEnd) := by
  simp [inBraces, arrayEnd]

theorem read_inBraces (inner : String) :
    read (inBraces inner).toList = (inner.toList.foldl Reader.step {}).finish := by
  rw [read, toList_inBraces, body_object]

theorem read_inBraces_array (inner : String) :
    read (inBraces inner ++ "[]").toList =
      (arrayEnd.foldl Reader.step (inner.toList.foldl Reader.step {})).finish := by
  rw [read, toList_inBraces_array, body_array, List.foldl_append]

theorem exists_readers (inner : String) :
    ∃ r : Reader, Balanced r.object ∧ r.label = openLabel inner.toList ∧
      TypeText.ofString (inBraces inner) = .object r.finish ∧
      TypeText.ofString (inBraces inner ++ "[]") =
        .object (arrayEnd.foldl Reader.step r).finish := by
  refine ⟨inner.toList.foldl Reader.step {}, Reader.balanced_foldl _, Reader.label_foldl _, ?_, ?_⟩
  · rw [← read_inBraces, TypeText.ofString, toList_inBraces,
      Text.strip_cons_concat (by decide) (by decide)]
    rfl
  · rw [← read_inBraces_array, TypeText.ofString, toList_inBraces_array, strip_array]
    rfl

end ObjectLiteral

open ObjectLiteral (HasOpenProperty inBraces)

/-- For every text between two braces, the comparison tells the type from the array of it, and the
alignment shows a difference, in either order, if and only if a property with a name is still open
at the end of the text. -/
theorem Difference.array_of_object_iff (inner : String) :
    (between (inBraces inner) (inBraces inner ++ "[]") ≠ [] ↔ HasOpenProperty inner.toList) ∧
      (between (inBraces inner ++ "[]") (inBraces inner) ≠ [] ↔ HasOpenProperty inner.toList) ∧
      ((Alignment.between (inBraces inner) (inBraces inner ++ "[]")).hasDifferences = true ↔
        HasOpenProperty inner.toList) ∧
      ((Alignment.between (inBraces inner ++ "[]") (inBraces inner)).hasDifferences = true ↔
        HasOpenProperty inner.toList) := by
  obtain ⟨r, hbalanced, hlabel, hobject, harray⟩ := ObjectLiteral.exists_readers inner
  have hsame := ObjectLiteral.Reader.words?_finish_foldl_arrayEnd_iff hbalanced
  rw [hlabel] at hsame
  have hforward : between (inBraces inner) (inBraces inner ++ "[]") ≠ [] ↔
      HasOpenProperty inner.toList := by
    rw [between, hobject, harray, Ne, ofTypes_object_eq_nil_iff, hsame]
    exact Classical.not_not
  have hbackward : between (inBraces inner ++ "[]") (inBraces inner) ≠ [] ↔
      HasOpenProperty inner.toList := by
    rw [between, hobject, harray, Ne, ofTypes_object_eq_nil_iff, forall_congr' fun _ => eq_comm,
      hsame]
    exact Classical.not_not
  exact ⟨hforward, hbackward,
    (Alignment.hasDifferences_between_objects hobject harray).trans hforward,
    (Alignment.hasDifferences_between_objects harray hobject).trans hbackward⟩

/-- After a final semicolon no property is open, so that an object type and the array of it are
taken for the same. -/
theorem Difference.array_of_closed_object :
    between (inBraces " a: string; ") (inBraces " a: string; " ++ "[]") = [] ∧
      between (inBraces " a: string; " ++ "[]") (inBraces " a: string; ") = [] ∧
      (Alignment.between (inBraces " a: string; ")
        (inBraces " a: string; " ++ "[]")).hasDifferences = false := by
  decide +kernel

end Diagnosis
