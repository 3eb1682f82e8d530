import Diagnosis.Proofs.ArrayOfObject
import Diagnosis.Proofs.ArrayProperties
import Diagnosis.Proofs.MismatchLine

/-!
# An object where an array of objects is expected

The message that an object type is not assignable to the type of an array of objects is about an
array that is missing, whatever the two object types are. But the text of the array type opens with
a brace, so its properties are read as those of an object type, and the last one may have got the
brackets of the array.

The properties are read as if there were no array, apart from one that is still open at the end of
the object type: its type ends in the brackets. So the message is reported as one array mismatch of
the two types if and only if no property of the source that mentions no array meets the open
property, or a property that mentions an array (`Record.array_expected_iff`). Otherwise it is the
properties that are reported, and the types as a whole are not.
-/

namespace Diagnosis

open Text (Line Quotable strip)
open ObjectLiteral (inBraces arrayEnd toList_inBraces toList_inBraces_array)
open Message (ofMismatch)

/-! ## The property that is left open -/

namespace ObjectLiteral

/-- Whether a body leaves a property of a name open. -/
def LeavesOpen (cs : List Char) (name : String) : Prop :=
  name ≠ "" ∧ (openLabel cs).map Label.name = some name

instance (cs : List Char) (name : String) : Decidable (LeavesOpen cs name) :=
  inferInstanceAs (Decidable (name ≠ "" ∧ (openLabel cs).map Label.name = some name))

theorem arrayEnd_suffix_strip (cs : List Char) : arrayEnd <:+ strip (cs ++ arrayEnd) := by
  have hleft : ∃ front, Text.stripLeft (cs ++ arrayEnd) = front ++ arrayEnd := by
    rw [Text.stripLeft, List.dropWhile_append]
    split
    · exact ⟨[], rfl⟩
    · exact ⟨_, rfl⟩
  obtain ⟨front, hfront⟩ := hleft
  have hlast : ∀ c ∈ (front ++ arrayEnd).getLast?, Text.isBlank c = false := by
    intro c hc
    rw [List.getLast?_append_of_ne_nil _ (by decide)] at hc
    rw [← Option.some.inj hc]
    decide
  rw [strip, hfront, Text.stripRight_eq_self hlast]
  exact List.suffix_append _ _

namespace Reader

theorem arrayEnd_suffix_value (r : Reader) :
    arrayEnd <:+ (arrayEnd.foldl step r).value.toList := by
  rw [value, foldl_arrayEnd, String.toList_ofList, List.reverse_append, List.reverse_reverse]
  exact arrayEnd_suffix_strip _

/-- The end of an array changes nothing under another name than that of the open property. -/
theorem get?_finish_foldl_arrayEnd_of_ne {r : Reader} {name : String}
    (h : ¬ (name ≠ "" ∧ r.label.map Label.name = some name)) :
    (arrayEnd.foldl step r).finish.get? name = r.finish.get? name := by
  by_cases hopen : ∃ label, r.label = some label ∧ label.name ≠ ""
  · obtain ⟨label, hlabel, hname⟩ := hopen
    have hne : label.name ≠ name := by
      rintro rfl
      exact h ⟨hname, congrArg _ hlabel⟩
    have hfinish : r.finish.get? name = r.object.get? name := by
      rw [finish]
      split
      · rfl
      · rw [withCurrent, hlabel]
        dsimp only
        rw [if_neg (mt String.isEmpty_iff.1 hname), ObjectType.get?_insert_of_ne _ hne]
    rw [finish_foldl_arrayEnd_of_label hlabel hname, ObjectType.get?_insert_of_ne _ hne, hfinish]
  · rw [finish_foldl_arrayEnd hopen]

end Reader

variable {inner name : String}

/-- Under the name of the open property an array type has a property that mentions an array. -/
theorem exists_mentionsArray_of_leavesOpen (h : LeavesOpen inner.toList name) :
    ∃ t ∈ (read (inBraces inner ++ "[]").toList).properties, t.name = name ∧ t.MentionsArray := by
  obtain ⟨hname, hopen⟩ := h
  obtain ⟨label, hlabel, rfl⟩ := Option.map_eq_some_iff.1 hopen
  rw [← Reader.label_foldl] at hlabel
  have hfinish := Reader.finish_foldl_arrayEnd_of_label hlabel hname
  have hvalue := Reader.arrayEnd_suffix_value (inner.toList.foldl Reader.step {})
  rw [read_inBraces_array, hfinish]
  refine ⟨_, ObjectType.mem_of_get?_eq_some (ObjectType.get?_insert_self _ _), rfl, ?_⟩
  exact (List.suffix_append ['}'] "[]".toList).isInfix.trans hvalue.isInfix

/-- Under any other name it has what the object type has. -/
theorem get?_read_inBraces_array (h : ¬ LeavesOpen inner.toList name) :
    (read (inBraces inner ++ "[]").toList).get? name =
      (read (inBraces inner).toList).get? name := by
  rw [read_inBraces, read_inBraces_array]
  refine Reader.get?_finish_foldl_arrayEnd_of_ne ?_
  rw [Reader.label_foldl]
  exact h

theorem exists_mentionsArray_iff :
    (∃ t ∈ (read (inBraces inner ++ "[]").toList).properties, t.name = name ∧ t.MentionsArray) ↔
      LeavesOpen inner.toList name ∨
        ∃ t ∈ (read (inBraces inner).toList).properties, t.name = name ∧ t.MentionsArray := by
  have hget (o : ObjectType) :
      (∃ t ∈ o.properties, t.name = name ∧ t.MentionsArray) ↔
        ∃ t, o.get? name = some t ∧ t.MentionsArray := by
    simp only [ObjectType.get?_eq, Property.get?_eq_some_iff o.nodup, and_assoc]
  by_cases hopen : LeavesOpen inner.toList name
  · simp only [hopen, true_or, iff_true]
    exact exists_mentionsArray_of_leavesOpen hopen
  · simp only [hopen, false_or, hget, get?_read_inBraces_array hopen]

end ObjectLiteral

open ObjectLiteral (LeavesOpen)

/-! ## The mismatch of the two types -/

theorem TypeText.isArray_append_brackets (cs : List Char) : isArray (cs ++ ['[', ']']) = true := by
  have hstrip : Text.stripRight (cs ++ ['[', ']']) = cs ++ ['[', ']'] := by
    refine Text.stripRight_eq_self fun c hc => ?_
    rw [List.getLast?_append_of_ne_nil _ (by decide)] at hc
    rw [← Option.some.inj hc]
    decide
  rw [isArray, hstrip, List.reverse_append]
  rfl

theorem TypeText.isArray_concat_brace (cs : List Char) : isArray (cs ++ ['}']) = false := by
  have hstrip : Text.stripRight (cs ++ ['}']) = cs ++ ['}'] := by
    refine Text.stripRight_eq_self fun c hc => ?_
    rw [List.getLast?_concat] at hc
    rw [← Option.some.inj hc]
    decide
  rw [isArray, hstrip, List.reverse_append]
  rfl

theorem TypeMismatch.isArrayMismatch_ofTypes (s o : String) :
    (ofTypes (inBraces s) (inBraces o ++ "[]")).isArrayMismatch = true := by
  have harray : TypeText.isArray (inBraces o ++ "[]").toList = true := by
    rw [String.toList_append]
    exact TypeText.isArray_append_brackets _
  have hobject : TypeText.isArray (inBraces s).toList = false := by
    rw [toList_inBraces, ← List.cons_append]
    exact TypeText.isArray_concat_brace _
  simp only [ofTypes, harray, hobject, Bool.not_false, Bool.and_self]

/-- No property is told of an object type and an array of objects if and only if the properties of
the former that are left open in the latter, or mention an array there, mention one themselves. -/
theorem Finding.textPairs_array_eq_nil_iff (s o : String) :
    textPairs (inBraces s) (inBraces o ++ "[]") = [] ↔
      ∀ p ∈ (ObjectLiteral.read (inBraces s).toList).properties,
        (LeavesOpen o.toList p.name ∨
          ∃ t ∈ (ObjectLiteral.read (inBraces o).toList).properties,
            t.name = p.name ∧ t.MentionsArray) → p.MentionsArray := by
  have hbraces : ['{'] <+: (inBraces s).toList ∧ ['{'] <+: (inBraces o ++ "[]").toList := by
    rw [toList_inBraces, toList_inBraces_array]
    exact ⟨⟨_, rfl⟩, ⟨_, rfl⟩⟩
  simp only [← ObjectLiteral.exists_mentionsArray_iff]
  rw [List.eq_nil_iff_forall_not_mem]
  constructor
  · rintro hnone p hp ⟨t, ht, hname, hmentions⟩
    by_contra hnot
    exact hnone (p, t) (mem_textPairs_iff.2 ⟨hbraces, ⟨hp, ht, hname, hmentions, hnot⟩⟩)
  · rintro hall ⟨p, t⟩ hmem
    obtain ⟨-, hpair⟩ := mem_textPairs_iff.1 hmem
    exact hpair.source_not_mentions
      (hall p hpair.source_mem ⟨t, hpair.target_mem, hpair.name_eq, hpair.target_mentions⟩)

theorem Text.Quotable.array {s : String} (h : Quotable s) : Quotable (s ++ "[]") := by
  have hbrackets : Quotable "[]" := by decide
  refine ⟨fun hnil => h.1 (String.append_eq_empty_iff.1 hnil).1, fun c hc => ?_⟩
  rw [String.toList_append] at hc
  exact (List.mem_append.1 hc).elim (h.2 c) (hbrackets.2 c)

namespace Record

/-- Let a line of a text say that an object type is not assignable to the type of an array of
objects; the two object types are any texts between braces that can be quoted. The line reports, as
one of this shape, one array mismatch of the two types at the path that it has reached, and nothing
else, if and only if every property of the source that is left open at the end of the objects' type,
or mentions an array in it, mentions an array in the source as well. -/
theorem array_expected_iff (mode : PathMode) {text : String} {before after : List Line}
    {line : Line} {s o : String} (hlines : Text.lines text.toList = before ++ line :: after)
    (hline : line.text = (ofMismatch (inBraces s) (inBraces o ++ "[]")).chars)
    (hsource : Quotable (inBraces s)) (hobject : Quotable (inBraces o)) :
    (∃ m : TypeMismatch, m.sourceType = inBraces s ∧ m.targetType = inBraces o ++ "[]" ∧
        m.isArrayMismatch = true ∧
        (reportedAs mode text (before ++ [line]) .typeMismatch).map (fun r => (r.path, r.problem)) =
          [((Nesting.after mode (before ++ [line])).path, .typeMismatch m)]) ↔
      ∀ p ∈ (ObjectLiteral.read (inBraces s).toList).properties,
        (LeavesOpen o.toList p.name ∨
          ∃ t ∈ (ObjectLiteral.read (inBraces o).toList).properties,
            t.name = p.name ∧ t.MentionsArray) → p.MentionsArray := by
  have hfields : Shape.typeMismatch.fields? line.text =
      some [inBraces s, inBraces o ++ "[]"] := by
    rw [hline]
    exact Message.fields?_ofMismatch hsource hobject.array
  have hreported := map_reportedAs (f := fun r => (r.path, r.problem)) (fun _ _ => rfl) mode hlines
    .typeMismatch
  rw [Text.Line.findingsAs_typeMismatch hfields, Finding.ofTypes_eq] at hreported
  rw [← Finding.textPairs_array_eq_nil_iff, hreported]
  constructor
  · rintro ⟨m, -, -, -, hsingle⟩
    by_contra hpairs
    -- a property is reported below the path of the line
    obtain ⟨pair, rest, hcons⟩ := List.exists_cons_of_ne_nil hpairs
    rw [if_neg hpairs, hcons] at hsingle
    have hpath := congrArg Prod.fst (List.cons.inj hsingle).1
    simp [Finding.recordAt, Shape.rule, Finding.ofPair] at hpath
  · intro hnone
    rw [if_pos hnone]
    refine ⟨_, rfl, rfl, TypeMismatch.isArrayMismatch_ofTypes s o, ?_⟩
    simp [Finding.recordAt, Shape.rule]

/-- The items of a nested property should be an array of objects. The last property of the objects
is left open at the brackets, but the source mentions an array there too. -/
def nestedItems : String :=
  "Types of property 'p' are incompatible.\n" ++
    "  Type '\x7b n: number; items: string[] \x7d' is not assignable to type " ++
    "'\x7b n: number; items: string \x7d[]'."

theorem array_expected_iff_nestedItems :
    let outer : Line := ⟨0, "Types of property 'p' are incompatible.".toList⟩
    let source := " n: number; items: string[] "
    let object := " n: number; items: string "
    let inner : Line := ⟨2, (ofMismatch (inBraces source) (inBraces object ++ "[]")).chars⟩
    Text.lines nestedItems.toList = [outer] ++ inner :: [] ∧
      Quotable (inBraces source) ∧ Quotable (inBraces object) ∧
      LeavesOpen object.toList "items" ∧
      ∃ m : TypeMismatch, m.sourceType = inBraces source ∧ m.targetType = inBraces object ++ "[]" ∧
        m.isArrayMismatch = true ∧
        (reportedAs .indented nestedItems ([outer] ++ [inner]) .typeMismatch).map
          (fun r => (r.path, r.problem)) = [(["p"], .typeMismatch m)] := by
  intro outer source object inner
  have hlines : Text.lines nestedItems.toList = [outer] ++ inner :: [] := by decide +kernel
  have hsource : Quotable (inBraces source) := by decide +kernel
  have hobject : Quotable (inBraces object) := by decide +kernel
  have hpath : (Nesting.after .indented ([outer] ++ [inner])).path = ["p"] := by decide +kernel
  have hopen : LeavesOpen object.toList "items" := by decide +kernel
  have hexpected := (array_expected_iff .indented hlines rfl hsource hobject).2 (by decide +kernel)
  rw [hpath] at hexpected
  exact ⟨hlines, hsource, hobject, hopen, hexpected⟩

/-- The property of an object type that is left open has got the brackets of the array: it is
reported with a fragment of the array type, and the types as a whole are not. -/
theorem array_of_open_object_split :
    (ofMismatch (inBraces " a: string ") (inBraces " a: string " ++ "[]")).text =
        "Type '\x7b a: string \x7d' is not assignable to type '\x7b a: string \x7d[]'." ∧
      (ofText .monotonic
          "Type '\x7b a: string \x7d' is not assignable to type '\x7b a: string \x7d[]'.").map
        (fun r => (r.path, r.problem)) =
        [(["a"], .typeMismatch (.array "string" "string \x7d[]"))] := by
  decide +kernel

end Record

end Diagnosis
