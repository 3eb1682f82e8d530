import Diagnosis.Proofs.LineReport
import Diagnosis.Proofs.Parts
import Diagnosis.Proofs.PropertyDifferences

/-!
# Properties of which only the target is an array

A line that two object types do not fit together is looked into. A property of the source that the
target has as well, and of which only the target's type mentions an array, is reported below the
path of the line. Here these properties are told without any look-up, by membership alone
(`ObjectType.ArrayExpected`), and it is shown what the line reports. If there are such properties
they are reported one by one, in the order of the source and none of them twice, and nothing is
reported about the types as a whole; if there are none the types are reported once, at the path of
the line (`Record.typeMismatch_reported_by_property`).
-/

namespace Diagnosis

open Text (Line)

/-! ## Pairs of properties -/

/-- Whether the type of a property mentions an array. -/
def Property.MentionsArray (p : Property) : Prop := "[]".toList <:+: p.valueType.toList

instance (p : Property) : Decidable p.MentionsArray :=
  inferInstanceAs (Decidable ("[]".toList <:+: p.valueType.toList))

theorem Property.mentionsArray_iff {p : Property} :
    p.MentionsArray ↔ Text.contains p.valueType "[]" = true := Text.occursIn_iff.symm

/-- Whether a property of a source type meets a property of its name in a target type and only the
type of the latter mentions an array. -/
structure ObjectType.ArrayExpected (source target : ObjectType) (s t : Property) : Prop where
  source_mem : s ∈ source.properties
  target_mem : t ∈ target.properties
  name_eq : t.name = s.name
  target_mentions : t.MentionsArray
  source_not_mentions : ¬ s.MentionsArray

namespace Finding

/-- A property of a source type, and the one of its name in a target type if only the type of that
one mentions an array. -/
def arrayPair? (target : ObjectType) (s : Property) : Option (Property × Property) :=
  (target.get? s.name).bind fun t =>
    if t.MentionsArray ∧ ¬ s.MentionsArray then some (s, t) else none

/-- The finding on two properties of a name of which only the second one is an array. -/
def ofPair (p : Property × Property) : Finding :=
  ⟨some p.1.name, .typeMismatch (.array p.1.valueType p.2.valueType)⟩

theorem arrayMismatch?_eq (target : ObjectType) (s : Property) :
    arrayMismatch? target s = (arrayPair? target s).map ofPair := by
  unfold arrayMismatch? arrayPair?
  cases target.get? s.name with
  | none => rfl
  | some t =>
    -- a type that mentions an array is not empty
    have hempty : t.MentionsArray → t.valueType.isEmpty = false := by
      intro h
      rw [Bool.eq_false_iff]
      intro hnil
      rw [Property.MentionsArray, String.isEmpty_iff.1 hnil] at h
      exact absurd (List.eq_nil_of_infix_nil h) (by decide)
    by_cases ht : t.MentionsArray
    · by_cases hs : s.MentionsArray
      · simp [hs, Property.mentionsArray_iff.1 hs]
      · have hs' := mt Property.mentionsArray_iff.2 hs
        simp [ht, hs, hempty ht, Property.mentionsArray_iff.1 ht, hs', ofPair]
    · have ht' := mt Property.mentionsArray_iff.2 ht
      simp [ht, ht']

/-- The pairs that the array mismatches of two types are about. -/
def arrayPairs (source target : ObjectType) : List (Property × Property) :=
  source.properties.filterMap (arrayPair? target)

variable {source target : ObjectType} {s t : Property}

theorem arrayPair?_eq_some_iff {p : Property × Property} :
    arrayPair? target s = some p ↔
      p.1 = s ∧ p.2 ∈ target.properties ∧ p.2.name = s.name ∧ p.2.MentionsArray ∧
        ¬ s.MentionsArray := by
  obtain ⟨q, t⟩ := p
  have hget (u : Property) :
      target.get? s.name = some u ↔ u ∈ target.properties ∧ u.name = s.name := by
    rw [ObjectType.get?_eq, Property.get?_eq_some_iff target.nodup]
  simp only [arrayPair?, Option.bind_eq_some_iff, hget, Option.ite_none_right_eq_some,
    Option.some.injEq, Prod.mk.injEq]
  constructor
  · rintro ⟨u, ⟨hmem, hname⟩, harrays, rfl, rfl⟩
    exact ⟨rfl, hmem, hname, harrays⟩
  · rintro ⟨rfl, hmem, hname, harrays⟩
    exact ⟨t, ⟨hmem, hname⟩, harrays, rfl, rfl⟩

theorem mem_arrayPairs_iff :
    (s, t) ∈ arrayPairs source target ↔ source.ArrayExpected target s t := by
  simp only [arrayPairs, List.mem_filterMap, arrayPair?_eq_some_iff]
  constructor
  · rintro ⟨s', hs, rfl, ht, hname, htarget, hsource⟩
    exact ⟨hs, ht, hname, htarget, hsource⟩
  · rintro ⟨hs, ht, hname, htarget, hsource⟩
    exact ⟨s, hs, rfl, ht, hname, htarget, hsource⟩

/-- The pairs stand in the order of the source. -/
theorem map_fst_arrayPairs_sublist (source target : ObjectType) :
    ((arrayPairs source target).map Prod.fst).Sublist source.properties := by
  unfold arrayPairs
  induction source.properties with
  | nil => exact List.Sublist.slnil
  | cons s rest ih =>
    cases hpair : arrayPair? target s with
    | none =>
      rw [List.filterMap_cons_none hpair]
      exact ih.cons s
    | some p =>
      rw [List.filterMap_cons_some hpair, List.map_cons, (arrayPair?_eq_some_iff.1 hpair).1]
      exact ih.cons_cons s

/-- The pairs that the array mismatches of two texts are about; there are none unless both texts
open with a brace. -/
def textPairs (source target : String) : List (Property × Property) :=
  if ['{'] <+: source.toList ∧ ['{'] <+: target.toList then
    arrayPairs (ObjectLiteral.read source.toList) (ObjectLiteral.read target.toList)
  else []

theorem mem_textPairs_iff {source target : String} :
    (s, t) ∈ textPairs source target ↔
      (['{'] <+: source.toList ∧ ['{'] <+: target.toList) ∧
        (ObjectLiteral.read source.toList).ArrayExpected
          (ObjectLiteral.read target.toList) s t := by
  unfold textPairs
  split
  · next hbraces => rw [mem_arrayPairs_iff, and_iff_right hbraces]
  · next hbraces => simp [hbraces]

theorem arrayMismatches_eq (source target : String) :
    arrayMismatches source target = (textPairs source target).map ofPair := by
  unfold arrayMismatches textPairs arrayPairs
  simp only [Bool.and_eq_true, List.isPrefixOf_iff_prefix]
  split
  · rw [List.map_filterMap]
    exact List.filterMap_congr fun s _ => arrayMismatch?_eq _ s
  · rfl

theorem ofTypes_eq (source target : String) :
    ofTypes source target =
      if textPairs source target = [] then [{ problem := .typeMismatch (.ofTypes source target) }]
      else (textPairs source target).map ofPair := by
  unfold ofTypes
  rw [arrayMismatches_eq]
  cases textPairs source target <;> rfl

end Finding

/-! ## What the line reports -/

namespace Text.Line

variable {line : Line} {source target : String}

theorem findingsAs_typeMismatch (h : Shape.typeMismatch.fields? line.text = some [source, target]) :
    line.findingsAs .typeMismatch = Finding.ofTypes source target := by
  have hcontribution : Shape.typeMismatch.contribution? line.text =
      some (.report (Finding.ofTypes source target)) := by
    rw [Shape.contribution?, h]
    rfl
  rw [findingsAs, hcontribution]

end Text.Line

/-- Let a line of a text say that a source type is not assignable to a target type. The pairs of a
property of the source and one of its name in the target of which only the latter mentions an array,
provided that both texts open with a brace, stand in the order of the source, and no property of the
source is in two of them. If there are any, the line reports as one of its shape the array mismatch
of each pair, below the path that it has reached and under the name of the pair; otherwise it
reports the two types once, at that path. -/
theorem Record.typeMismatch_reported_by_property (mode : PathMode) {text : String}
    {before after : List Line} {line : Line}
    (hlines : Text.lines text.toList = before ++ line :: after) {source target : String}
    (hfields : Shape.typeMismatch.fields? line.text = some [source, target]) :
    ∃ pairs : List (Property × Property),
      (∀ s t, (s, t) ∈ pairs ↔
        (['{'] <+: source.toList ∧ ['{'] <+: target.toList) ∧
          (ObjectLiteral.read source.toList).ArrayExpected
            (ObjectLiteral.read target.toList) s t) ∧
      (pairs.map Prod.fst).Sublist (ObjectLiteral.read source.toList).properties ∧
      (Property.names (pairs.map Prod.fst)).Nodup ∧
      (reportedAs mode text (before ++ [line]) .typeMismatch).map (fun r => (r.path, r.problem)) =
        let path := (Nesting.after mode (before ++ [line])).path
        if pairs = [] then [(path, .typeMismatch (.ofTypes source target))]
        else pairs.map fun p =>
          (path ++ [p.1.name], .typeMismatch (.array p.1.valueType p.2.valueType)) := by
  have hreported := map_reportedAs (f := fun r => (r.path, r.problem)) (fun _ _ => rfl) mode hlines
    .typeMismatch
  rw [Text.Line.findingsAs_typeMismatch hfields, Finding.ofTypes_eq] at hreported
  have hsublist : ((Finding.textPairs source target).map Prod.fst).Sublist
      (ObjectLiteral.read source.toList).properties := by
    unfold Finding.textPairs
    split
    · exact Finding.map_fst_arrayPairs_sublist _ _
    · exact List.nil_sublist _
  refine ⟨Finding.textPairs source target, fun s t => Finding.mem_textPairs_iff, hsublist,
    (hsublist.map Property.name).nodup (ObjectLiteral.read source.toList).nodup, ?_⟩
  rw [hreported]
  split
  · simp [Finding.recordAt, Shape.rule]
  · simp [Finding.recordAt, Shape.rule, Finding.ofPair]

/-- A diagnostic on a nested property, two properties of which should be arrays. The target lists
them in another order, and a third one is an array on both sides. -/
def nestedArrays : String :=
  "Types of property 'p' are incompatible.\n" ++
    "  Type '\x7b a: X; b: Y; c: Z[] \x7d' is not assignable to type " ++
    "'\x7b b: Y[]; c: W[]; a: X[] \x7d'."

theorem Record.typeMismatch_reported_by_property_nested :
    let outer : Line := ⟨0, "Types of property 'p' are incompatible.".toList⟩
    let inner : Line := ⟨2, ("Type '\x7b a: X; b: Y; c: Z[] \x7d' is not assignable to type " ++
      "'\x7b b: Y[]; c: W[]; a: X[] \x7d'.").toList⟩
    Text.lines nestedArrays.toList = [outer] ++ inner :: [] ∧
      Shape.typeMismatch.fields? inner.text =
        some ["\x7b a: X; b: Y; c: Z[] \x7d", "\x7b b: Y[]; c: W[]; a: X[] \x7d"] ∧
      ∃ pairs : List (Property × Property),
        (⟨"a", false, "X"⟩, ⟨"a", false, "X[]"⟩) ∈ pairs ∧
        (⟨"c", false, "Z[]"⟩, ⟨"c", false, "W[]"⟩) ∉ pairs ∧
        (reportedAs .indented nestedArrays ([outer] ++ [inner]) .typeMismatch).map
            (fun r => (r.path, r.problem)) =
          pairs.map fun p =>
            (["p", p.1.name], .typeMismatch (.array p.1.valueType p.2.valueType)) := by
  intro outer inner
  have hlines : Text.lines nestedArrays.toList = [outer] ++ inner :: [] := by decide +kernel
  have hfields : Shape.typeMismatch.fields? inner.text =
      some ["\x7b a: X; b: Y; c: Z[] \x7d", "\x7b b: Y[]; c: W[]; a: X[] \x7d"] := by
    decide +kernel
  have hpath : (Nesting.after .indented ([outer] ++ [inner])).path = ["p"] := by decide +kernel
  obtain ⟨pairs, hpairs, -, -, hreported⟩ :=
    typeMismatch_reported_by_property .indented hlines hfields
  have ha : (⟨"a", false, "X"⟩, ⟨"a", false, "X[]"⟩) ∈ pairs :=
    (hpairs _ _).2 ⟨by decide +kernel, ⟨by decide +kernel, by decide +kernel, rfl,
      by decide +kernel, by decide +kernel⟩⟩
  have hc : (⟨"c", false, "Z[]"⟩, ⟨"c", false, "W[]"⟩) ∉ pairs := fun hmem =>
    ((hpairs _ _).1 hmem).2.source_not_mentions (by decide +kernel)
  refine ⟨hlines, hfields, pairs, ha, hc, ?_⟩
  rw [hreported, hpath]
  exact if_neg (List.ne_nil_of_mem ha)

end Diagnosis
