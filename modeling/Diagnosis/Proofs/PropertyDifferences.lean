import Diagnosis.Proofs.Comparison
import Diagnosis.Proofs.Words
import Mathlib.Data.List.Nodup
import Mathlib.Data.Option.Basic

/-!
# The differences between two types, told by their properties

A comparison of object types goes through the names of both and looks each of them up on both
sides. Here its result is described without any look-up: which differences there are is told by the
properties that each side has, and the order of the differences by the order of the properties
(`Difference.Tells`). Names are looked up safely because no name stands twice in an object type.
-/

namespace Diagnosis

/-! ## Properties by name -/

namespace Property

theorem get?_eq_some_iff {ps : List Property} (h : (names ps).Nodup) {n : String} {p : Property} :
    get? ps n = some p ↔ p ∈ ps ∧ p.name = n := by
  constructor
  · intro hget
    exact ⟨List.mem_of_find?_eq_some hget, name_of_get?_eq_some hget⟩
  · rintro ⟨hmem, rfl⟩
    obtain ⟨q, hq⟩ := Option.isSome_iff_exists.1 (isSome_get?_iff.2 (List.mem_map_of_mem hmem))
    have hqmem : q ∈ ps := List.mem_of_find?_eq_some hq
    rw [hq, List.inj_on_of_nodup_map h hqmem hmem (name_of_get?_eq_some hq)]

theorem get?_eq_none_iff {ps : List Property} {n : String} : get? ps n = none ↔ n ∉ names ps := by
  rw [← isSome_get?_iff, Option.not_isSome_iff_eq_none]

end Property

namespace TypeText

theorem nodup_names (a : TypeText) : (Property.names a.properties).Nodup := by
  cases a with
  | primitive text => exact List.nodup_nil
  | object type => exact type.nodup

/-- No name of two types is listed twice, for the second one adds new names only. -/
theorem nodup_unionNames (a b : TypeText) : (a.unionNames b).Nodup := by
  refine List.nodup_append.2 ⟨a.nodup_names, b.nodup_names.filter _, ?_⟩
  intro n hn m hm heq
  have hnew := (List.mem_filter.1 hm).2
  rw [← heq] at hnew
  simp [hn] at hnew

theorem eq_trim_of_ofString_eq_primitive {s text : String} (h : ofString s = .primitive text) :
    text = Text.trim s := by
  unfold ofString at h
  split at h
  · cases h
  · exact (TypeText.primitive.inj h).symm

end TypeText

/-- Whether an object type has a property of a name whose value has a type. -/
def ObjectType.Holds (o : ObjectType) (name valueType : String) : Prop :=
  ∃ p ∈ o.properties, p.name = name ∧ p.valueType = valueType

theorem ObjectType.holds_iff {o : ObjectType} {name valueType : String} :
    o.Holds name valueType ↔ ∃ p, o.get? name = some p ∧ p.valueType = valueType := by
  unfold Holds
  simp only [get?_eq, Property.get?_eq_some_iff o.nodup]
  constructor
  · rintro ⟨p, hp, hname, hvalue⟩
    exact ⟨p, ⟨hp, hname⟩, hvalue⟩
  · rintro ⟨p, ⟨hp, hname⟩, hvalue⟩
    exact ⟨p, hp, hname, hvalue⟩

theorem ObjectType.not_mem_names_iff {o : ObjectType} {name : String} :
    name ∉ o.names ↔ o.get? name = none := by
  rw [get?_eq]
  exact Property.get?_eq_none_iff.symm

/-! ## The differences of object types -/

namespace Difference

/-- What a list of differences tells about two object types. -/
structure Tells (s t : ObjectType) (differences : List Difference) : Prop where
  /-- The properties come in the order of the source, and those of the target alone follow in its
  order. -/
  ordered : (differences.map property?).Sublist
    ((s.names ++ t.names.filter (· ∉ s.names)).map some)
  /-- No property has two differences. -/
  nodup : (differences.map property?).Nodup
  /-- The properties that the source lacks are told with the target's value. -/
  missingInSource_iff (name expected : String) :
    missingInSource name expected ∈ differences ↔ name ∉ s.names ∧ t.Holds name expected
  /-- The properties that the target lacks are told with the source's value. -/
  extraInSource_iff (name actual : String) :
    extraInSource name actual ∈ differences ↔ s.Holds name actual ∧ name ∉ t.names
  /-- The properties of both are told, with both values, if the values differ in their words. -/
  valueMismatch_iff (name actual expected : String) :
    valueMismatch name actual expected ∈ differences ↔
      s.Holds name actual ∧ t.Holds name expected ∧
        Text.words actual.toList ≠ Text.words expected.toList

variable {s t : ObjectType}

theorem map_property?_filterMap_atName? (s t : ObjectType) (names : List String) :
    (names.filterMap (atName? s t)).map property? =
      (names.filter fun n => (atName? s t n).isSome).map some := by
  induction names with
  | nil => rfl
  | cons n rest ih =>
    cases hn : atName? s t n with
    | none => rw [List.filterMap_cons_none hn, ih, List.filter_cons_of_neg (by simp [hn])]
    | some d =>
      rw [List.filterMap_cons_some hn, List.map_cons, ih, property?_of_atName? hn,
        List.filter_cons_of_pos (by simp [hn]), List.map_cons]

theorem mem_ofTypes_objects_iff {sourceText targetText : String} {d : Difference} :
    d ∈ ofTypes sourceText targetText (.object s) (.object t) ↔ ∃ n, atName? s t n = some d := by
  rw [ofTypes, List.mem_filterMap]
  constructor
  · rintro ⟨n, -, hn⟩
    exact ⟨n, hn⟩
  · rintro ⟨n, hn⟩
    refine ⟨n, ?_, hn⟩
    by_contra hnone
    rw [TypeText.mem_unionNames, not_or, TypeText.get?_properties_object,
      TypeText.get?_properties_object] at hnone
    have hs : s.get? n = none := Option.not_isSome_iff_eq_none.1 hnone.1
    have ht : t.get? n = none := Option.not_isSome_iff_eq_none.1 hnone.2
    rw [atName?, hs, ht] at hn
    cases hn

theorem atName?_eq_missingInSource_iff {n name expected : String} :
    atName? s t n = some (missingInSource name expected) ↔
      n = name ∧ name ∉ s.names ∧ t.Holds name expected := by
  rw [ObjectType.not_mem_names_iff, ObjectType.holds_iff]
  unfold atName?
  constructor
  · intro h
    split at h <;> grind
  · rintro ⟨rfl, hs, q, ht, rfl⟩
    rw [hs, ht]

theorem atName?_eq_extraInSource_iff {n name actual : String} :
    atName? s t n = some (extraInSource name actual) ↔
      n = name ∧ s.Holds name actual ∧ name ∉ t.names := by
  rw [ObjectType.not_mem_names_iff, ObjectType.holds_iff]
  unfold atName?
  constructor
  · intro h
    split at h <;> grind
  · rintro ⟨rfl, ⟨p, hs, rfl⟩, ht⟩
    rw [hs, ht]

theorem atName?_eq_valueMismatch_iff {n name actual expected : String} :
    atName? s t n = some (valueMismatch name actual expected) ↔
      n = name ∧ s.Holds name actual ∧ t.Holds name expected ∧
        Text.words actual.toList ≠ Text.words expected.toList := by
  rw [ObjectType.holds_iff, ObjectType.holds_iff]
  simp only [Ne, ← Text.normalize_eq_iff]
  unfold atName?
  constructor
  · intro h
    split at h <;> grind
  · rintro ⟨rfl, ⟨p, hs, rfl⟩, ⟨q, ht, rfl⟩, hwords⟩
    rw [hs, ht]
    exact if_neg hwords

theorem tells_ofTypes_objects (sourceText targetText : String) (s t : ObjectType) :
    Tells s t (ofTypes sourceText targetText (.object s) (.object t)) := by
  have hnames : TypeText.unionNames (.object s) (.object t) =
      s.names ++ t.names.filter (· ∉ s.names) := TypeText.unionNames_eq _ _
  have hordered : ((ofTypes sourceText targetText (.object s) (.object t)).map property?).Sublist
      ((s.names ++ t.names.filter (· ∉ s.names)).map some) := by
    rw [← hnames, ofTypes, map_property?_filterMap_atName?]
    exact List.filter_sublist.map some
  refine
    { ordered := hordered
      nodup := ?_
      missingInSource_iff := ?_
      extraInSource_iff := ?_
      valueMismatch_iff := ?_ }
  · have hunion := TypeText.nodup_unionNames (.object s) (.object t)
    rw [hnames] at hunion
    exact hordered.nodup (hunion.map (Option.some_injective _))
  · intro name expected
    simp only [mem_ofTypes_objects_iff, atName?_eq_missingInSource_iff, exists_eq_left]
  · intro name actual
    simp only [mem_ofTypes_objects_iff, atName?_eq_extraInSource_iff, exists_eq_left]
  · intro name actual expected
    simp only [mem_ofTypes_objects_iff, atName?_eq_valueMismatch_iff, exists_eq_left]

/-- Two object types have the differences that their properties tell, no others, in the order of the
properties. Two types that are no object types differ if their texts do, blanks at the ends aside,
and then have one difference with these texts. An object type and a type that is none have one
difference with the whole texts. -/
theorem between_tells_properties (source target : String) :
    match TypeText.ofString source, TypeText.ofString target with
    | .object s, .object t => Tells s t (between source target)
    | .primitive s, .primitive t =>
      s = Text.trim source ∧ t = Text.trim target ∧
        between source target = if s = t then [] else [primitiveMismatch s t]
    | _, _ => between source target = [structureMismatch source target] := by
  unfold between
  cases hs : TypeText.ofString source with
  | primitive s =>
    cases ht : TypeText.ofString target with
    | primitive t =>
      have hsource := TypeText.eq_trim_of_ofString_eq_primitive hs
      have htarget := TypeText.eq_trim_of_ofString_eq_primitive ht
      exact ⟨hsource, htarget, rfl⟩
    | object t => rfl
  | object s =>
    cases ht : TypeText.ofString target with
    | primitive t => rfl
    | object t => exact tells_ofTypes_objects source target s t

end Difference

end Diagnosis
