import Diagnosis.Proofs.Comparison

/-!
# The comparison and the alignment

The comparison of two types and their alignment both tell whether the types differ, but not from the
same facts. A difference in structure, an object type against a type that is none, belongs to no
property. The alignment has rows for properties only, and in a row the presence of the property on
one side stands for such a difference.

So the two agree on all pairs of types but one sort: where an object type without properties stands
against a type that is none, there is no row to show the difference in
(`Alignment.agrees_with_comparison_iff`).
-/

namespace Diagnosis

/-- Whether one type is an object type and the other is not, and no property tells them apart. -/
def TypeText.DiffersInStructureOnly (source target : TypeText) : Prop :=
  source.isObject ≠ target.isObject ∧ source.properties = [] ∧ target.properties = []

namespace TypeText

theorem unionNames_eq_nil_iff {a b : TypeText} :
    a.unionNames b = [] ↔ a.properties = [] ∧ b.properties = [] := by
  rw [unionNames, List.append_eq_nil_iff, List.map_eq_nil_iff]
  refine and_congr_right fun ha => ?_
  simp [ha, List.eq_nil_iff_forall_not_mem]

/-- If only one of two types is an object type, each name of theirs is on one side only. -/
theorem isSome_get?_ne_of_mem_unionNames {a b : TypeText} (h : a.isObject ≠ b.isObject)
    {name : String} (hname : name ∈ a.unionNames b) :
    (Property.get? a.properties name).isSome ≠ (Property.get? b.properties name).isSome := by
  have hnone : Property.get? [] name = none := rfl
  cases a with
  | primitive s =>
    cases b with
    | primitive t => exact absurd rfl h
    | object t =>
      have ht : name ∈ Property.names t.properties := by simpa [unionNames, properties] using hname
      simp [properties, hnone, Property.isSome_get?_iff.2 ht]
  | object s =>
    cases b with
    | primitive t =>
      have hs : name ∈ Property.names s.properties := by simpa [unionNames, properties] using hname
      simp [properties, hnone, Property.isSome_get?_iff.2 hs]
    | object t => exact absurd rfl h

end TypeText

namespace Difference

theorem ofTypes_of_isObject_ne (sourceText targetText : String) {source target : TypeText}
    (h : source.isObject ≠ target.isObject) :
    ofTypes sourceText targetText source target = [structureMismatch sourceText targetText] := by
  cases source <;> cases target <;> first
    | rfl
    | exact absurd rfl h

end Difference

namespace Alignment

theorem presenceStatus_eq_ok_iff {source target : Option Property} :
    presenceStatus source target = .ok ↔ source.isSome = target.isSome := by
  cases source <;> cases target <;> simp [presenceStatus]

/-- A difference in structure leaves it to the presence of a property what its row says. -/
theorem status_structureMismatch (sourceText targetText name : String)
    (source target : Option Property) :
    status [.structureMismatch sourceText targetText] name source target =
      presenceStatus source target := rfl

theorem between_of_isObject_ne {source target : String}
    (h : (TypeText.ofString source).isObject ≠ (TypeText.ofString target).isObject) :
    between source target =
      .object (((TypeText.ofString source).unionNames (.ofString target)).map
        (row [.structureMismatch source target] (.ofString source) (.ofString target))) := by
  rw [← Difference.ofTypes_of_isObject_ne source target h, between]
  split
  · next hs ht =>
    rw [hs, ht] at h
    exact absurd rfl h
  · rfl

/-- Of two types that differ in structure the alignment shows a difference if and only if there is a
property to show it in. -/
theorem hasDifferences_between_of_isObject_ne {source target : String}
    (h : (TypeText.ofString source).isObject ≠ (TypeText.ofString target).isObject) :
    (between source target).hasDifferences = true ↔
      (TypeText.ofString source).unionNames (.ofString target) ≠ [] := by
  have hrow : ∀ name ∈ (TypeText.ofString source).unionNames (.ofString target),
      ((row [.structureMismatch source target] (.ofString source) (.ofString target) name).status
        != .ok) = true := by
    intro name hname
    rw [bne_iff_ne, row, status_structureMismatch, Ne, presenceStatus_eq_ok_iff]
    exact TypeText.isSome_get?_ne_of_mem_unionNames h hname
  rw [between_of_isObject_ne h, hasDifferences, List.any_map, List.any_eq_true]
  constructor
  · rintro ⟨name, hname, -⟩ hnil
    rw [hnil] at hname
    cases hname
  · intro hne
    obtain ⟨name, rest, hnames⟩ := List.exists_cons_of_ne_nil hne
    have hname : name ∈ (TypeText.ofString source).unionNames (.ofString target) := by
      rw [hnames]
      exact List.mem_cons_self
    exact ⟨name, hname, hrow name hname⟩

theorem hasDifferences_between_primitives {source target s t : String}
    (hs : TypeText.ofString source = .primitive s) (ht : TypeText.ofString target = .primitive t) :
    (between source target).hasDifferences = true ↔ Difference.between source target ≠ [] := by
  rw [between, Difference.between, hs, ht]
  by_cases heq : s = t <;> simp [hasDifferences, Difference.ofTypes, heq]

/-- The alignment of two types shows a difference if and only if the comparison finds one, unless
one of the types is an object type without properties and the other one is no object type. -/
theorem agrees_with_comparison_iff (source target : String) :
    ((between source target).hasDifferences = true ↔ Difference.between source target ≠ []) ↔
      ¬ (TypeText.ofString source).DiffersInStructureOnly (.ofString target) := by
  by_cases h : (TypeText.ofString source).isObject = (TypeText.ofString target).isObject
  -- types of one sort have no difference in structure, so both answers come from the same facts
  · refine iff_of_true ?_ fun honly => honly.1 h
    cases hs : TypeText.ofString source with
    | primitive s =>
      cases ht : TypeText.ofString target with
      | primitive t => exact hasDifferences_between_primitives hs ht
      | object t =>
        rw [hs, ht] at h
        cases h
    | object s =>
      cases ht : TypeText.ofString target with
      | primitive t =>
        rw [hs, ht] at h
        cases h
      | object t => exact hasDifferences_between_objects hs ht
  · have hcomparison : Difference.between source target ≠ [] := by
      rw [Difference.between, Difference.ofTypes_of_isObject_ne source target h]
      exact List.cons_ne_nil _ _
    rw [iff_true_right hcomparison, hasDifferences_between_of_isObject_ne h, Ne,
      TypeText.unionNames_eq_nil_iff, TypeText.DiffersInStructureOnly]
    exact not_congr (and_iff_right h).symm

/-- An object type without properties differs from every type that is no object type, but their
alignment has no row. -/
theorem empty_object_against_primitive :
    ¬ ((between "\x7b\x7d" "string").hasDifferences = true ↔
      Difference.between "\x7b\x7d" "string" ≠ []) := by
  decide +kernel

end Alignment

end Diagnosis
