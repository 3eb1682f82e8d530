import Diagnosis.TypeText.Alignment

/-!
# Comparing two object types

What the comparison of two object types says about a name depends on what the types hold under the
name and on nothing else, and a row of their alignment says the same. So there is a difference, and
a row that shows one, if and only if the types hold values of different words under some name.
-/

namespace Diagnosis

/-- What an object type holds under a name, up to the blanks. -/
def ObjectType.words? (o : ObjectType) (name : String) : Option String :=
  (o.get? name).map fun p => Text.normalize p.valueType

namespace TypeText

theorem unionNames_eq (a b : TypeText) :
    a.unionNames b = Property.names a.properties ++
      (Property.names b.properties).filter (· ∉ Property.names a.properties) := by
  refine congrArg (Property.names a.properties ++ ·) (List.filter_congr fun n _ => ?_)
  rw [List.contains_eq_mem, decide_not]

theorem mem_unionNames {a b : TypeText} {name : String} :
    name ∈ a.unionNames b ↔
      (Property.get? a.properties name).isSome = true ∨
        (Property.get? b.properties name).isSome = true := by
  rw [Property.isSome_get?_iff, Property.isSome_get?_iff, unionNames_eq, List.mem_append,
    List.mem_filter, decide_eq_true_eq]
  constructor
  · exact Or.imp_right And.left
  · rintro (ha | hb)
    · exact Or.inl ha
    · by_cases ha : name ∈ Property.names a.properties
      · exact Or.inl ha
      · exact Or.inr ⟨hb, ha⟩

end TypeText

namespace Difference

theorem property?_of_atName? {s t : ObjectType} {name : String} {d : Difference}
    (h : atName? s t name = some d) : d.property? = some name := by
  unfold atName? at h
  grind [property?]

/-- Two object types do not differ at a name if they hold the same under it up to the blanks. -/
theorem atName?_eq_none_iff {s t : ObjectType} {name : String} :
    atName? s t name = none ↔ s.words? name = t.words? name := by
  unfold atName? ObjectType.words?
  cases s.get? name <;> cases t.get? name <;> simp

theorem ofTypes_object_eq_nil_iff (source target : String) {s t : ObjectType} :
    ofTypes source target (.object s) (.object t) = [] ↔ ∀ name, s.words? name = t.words? name := by
  simp only [ofTypes, List.filterMap_eq_nil_iff, atName?_eq_none_iff]
  constructor
  · intro h name
    by_cases hname : name ∈ TypeText.unionNames (.object s) (.object t)
    · exact h name hname
    · rw [TypeText.mem_unionNames, not_or, TypeText.get?_properties_object,
        TypeText.get?_properties_object] at hname
      have hs : s.get? name = none := Option.not_isSome_iff_eq_none.1 hname.1
      have ht : t.get? name = none := Option.not_isSome_iff_eq_none.1 hname.2
      unfold ObjectType.words?
      rw [hs, ht]
  · exact fun h name _ => h name

/-- The differences at names hold the one at a name of theirs where it is looked for. -/
theorem find?_filterMap_atName? (s t : ObjectType) {names : List String} {name : String}
    (h : name ∈ names) :
    (names.filterMap (atName? s t)).find? (fun d => d.property? == some name) =
      atName? s t name := by
  have hother : ∀ other d, atName? s t other = some d →
      (d.property? == some name) = (other == name) := by
    intro other d hd
    rw [property?_of_atName? hd]
    rfl
  cases hname : atName? s t name with
  | none =>
    rw [List.find?_eq_none]
    intro d hd
    obtain ⟨other, -, hother'⟩ := List.mem_filterMap.1 hd
    rw [hother other d hother']
    intro heq
    rw [eq_of_beq heq, hname] at hother'
    cases hother'
  | some d =>
    induction names with
    | nil => cases h
    | cons first rest ih =>
      by_cases heq : first = name
      · rw [heq, List.filterMap_cons_some hname, List.find?_cons_of_pos]
        rw [hother name d hname]
        exact beq_self_eq_true name
      · have hrest : name ∈ rest := (List.mem_cons.1 h).resolve_left (Ne.symm heq)
        cases hfirst : atName? s t first with
        | none => rw [List.filterMap_cons_none hfirst, ih hrest]
        | some d' =>
          rw [List.filterMap_cons_some hfirst, List.find?_cons_of_neg, ih hrest]
          rw [hother first d' hfirst]
          simpa using heq

end Difference

/-- What the properties of a name on the two sides tell about it. -/
def RowStatus.ofProperties : Option Property → Option Property → RowStatus
  | none, none => .ok
  | none, some _ => .missingInSource
  | some _, none => .extraInSource
  | some p, some q =>
    if Text.normalize p.valueType = Text.normalize q.valueType then .ok else .valueMismatch

namespace Alignment

open Difference (atName? ofTypes)

theorem status_objects {differences : List Difference} {s t : ObjectType} {name : String}
    (h : differences.find? (fun d => d.property? == some name) = atName? s t name) :
    status differences name (s.get? name) (t.get? name) =
      RowStatus.ofProperties (s.get? name) (t.get? name) := by
  unfold status
  rw [h]
  unfold atName?
  cases s.get? name with
  | none => cases t.get? name <;> rfl
  | some p =>
    cases t.get? name with
    | none => rfl
    | some q =>
      by_cases hwords : Text.normalize p.valueType = Text.normalize q.valueType
      · simp [RowStatus.ofProperties, hwords, presenceStatus]
      · simp [RowStatus.ofProperties, hwords]

theorem atName?_eq_none_iff_ofProperties {s t : ObjectType} {name : String} :
    atName? s t name = none ↔ RowStatus.ofProperties (s.get? name) (t.get? name) = .ok := by
  unfold atName? RowStatus.ofProperties
  cases s.get? name <;> cases t.get? name <;> simp

theorem status_eq_ok_iff {differences : List Difference} {s t : ObjectType} {name : String}
    (h : differences.find? (fun d => d.property? == some name) = atName? s t name) :
    status differences name (s.get? name) (t.get? name) = .ok ↔ atName? s t name = none := by
  rw [status_objects h, atName?_eq_none_iff_ofProperties]

/-- The alignment of two object types shows a difference if and only if the comparison finds one. -/
theorem hasDifferences_between_objects {source target : String} {s t : ObjectType}
    (hs : TypeText.ofString source = .object s) (ht : TypeText.ofString target = .object t) :
    (between source target).hasDifferences = true ↔ Difference.between source target ≠ [] := by
  have hnames : (∃ name ∈ TypeText.unionNames (.object s) (.object t), atName? s t name ≠ none) ↔
      Difference.between source target ≠ [] := by
    simp only [Difference.between, hs, ht, ofTypes, Ne, List.filterMap_eq_nil_iff,
      Classical.not_forall, exists_prop]
  rw [← hnames, between, hs, ht]
  simp only [hasDifferences, List.any_map, List.any_eq_true, Function.comp_apply, row,
    bne_iff_ne]
  refine exists_congr fun name => and_congr_right fun hname => not_congr ?_
  rw [TypeText.get?_properties_object, TypeText.get?_properties_object]
  exact status_eq_ok_iff (Difference.find?_filterMap_atName? s t hname)

end Alignment

end Diagnosis
