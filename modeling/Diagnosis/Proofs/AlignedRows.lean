import Diagnosis.Proofs.Agreement
import Diagnosis.Proofs.PropertyDifferences

/-!
# The rows of an alignment

A row takes what it says from the differences of the whole types, where it looks for one at its
name, and from the presence of its property if there is none. Both ways come to the same: a row says
what the properties of its name on the two sides tell (`RowStatus.ofProperties`). So the rows can be
described by the properties alone (`AlignedRow.Describes`), and the rows that show a difference are
the differences of the types over again.
-/

namespace Diagnosis

/-- What a difference shows in the row of its property. -/
def Difference.entry? : Difference → Option (String × RowStatus)
  | missingInSource property _ => some (property, .missingInSource)
  | extraInSource property _ => some (property, .extraInSource)
  | valueMismatch property _ _ => some (property, .valueMismatch)
  | structureMismatch _ _ | primitiveMismatch _ _ => none

/-- What a row has to say about its property when these are the properties of the two types. -/
structure AlignedRow.Describes (source target : List Property) (row : AlignedRow) : Prop where
  missingInSource_iff : row.status = .missingInSource ↔ row.property ∉ Property.names source
  extraInSource_iff : row.status = .extraInSource ↔ row.property ∉ Property.names target
  valueMismatch_iff : row.status = .valueMismatch ↔
    ∃ p ∈ source, ∃ q ∈ target, p.name = row.property ∧ q.name = row.property ∧
      Text.words p.valueType.toList ≠ Text.words q.valueType.toList
  ok_iff : row.status = .ok ↔
    ∃ p ∈ source, ∃ q ∈ target, p.name = row.property ∧ q.name = row.property ∧
      Text.words p.valueType.toList = Text.words q.valueType.toList
  sourceDisplay_own (p : Property) :
    p ∈ source → p.name = row.property →
      row.sourceDisplay = p.name ++ (if p.optional then "?" else "") ++ ": " ++ p.valueType
  sourceDisplay_other (q : Property) :
    row.property ∉ Property.names source → q ∈ target → q.name = row.property →
      row.sourceDisplay = q.name ++ (if q.optional then "?" else "") ++ ": " ++ "(missing)"
  targetDisplay_own (q : Property) :
    q ∈ target → q.name = row.property →
      row.targetDisplay = q.name ++ (if q.optional then "?" else "") ++ ": " ++ q.valueType
  targetDisplay_other (p : Property) :
    row.property ∉ Property.names target → p ∈ source → p.name = row.property →
      row.targetDisplay = p.name ++ (if p.optional then "?" else "") ++ ": " ++ "(extra)"

/-- Both sides have a property of a name if one is found on both. -/
theorem Property.exists_both_iff {source target : List Property} (hs : (names source).Nodup)
    (ht : (names target).Nodup) {name : String} {r : Property → Property → Prop} :
    (∃ p ∈ source, ∃ q ∈ target, p.name = name ∧ q.name = name ∧ r p q) ↔
      ∃ p q, get? source name = some p ∧ get? target name = some q ∧ r p q := by
  simp only [get?_eq_some_iff hs, get?_eq_some_iff ht]
  constructor
  · rintro ⟨p, hp, q, hq, hpname, hqname, hr⟩
    exact ⟨p, q, ⟨hp, hpname⟩, ⟨hq, hqname⟩, hr⟩
  · rintro ⟨p, q, ⟨hp, hpname⟩, ⟨hq, hqname⟩, hr⟩
    exact ⟨p, hp, q, hq, hpname, hqname, hr⟩

namespace RowStatus

variable {source target : Option Property}

theorem ofProperties_eq_missingInSource_iff :
    ofProperties source target = .missingInSource ↔ source = none ∧ target.isSome = true := by
  unfold ofProperties
  split <;> grind

theorem ofProperties_eq_extraInSource_iff :
    ofProperties source target = .extraInSource ↔ target = none ∧ source.isSome = true := by
  unfold ofProperties
  split <;> grind

theorem ofProperties_eq_valueMismatch_iff :
    ofProperties source target = .valueMismatch ↔
      ∃ p q, source = some p ∧ target = some q ∧
        Text.words p.valueType.toList ≠ Text.words q.valueType.toList := by
  simp only [Ne, ← Text.normalize_eq_iff]
  unfold ofProperties
  split <;> grind

theorem ofProperties_eq_ok_iff :
    ofProperties source target = .ok ↔
      source = none ∧ target = none ∨
        ∃ p q, source = some p ∧ target = some q ∧
          Text.words p.valueType.toList = Text.words q.valueType.toList := by
  simp only [← Text.normalize_eq_iff]
  unfold ofProperties
  split <;> grind

end RowStatus

namespace Alignment

open Difference (atName? ofTypes)

/-! ## What a row says -/

/-- Presence tells enough if the two sides do not both have the property. -/
theorem presenceStatus_eq {source target : Option Property} (h : source = none ∨ target = none) :
    presenceStatus source target = RowStatus.ofProperties source target := by
  rcases h with rfl | rfl
  · cases target <;> rfl
  · cases source <;> rfl

theorem status_ofTypes (sourceText targetText : String) {a b : TypeText}
    (h : a.isObject = true ∨ b.isObject = true) {name : String} (hname : name ∈ a.unionNames b) :
    status (ofTypes sourceText targetText a b) name (Property.get? a.properties name)
        (Property.get? b.properties name) =
      RowStatus.ofProperties (Property.get? a.properties name)
        (Property.get? b.properties name) := by
  cases a with
  | primitive s =>
    cases b with
    | primitive t => simp [TypeText.isObject] at h
    -- a difference in structure has no property, and one side has none either
    | object t =>
      exact (status_structureMismatch sourceText targetText name _ _).trans
        (presenceStatus_eq (Or.inl rfl))
  | object s =>
    cases b with
    | primitive t =>
      exact (status_structureMismatch sourceText targetText name _ _).trans
        (presenceStatus_eq (Or.inr rfl))
    | object t =>
      rw [TypeText.get?_properties_object, TypeText.get?_properties_object]
      exact status_objects (Difference.find?_filterMap_atName? s t hname)

/-- The row of a name of two types describes its property. -/
theorem describes_row (sourceText targetText : String) {a b : TypeText}
    (h : a.isObject = true ∨ b.isObject = true) {name : String} (hname : name ∈ a.unionNames b) :
    (row (ofTypes sourceText targetText a b) a b name).Describes a.properties b.properties := by
  have hstatus := status_ofTypes sourceText targetText h hname
  have hunion := TypeText.mem_unionNames.1 hname
  have hsource (p : Property) := Property.get?_eq_some_iff a.nodup_names (n := name) (p := p)
  have htarget (q : Property) := Property.get?_eq_some_iff b.nodup_names (n := name) (p := q)
  refine
    { missingInSource_iff := ?_
      extraInSource_iff := ?_
      valueMismatch_iff := ?_
      ok_iff := ?_
      sourceDisplay_own := ?_
      sourceDisplay_other := ?_
      targetDisplay_own := ?_
      targetDisplay_other := ?_ }
  · rw [row, hstatus, RowStatus.ofProperties_eq_missingInSource_iff, ← Property.get?_eq_none_iff]
    refine and_iff_left_of_imp fun hnone => hunion.resolve_left ?_
    rw [hnone]
    exact Bool.false_ne_true
  · rw [row, hstatus, RowStatus.ofProperties_eq_extraInSource_iff, ← Property.get?_eq_none_iff]
    refine and_iff_left_of_imp fun hnone => hunion.resolve_right ?_
    rw [hnone]
    exact Bool.false_ne_true
  · rw [row, hstatus, RowStatus.ofProperties_eq_valueMismatch_iff,
      Property.exists_both_iff a.nodup_names b.nodup_names]
  · rw [row, hstatus, RowStatus.ofProperties_eq_ok_iff,
      Property.exists_both_iff a.nodup_names b.nodup_names]
    refine or_iff_right ?_
    rintro ⟨hs, ht⟩
    rw [hs, ht] at hunion
    rcases hunion with hsome | hsome <;> cases hsome
  · intro p hp hpname
    rw [row, (hsource p).2 ⟨hp, hpname⟩]
    rfl
  · intro q hs hq hqname
    have hnone : Property.get? a.properties name = none := Property.get?_eq_none_iff.2 hs
    rw [row, hnone, (htarget q).2 ⟨hq, hqname⟩]
    rfl
  · intro q hq hqname
    rw [row, (htarget q).2 ⟨hq, hqname⟩]
    rfl
  · intro p ht hp hpname
    have hnone : Property.get? b.properties name = none := Property.get?_eq_none_iff.2 ht
    rw [row, hnone, (hsource p).2 ⟨hp, hpname⟩]
    rfl

/-! ## Rows and differences -/

theorem entry?_of_atName? {s t : ObjectType} {name : String} {d : Difference}
    (h : atName? s t name = some d) :
    d.entry? = some (name, RowStatus.ofProperties (s.get? name) (t.get? name)) := by
  unfold atName? at h
  split at h <;> grind [Difference.entry?, RowStatus.ofProperties]

/-- The rows of names that show a difference are the differences at the names. -/
theorem map_entry?_filterMap_atName? {s t : ObjectType} {differences : List Difference}
    {names : List String}
    (h : ∀ n ∈ names, status differences n (s.get? n) (t.get? n) =
      RowStatus.ofProperties (s.get? n) (t.get? n)) :
    ((names.map (row differences (.object s) (.object t))).filter fun r => r.status ≠ .ok).map
        (fun r => some (r.property, r.status)) =
      (names.filterMap (atName? s t)).map Difference.entry? := by
  induction names with
  | nil => rfl
  | cons n rest ih =>
    have hrest := ih fun m hm => h m (List.mem_cons_of_mem _ hm)
    have hstatus : (row differences (.object s) (.object t) n).status =
        RowStatus.ofProperties (s.get? n) (t.get? n) := by
      rw [row, TypeText.get?_properties_object, TypeText.get?_properties_object]
      exact h n List.mem_cons_self
    cases hn : atName? s t n with
    | none =>
      have hok := hstatus.trans (atName?_eq_none_iff_ofProperties.1 hn)
      rw [List.map_cons, List.filter_cons_of_neg (by simp [hok]), hrest,
        List.filterMap_cons_none hn]
    | some d =>
      have hbad : (row differences (.object s) (.object t) n).status ≠ .ok := by
        rw [hstatus]
        intro hok
        rw [atName?_eq_none_iff_ofProperties.2 hok] at hn
        cases hn
      rw [List.map_cons, List.filter_cons_of_pos (by simpa using hbad), List.map_cons, hrest,
        List.filterMap_cons_some hn, List.map_cons, entry?_of_atName? hn, hstatus]
      rfl

theorem between_eq_object {source target : String}
    (h : (TypeText.ofString source).isObject = true ∨
      (TypeText.ofString target).isObject = true) :
    between source target =
      .object (((TypeText.ofString source).unionNames (.ofString target)).map
        (row (Difference.between source target) (.ofString source) (.ofString target))) := by
  rw [between]
  split
  · next hs ht =>
    rw [hs, ht] at h
    simp [TypeText.isObject] at h
  · rfl

/-- If one of two types is an object type, their alignment has a row for each of their properties
and no others, those of the source in its order and then those of the target alone in its order.
Each row describes its property. If both are object types, the rows that show a difference are the
differences of the types, one by one. -/
theorem between_rows_describe (source target : String)
    (h : (TypeText.ofString source).isObject = true ∨
      (TypeText.ofString target).isObject = true) :
    ∃ rows, between source target = .object rows ∧
      rows.map AlignedRow.property =
        Property.names (TypeText.ofString source).properties ++
          (Property.names (TypeText.ofString target).properties).filter
            (· ∉ Property.names (TypeText.ofString source).properties) ∧
      (rows.map AlignedRow.property).Nodup ∧
      (∀ row ∈ rows, row.Describes (TypeText.ofString source).properties
        (TypeText.ofString target).properties) ∧
      ((TypeText.ofString source).isObject = true → (TypeText.ofString target).isObject = true →
        (rows.filter fun row => row.status ≠ .ok).map (fun row => some (row.property, row.status)) =
          (Difference.between source target).map Difference.entry?) := by
  have hproperty : ∀ names : List String,
      (names.map (row (Difference.between source target) (.ofString source)
        (.ofString target))).map AlignedRow.property = names := by
    intro names
    rw [List.map_map]
    exact List.map_id names
  refine ⟨_, between_eq_object h, ?_, ?_, ?_, ?_⟩
  · rw [hproperty, TypeText.unionNames_eq]
  · rw [hproperty]
    exact TypeText.nodup_unionNames _ _
  · intro r hr
    obtain ⟨name, hname, rfl⟩ := List.mem_map.1 hr
    exact describes_row source target h hname
  · intro hsource htarget
    cases hs : TypeText.ofString source with
    | primitive s =>
      rw [hs] at hsource
      cases hsource
    | object s =>
      cases ht : TypeText.ofString target with
      | primitive t =>
        rw [ht] at htarget
        cases htarget
      | object t =>
        rw [Difference.between, hs, ht]
        refine map_entry?_filterMap_atName? fun n hn => ?_
        exact status_objects (Difference.find?_filterMap_atName? s t hn)

/-- Two properties of the source have no counterpart of the same type, and one of the target has
none at all. -/
theorem between_rows_describe_user :
    ((TypeText.ofString "\x7b id: string; name: number; extra: boolean \x7d").isObject = true ∨
      (TypeText.ofString "\x7b id: string; name: string; age?: number \x7d").isObject = true) ∧
    ∃ rows, between "\x7b id: string; name: number; extra: boolean \x7d"
        "\x7b id: string; name: string; age?: number \x7d" = .object rows ∧
      rows.map AlignedRow.property = ["id", "name", "extra", "age"] ∧
      (rows.filter fun row => row.status ≠ .ok).map (fun row => some (row.property, row.status)) =
        [some ("name", .valueMismatch), some ("extra", .extraInSource),
          some ("age", .missingInSource)] ∧
      rows.map (fun row => (row.sourceDisplay, row.targetDisplay)) =
        [("id: string", "id: string"), ("name: number", "name: string"),
          ("extra: boolean", "extra: (extra)"), ("age?: (missing)", "age?: number")] := by
  have hsource : (TypeText.ofString "\x7b id: string; name: number; extra: boolean \x7d").isObject =
      true := by decide +kernel
  have htarget : (TypeText.ofString "\x7b id: string; name: string; age?: number \x7d").isObject =
      true := by decide +kernel
  obtain ⟨rows, hrows, hnames, -, -, hentries⟩ := between_rows_describe _ _ (Or.inl hsource)
  refine ⟨Or.inl hsource, rows, hrows, ?_, ?_, ?_⟩
  · rw [hnames]
    decide +kernel
  · rw [hentries hsource htarget]
    decide +kernel
  · rw [between_eq_object (Or.inl hsource)] at hrows
    rw [← Alignment.object.inj hrows]
    decide +kernel

end Alignment

end Diagnosis
