/-!
# Object types

An object type is a list of properties in the order in which they were written, no two of which
have the same name. A property that is written again takes the place of the earlier one, so the
position is that of the first mention and the content that of the last (`names_insert`,
`get?_insert_self`, `get?_insert_of_ne`).

Properties are not looked for in the list. An index tells at which position the property of a name
stands, and writing a property keeps it in step with the list. So what the index leads to is what a
search would find (`get?_eq`), and a property that is written through it comes to stand where a
search would put it (`properties_insert`).
-/

namespace Diagnosis

/-- A property of an object type. -/
structure Property where
  /-- The name, without the mark of an optional property. -/
  name : String
  /-- Whether the property may be absent. -/
  optional : Bool
  /-- The text of the type of the property's value. -/
  valueType : String
  deriving DecidableEq

namespace Property

/-- The mark of an optional property. -/
def mark (p : Property) : String := if p.optional then "?" else ""

/-- The property with the given text in the place of its value's type. -/
def displayWith (p : Property) (text : String) : String := p.name ++ p.mark ++ ": " ++ text

/-- The property as it is written in an object type. -/
def display (p : Property) : String := p.displayWith p.valueType

/-- The properties after one more is written: it replaces the one of its name, if there is one, and
stands last otherwise. -/
def put (p : Property) : List Property → List Property
  | [] => [p]
  | q :: rest => if q.name = p.name then p :: rest else q :: p.put rest

/-- The names of properties, in their order. -/
abbrev names (ps : List Property) : List String := ps.map name

/-- The property of a name. -/
def get? (ps : List Property) (n : String) : Option Property := ps.find? fun p => p.name == n

theorem names_put (p : Property) (ps : List Property) :
    names (p.put ps) = if p.name ∈ names ps then names ps else names ps ++ [p.name] := by
  induction ps with
  | nil => simp [put]
  | cons q rest ih =>
    by_cases h : q.name = p.name
    · simp [put, h]
    · have h' : ¬ p.name = q.name := fun e => h e.symm
      by_cases hm : p.name ∈ names rest
      · simp only [put, h, if_false, List.map_cons, ih, hm, if_true, List.mem_cons, or_true]
      · simp only [put, h, if_false, List.map_cons, ih, hm, List.mem_cons, h', or_false,
          List.cons_append]

theorem nodup_names_put (p : Property) {ps : List Property} (h : (names ps).Nodup) :
    (names (p.put ps)).Nodup := by
  rw [names_put]
  split
  · exact h
  · next hm =>
    refine List.nodup_append.2 ⟨h, by simp, ?_⟩
    intro a ha b hb
    simp only [List.mem_singleton] at hb
    exact fun e => hm (hb ▸ e ▸ ha)

theorem get?_put_self (p : Property) (ps : List Property) : get? (p.put ps) p.name = some p := by
  induction ps with
  | nil => simp [put, get?]
  | cons q rest ih =>
    by_cases h : q.name = p.name
    · simp [put, h, get?]
    · rw [put, if_neg h, get?, List.find?_cons_of_neg (by simpa using h)]
      exact ih

theorem get?_put_of_ne {p : Property} {n : String} (hn : p.name ≠ n) (ps : List Property) :
    get? (p.put ps) n = get? ps n := by
  induction ps with
  | nil => simp [put, get?, hn]
  | cons q rest ih =>
    by_cases h : q.name = p.name
    · have hq : ¬ q.name = n := h ▸ hn
      simp [put, h, get?, hn]
    · rw [put, if_neg h]
      by_cases hq : q.name = n
      · simp [get?, hq]
      · rw [get?, get?, List.find?_cons_of_neg (by simpa using hq),
          List.find?_cons_of_neg (by simpa using hq)]
        exact ih

theorem isSome_get?_iff {ps : List Property} {n : String} :
    (get? ps n).isSome = true ↔ n ∈ names ps := by
  simp [get?, List.find?_isSome]

theorem name_of_get?_eq_some {ps : List Property} {n : String} {p : Property}
    (h : get? ps n = some p) : p.name = n := by
  simpa using List.find?_some h

/-! ### Positions -/

theorem put_of_not_mem {p : Property} {ps : List Property} (h : p.name ∉ names ps) :
    p.put ps = ps ++ [p] := by
  induction ps with
  | nil => rfl
  | cons q rest ih =>
    obtain ⟨hq, hrest⟩ := not_or.1 (mt List.mem_cons.2 h)
    rw [put, if_neg (Ne.symm hq), ih hrest]
    rfl

/-- A property takes the place of the one that bears its name. -/
theorem put_of_idxOf?_eq_some {p : Property} {ps : List Property} {i : Nat}
    (h : (names ps).idxOf? p.name = some i) : p.put ps = ps.set i p := by
  induction ps generalizing i with
  | nil => cases h
  | cons q rest ih =>
    rw [names, List.map_cons, List.idxOf?_cons] at h
    by_cases hq : q.name = p.name
    · rw [if_pos (by simpa using hq)] at h
      cases h
      rw [put, if_pos hq]
      rfl
    · rw [if_neg (by simpa using hq)] at h
      obtain ⟨j, hj, rfl⟩ := Option.map_eq_some_iff.1 h
      rw [put, if_neg hq, ih hj]
      rfl

/-- The property of a name stands at the position of the name. -/
theorem get?_eq_bind_idxOf? (ps : List Property) (n : String) :
    get? ps n = ((names ps).idxOf? n).bind fun i => ps[i]? := by
  rw [get?, List.find?_eq_bind_findIdx?_getElem?, List.idxOf?, List.findIdx?_map]
  rfl

/-- A new name goes into an index with the position behind all others. -/
theorem lookup_cons_of_not_mem {p : Property} {ps : List Property} (h : p.name ∉ names ps)
    {index : List (String × Nat)} (hindex : ∀ n, index.lookup n = (names ps).idxOf? n)
    (n : String) :
    ((p.name, ps.length) :: index).lookup n = (names (ps ++ [p])).idxOf? n := by
  have hconcat : names (ps ++ [p]) = names ps ++ [p.name] := by simp
  rw [hconcat, List.idxOf?, List.findIdx?_append, ← List.idxOf?]
  by_cases hn : n = p.name
  · subst hn
    rw [List.lookup_cons_self, List.idxOf?_eq_none_iff.2 h]
    simp
  · have hn' : ¬ p.name = n := Ne.symm hn
    rw [List.lookup_cons, beq_eq_false_iff_ne.2 hn, hindex]
    simp [hn']

end Property

/-- An object type: properties of distinct names, in the order of their first mention. -/
structure ObjectType where
  /-- The properties, in order. -/
  properties : List Property
  /-- No name occurs twice. -/
  nodup : (Property.names properties).Nodup
  /-- The names with the positions of their properties, the newest name first. -/
  index : List (String × Nat)
  /-- The index leads to the position at which a name stands. -/
  lookup_index : ∀ n, index.lookup n = (Property.names properties).idxOf? n

namespace ObjectType

/-- The object type without properties. -/
def empty : ObjectType where
  properties := []
  nodup := List.nodup_nil
  index := []
  lookup_index := fun _ => rfl

/-- The object type after a property is written. -/
def insert (o : ObjectType) (p : Property) : ObjectType :=
  match h : o.index.lookup p.name with
  | some i =>
    have hput : o.properties.set i p = p.put o.properties :=
      (Property.put_of_idxOf?_eq_some (o.lookup_index p.name ▸ h)).symm
    have hknown : p.name ∈ Property.names o.properties := by
      rw [← List.isSome_idxOf?, ← o.lookup_index, h]
      rfl
    { properties := o.properties.set i p
      nodup := hput ▸ p.nodup_names_put o.nodup
      index := o.index
      lookup_index := by
        rw [hput, p.names_put, if_pos hknown]
        exact o.lookup_index }
  | none =>
    have hnew : p.name ∉ Property.names o.properties :=
      List.idxOf?_eq_none_iff.1 (o.lookup_index p.name ▸ h)
    { properties := o.properties ++ [p]
      nodup := Property.put_of_not_mem hnew ▸ p.nodup_names_put o.nodup
      index := (p.name, o.properties.length) :: o.index
      lookup_index := Property.lookup_cons_of_not_mem hnew o.lookup_index }

/-- The property of a name. -/
def get? (o : ObjectType) (n : String) : Option Property :=
  (o.index.lookup n).bind fun i => o.properties[i]?

/-- Whether there is a property of a name. -/
def contains (o : ObjectType) (n : String) : Bool := (o.index.lookup n).isSome

/-- The names of the properties, in order. -/
def names (o : ObjectType) : List String := Property.names o.properties

/-- The number of properties. -/
def size (o : ObjectType) : Nat := o.properties.length

@[simp] theorem names_empty : empty.names = [] := rfl

/-- A property is written at the place of its name, or else behind all others. -/
theorem properties_insert (o : ObjectType) (p : Property) :
    (o.insert p).properties = p.put o.properties := by
  unfold insert
  split
  · next i h => exact (Property.put_of_idxOf?_eq_some (o.lookup_index p.name ▸ h)).symm
  · next h =>
    have hnew : p.name ∉ Property.names o.properties :=
      List.idxOf?_eq_none_iff.1 (o.lookup_index p.name ▸ h)
    exact (Property.put_of_not_mem hnew).symm

/-- The index leads to the property that a search finds. -/
theorem get?_eq (o : ObjectType) (n : String) : o.get? n = Property.get? o.properties n := by
  rw [get?, o.lookup_index, ← Property.get?_eq_bind_idxOf?]

theorem mem_of_get?_eq_some {o : ObjectType} {n : String} {p : Property} (h : o.get? n = some p) :
    p ∈ o.properties := by
  rw [get?_eq] at h
  exact List.mem_of_find?_eq_some h

/-- A property of a new name is named last; one of a known name leaves the names as they are. -/
theorem names_insert (o : ObjectType) (p : Property) :
    (o.insert p).names = if p.name ∈ o.names then o.names else o.names ++ [p.name] := by
  rw [names, properties_insert]
  exact p.names_put o.properties

/-- The property written last is the one found under its name. -/
theorem get?_insert_self (o : ObjectType) (p : Property) : (o.insert p).get? p.name = some p := by
  rw [get?_eq, properties_insert]
  exact p.get?_put_self o.properties

/-- Writing a property changes no other name. -/
theorem get?_insert_of_ne (o : ObjectType) {p : Property} {n : String} (h : p.name ≠ n) :
    (o.insert p).get? n = o.get? n := by
  rw [get?_eq, get?_eq, properties_insert]
  exact Property.get?_put_of_ne h o.properties

theorem contains_iff {o : ObjectType} {n : String} : o.contains n = true ↔ n ∈ o.names := by
  rw [contains, o.lookup_index, List.isSome_idxOf?]
  rfl

end ObjectType

end Diagnosis
