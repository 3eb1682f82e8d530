import Diagnosis.TypeText.Object
import Mathlib.Data.Finset.Card
import Mathlib.Data.List.Induction

/-!
# Properties written one after the other

An object type comes about by writing one property after the other, and a name may be written more
than once. What the object type then holds is told by the list of all that was written: its names
are those of the list, in the order of their first mentions, and under each name it holds what was
written there last (`ObjectType.Reflects`). Writing one more property keeps this up
(`ObjectType.Reflects.insert`), so it is so after any number of them.

The index is never behind: the position that it gives for a name is the name's position in the list,
and the property at this position is the one that is found.
-/

namespace Diagnosis

namespace Property

/-- Whether a property is the last one of its name in a list. -/
def IsLast (ps : List Property) (p : Property) : Prop :=
  ∃ before after, ps = before ++ p :: after ∧ p.name ∉ names after

theorem isLast_concat_iff {ps : List Property} {p q : Property} :
    IsLast (ps ++ [p]) q ↔ q = p ∨ q.name ≠ p.name ∧ IsLast ps q := by
  constructor
  · rintro ⟨before, after, hsplit, hafter⟩
    rcases List.eq_nil_or_concat after with rfl | ⟨rest, r, rfl⟩
    · have hlast : ps = before ∧ [p] = [q] := List.append_inj' hsplit rfl
      exact Or.inl (List.singleton_inj.1 hlast.2).symm
    · rw [List.concat_eq_append, ← List.cons_append, ← List.append_assoc] at hsplit
      obtain ⟨hfront, hlast⟩ := List.append_inj' hsplit rfl
      rw [List.singleton_inj.1 hlast]
      have hnames : q.name ∉ names rest ∧ q.name ≠ r.name := by simpa using hafter
      exact Or.inr ⟨hnames.2, before, rest, hfront, hnames.1⟩
  · rintro (rfl | ⟨hne, before, after, rfl, hafter⟩)
    · exact ⟨ps, [], rfl, List.not_mem_nil⟩
    · refine ⟨before, after ++ [p], by simp, ?_⟩
      intro hmem
      have hcases : q.name ∈ names after ∨ q.name = p.name := by simpa using hmem
      exact hcases.elim hafter hne

end Property

namespace ObjectType

/-! ## The index and the list -/

/-- The index gives the position of a name, and nothing else. -/
theorem lookup_index_eq_some_iff (o : ObjectType) {n : String} {i : Nat} :
    o.index.lookup n = some i ↔ o.names[i]? = some n := by
  have hnodup : o.names.Nodup := o.nodup
  rw [o.lookup_index, List.idxOf?_eq_some_iff]
  constructor
  · rintro ⟨hi, hname, -⟩
    exact List.getElem?_eq_some_iff.2 ⟨hi, hname⟩
  · intro hname
    obtain ⟨hi, hname⟩ := List.getElem?_eq_some_iff.1 hname
    refine ⟨hi, hname, ?_⟩
    intro j hj hsame
    -- no name stands twice
    have heq : j = i := (hnodup.getElem_inj_iff).1 (hsame.trans hname.symm)
    omega

/-- The property at the position of a name is the one found under the name. -/
theorem getElem?_properties_of_names (o : ObjectType) {n : String} {i : Nat}
    (h : o.names[i]? = some n) : o.properties[i]? = o.get? n := by
  rw [get?, o.lookup_index_eq_some_iff.2 h, Option.bind_some]

/-! ## What a run leaves -/

/-- What an object type tells of the properties that were written. -/
structure Reflects (ps : List Property) (o : ObjectType) : Prop where
  /-- It has the names that were written. -/
  mem_names_iff (n : String) : n ∈ o.names ↔ n ∈ Property.names ps
  /-- Its names come in the order of their first mentions. -/
  ordered : o.names.Pairwise fun m n =>
    (Property.names ps).idxOf m < (Property.names ps).idxOf n
  /-- Under a name it holds the property that was written there last. -/
  get?_eq_some_iff (n : String) (p : Property) :
    o.get? n = some p ↔ p.name = n ∧ p.IsLast ps

theorem reflects_empty : Reflects [] .empty where
  mem_names_iff := fun _ => Iff.rfl
  ordered := List.Pairwise.nil
  get?_eq_some_iff := by
    intro n p
    constructor
    · intro h
      cases h
    · rintro ⟨-, before, after, hsplit, -⟩
      exact absurd hsplit (by simp)

namespace Reflects

variable {ps : List Property} {o : ObjectType}

/-- First mentions stay where they are when one more property is written. -/
theorem ordered_concat (h : Reflects ps o) (p : Property) :
    o.names.Pairwise fun m n =>
      (Property.names (ps ++ [p])).idxOf m < (Property.names (ps ++ [p])).idxOf n := by
  have hconcat : Property.names (ps ++ [p]) = Property.names ps ++ [p.name] := by simp
  refine h.ordered.imp_of_mem fun {m n} hm hn hlt => ?_
  rw [hconcat, List.idxOf_append_of_mem ((h.mem_names_iff m).1 hm),
    List.idxOf_append_of_mem ((h.mem_names_iff n).1 hn)]
  exact hlt

/-- A name that is written for the first time has its first mention behind all others. -/
theorem idxOf_lt_of_new (h : Reflects ps o) {p : Property} (hnew : p.name ∉ o.names) {m : String}
    (hm : m ∈ o.names) :
    (Property.names (ps ++ [p])).idxOf m < (Property.names (ps ++ [p])).idxOf p.name := by
  have hconcat : Property.names (ps ++ [p]) = Property.names ps ++ [p.name] := by simp
  have hknown : m ∈ Property.names ps := (h.mem_names_iff m).1 hm
  have hnew' : p.name ∉ Property.names ps := mt (h.mem_names_iff p.name).2 hnew
  rw [hconcat, List.idxOf_append_of_mem hknown, List.idxOf_append_of_notMem hnew']
  have hlt : (Property.names ps).idxOf m < (Property.names ps).length :=
    List.idxOf_lt_length_of_mem hknown
  omega

/-- An object type goes on to reflect what was written when one more property is written. -/
theorem insert (h : Reflects ps o) (p : Property) : Reflects (ps ++ [p]) (o.insert p) := by
  refine
    { mem_names_iff := ?_
      ordered := ?_
      get?_eq_some_iff := ?_ }
  · intro n
    have hwritten : n ∈ Property.names (ps ++ [p]) ↔ n ∈ o.names ∨ n = p.name := by
      rw [h.mem_names_iff]
      simp
    rw [names_insert, hwritten]
    by_cases hknown : p.name ∈ o.names
    · rw [if_pos hknown]
      refine ⟨Or.inl, ?_⟩
      rintro (hn | rfl)
      · exact hn
      · exact hknown
    · rw [if_neg hknown, List.mem_append, List.mem_singleton]
  · rw [names_insert]
    by_cases hknown : p.name ∈ o.names
    · rw [if_pos hknown]
      exact h.ordered_concat p
    · rw [if_neg hknown, List.pairwise_append]
      refine ⟨h.ordered_concat p, List.pairwise_singleton _ _, ?_⟩
      intro m hm n hn
      rw [List.mem_singleton.1 hn]
      exact h.idxOf_lt_of_new hknown hm
  · intro n q
    rw [Property.isLast_concat_iff]
    by_cases hname : p.name = n
    · subst hname
      rw [get?_insert_self, Option.some.injEq]
      constructor
      · rintro rfl
        exact ⟨rfl, Or.inl rfl⟩
      · rintro ⟨hq, rfl | ⟨hne, -⟩⟩
        · rfl
        · exact absurd hq hne
    · rw [get?_insert_of_ne o hname, h.get?_eq_some_iff]
      constructor
      · rintro ⟨rfl, hlast⟩
        exact ⟨rfl, Or.inr ⟨Ne.symm hname, hlast⟩⟩
      · rintro ⟨hq, rfl | ⟨-, hlast⟩⟩
        · exact absurd hq hname
        · exact ⟨hq, hlast⟩

/-- The size is the number of different names that were written. -/
theorem size_eq (h : Reflects ps o) : o.size = (Property.names ps).toFinset.card := by
  have hnames : o.names.toFinset = (Property.names ps).toFinset := by
    ext n
    rw [List.mem_toFinset, List.mem_toFinset, h.mem_names_iff]
  have hnodup : o.names.Nodup := o.nodup
  have hlength : o.names.length = o.size := List.length_map _
  rw [← hnames, List.toFinset_card_of_nodup hnodup, hlength]

end Reflects

theorem reflects_foldl_insert (ps : List Property) : Reflects ps (ps.foldl insert .empty) := by
  induction ps using List.reverseRecOn with
  | nil => exact reflects_empty
  | append_singleton ps p ih =>
    rw [List.foldl_concat]
    exact ih.insert p

/-- What an object type tells of the properties that were written, with its index and its size. -/
structure HoldsLast (ps : List Property) (o : ObjectType) : Prop extends Reflects ps o where
  nodup_names : o.names.Nodup
  size_eq : o.size = (Property.names ps).toFinset.card
  contains_iff (n : String) : o.contains n = true ↔ n ∈ Property.names ps
  lookup_index_iff (n : String) (i : Nat) : o.index.lookup n = some i ↔ o.names[i]? = some n
  getElem?_properties (n : String) (i : Nat) : o.names[i]? = some n → o.properties[i]? = o.get? n

/-- After properties were written into an empty object type, its names are those that were written,
none twice and in the order of their first mentions, and it is as large as there are different ones.
A name is contained if it was written, and what is found under it is what was written there last.
The index gives the position of every name, where this same property stands. -/
theorem foldl_insert_holds_last (ps : List Property) : HoldsLast ps (ps.foldl insert .empty) := by
  have h := reflects_foldl_insert ps
  exact
    { toReflects := h
      nodup_names := ObjectType.nodup _
      size_eq := h.size_eq
      contains_iff := fun n => by rw [ObjectType.contains_iff, h.mem_names_iff]
      lookup_index_iff := fun n i => lookup_index_eq_some_iff _
      getElem?_properties := fun n i => getElem?_properties_of_names _ }

/-- A name that is written again keeps its place and changes its content. -/
example :
    ([⟨"a", false, "string"⟩, ⟨"b", true, "number"⟩, ⟨"a", true, "boolean"⟩].foldl insert
      .empty).properties = [⟨"a", true, "boolean"⟩, ⟨"b", true, "number"⟩] := by
  decide

end ObjectType

end Diagnosis
