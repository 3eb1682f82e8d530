import Diagnosis.Proofs.PropertyDifferences
import Mathlib.Data.List.Perm.Basic

/-!
# Exchanging source and target

Whether a property is missing in the one type or extra in the other depends on which of the two is
called the source. So every difference has a counterpart for the exchanged types
(`Difference.exchanged`), and comparing the exchanged types finds the counterparts and nothing else
(`Difference.between_exchanged_perm`).

They are found in another order, for the source's names always come first. But the names are the
same ones (`TypeText.unionNames_perm`), and what is found at a name depends on no other.
-/

namespace Diagnosis

theorem TypeText.unionNames_perm (a b : TypeText) : (b.unionNames a).Perm (a.unionNames b) := by
  rw [List.perm_ext_iff_of_nodup (nodup_unionNames b a) (nodup_unionNames a b)]
  intro name
  rw [mem_unionNames, mem_unionNames, or_comm]

namespace Difference

/-- The difference for the exchanged types. -/
def exchanged : Difference → Difference
  | missingInSource property expectedType => extraInSource property expectedType
  | extraInSource property actualType => missingInSource property actualType
  | valueMismatch property actualType expectedType =>
    valueMismatch property expectedType actualType
  | structureMismatch actualText expectedText => structureMismatch expectedText actualText
  | primitiveMismatch actual expected => primitiveMismatch expected actual

/-- Exchanging twice changes nothing. -/
@[simp] theorem exchanged_exchanged (d : Difference) : d.exchanged.exchanged = d := by
  cases d <;> rfl

/-- At a name the exchanged object types have the exchanged difference. -/
theorem atName?_exchanged (s t : ObjectType) (name : String) :
    atName? t s name = (atName? s t name).map exchanged := by
  unfold atName?
  cases s.get? name with
  | none => cases t.get? name <;> rfl
  | some p =>
    cases t.get? name with
    | none => rfl
    | some q =>
      by_cases hwords : Text.normalize p.valueType = Text.normalize q.valueType
      · simp [hwords]
      · have hwords' : ¬ Text.normalize q.valueType = Text.normalize p.valueType :=
          Ne.symm hwords
        simp [hwords, hwords', exchanged]

theorem ofTypes_objects_exchanged_perm (sourceText targetText : String) (s t : ObjectType) :
    (ofTypes targetText sourceText (.object t) (.object s)).Perm
      ((ofTypes sourceText targetText (.object s) (.object t)).map exchanged) := by
  have hnames := TypeText.unionNames_perm (.object s) (.object t)
  have hat : atName? t s = fun name => (atName? s t name).map exchanged :=
    funext (atName?_exchanged s t)
  have hperm := hnames.filterMap (atName? t s)
  rw [ofTypes, ofTypes, List.map_filterMap, ← hat]
  exact hperm

/-- Comparing the target with the source finds, up to the order, the exchanged differences of
comparing the source with the target. -/
theorem between_exchanged_perm (source target : String) :
    (between target source).Perm ((between source target).map exchanged) := by
  unfold between
  cases TypeText.ofString source with
  | primitive s =>
    cases TypeText.ofString target with
    | primitive t =>
      by_cases hsame : s = t
      · simp [ofTypes, hsame]
      · have hsame' : ¬ t = s := Ne.symm hsame
        simp [ofTypes, hsame, hsame', exchanged]
    | object t => exact List.Perm.refl _
  | object s =>
    cases TypeText.ofString target with
    | primitive t => exact List.Perm.refl _
    | object t => exact ofTypes_objects_exchanged_perm source target s t

/-- The order is another one: property `c` comes last from the one side and first from the other. -/
example :
    between "\x7b a: string; b: string; \x7d" "\x7b c: string; \x7d" =
        [extraInSource "a" "string", extraInSource "b" "string", missingInSource "c" "string"] ∧
      between "\x7b c: string; \x7d" "\x7b a: string; b: string; \x7d" =
        [extraInSource "c" "string", missingInSource "a" "string",
          missingInSource "b" "string"] := by
  decide +kernel

end Difference

end Diagnosis
