import Diagnosis.Analysis
import Mathlib.Data.List.Basic
import Mathlib.Data.List.Induction

/-!
# First occurrences

Elements are dropped one by one, by a comparison with the keys seen so far. Seen as a whole, the
element at a position is kept if and only if no element at an earlier position has its key
(`distinctBy_nil_eq`), and what one part of a list does to the next is to take away the keys that
it holds (`distinctBy_append`, `distinctBy_append_seen`).

For records this says which reports are dropped as repetitions, also in an analysis
(`Record.dedup_keeps_first_occurrences`).
-/

namespace Diagnosis

section Distinct

variable {α κ : Type} [BEq κ] [LawfulBEq κ] {key : α → κ} {seen seen' : List κ}

theorem distinctBy_cons_of_mem {x : α} (h : key x ∈ seen) (xs : List α) :
    distinctBy key seen (x :: xs) = distinctBy key seen xs := by
  rw [distinctBy, if_pos (List.contains_iff_mem.2 h)]

theorem distinctBy_cons_of_not_mem {x : α} (h : key x ∉ seen) (xs : List α) :
    distinctBy key seen (x :: xs) = x :: distinctBy key (key x :: seen) xs := by
  rw [distinctBy, if_neg fun hc => h (List.contains_iff_mem.1 hc)]

/-! ## Keys seen before -/

theorem distinctBy_congr (h : ∀ k, k ∈ seen ↔ k ∈ seen') (xs : List α) :
    distinctBy key seen xs = distinctBy key seen' xs := by
  induction xs generalizing seen seen' with
  | nil => rfl
  | cons x rest ih =>
    by_cases hx : key x ∈ seen
    · have hx' : key x ∈ seen' := (h _).1 hx
      rw [distinctBy_cons_of_mem hx, distinctBy_cons_of_mem hx', ih h]
    · have hx' : key x ∉ seen' := fun hmem => hx ((h _).2 hmem)
      have hcons : ∀ k, k ∈ key x :: seen ↔ k ∈ key x :: seen' := by
        intro k
        rw [List.mem_cons, List.mem_cons, h]
      rw [distinctBy_cons_of_not_mem hx, distinctBy_cons_of_not_mem hx', ih hcons]

theorem distinctBy_cons_seen_of_mem {k : κ} (h : k ∈ seen) (xs : List α) :
    distinctBy key (k :: seen) xs = distinctBy key seen xs := by
  refine distinctBy_congr (fun k' => ?_) xs
  rw [List.mem_cons]
  constructor
  · rintro (rfl | hk)
    · exact h
    · exact hk
  · exact Or.inr

theorem distinctBy_append_cons_seen (more seen : List κ) (k : κ) (xs : List α) :
    distinctBy key (more ++ k :: seen) xs = distinctBy key (k :: (more ++ seen)) xs :=
  distinctBy_congr (fun _ => List.perm_middle.mem_iff) xs

/-- Keys that were seen before only take away the elements that have them. -/
theorem distinctBy_append_seen (more seen : List κ) (xs : List α) :
    distinctBy key (more ++ seen) xs =
      (distinctBy key seen xs).filter fun x => key x ∉ more := by
  induction xs generalizing seen with
  | nil => rfl
  | cons x rest ih =>
    by_cases hseen : key x ∈ seen
    · have hboth : key x ∈ more ++ seen := List.mem_append_right _ hseen
      rw [distinctBy_cons_of_mem hseen, distinctBy_cons_of_mem hboth, ih]
    · rw [distinctBy_cons_of_not_mem hseen, List.filter_cons, ← ih, distinctBy_append_cons_seen]
      by_cases hmore : key x ∈ more
      · have hboth : key x ∈ more ++ seen := List.mem_append_left _ hmore
        rw [distinctBy_cons_of_mem hboth, if_neg (by simpa using hmore),
          distinctBy_cons_seen_of_mem hboth]
      · have hboth : key x ∉ more ++ seen := by
          rw [List.mem_append, not_or]
          exact ⟨hmore, hseen⟩
        rw [distinctBy_cons_of_not_mem hboth, if_pos (by simpa using hmore)]

/-- After some elements all their keys have been seen, those of the dropped ones too. -/
theorem distinctBy_append (seen : List κ) (xs ys : List α) :
    distinctBy key seen (xs ++ ys) =
      distinctBy key seen xs ++ distinctBy key (xs.map key ++ seen) ys := by
  induction xs generalizing seen with
  | nil => rfl
  | cons x rest ih =>
    rw [List.cons_append, List.map_cons, List.cons_append]
    by_cases hx : key x ∈ seen
    · rw [distinctBy_cons_of_mem hx, distinctBy_cons_of_mem hx, ih,
        distinctBy_cons_seen_of_mem (List.mem_append_right _ hx)]
    · rw [distinctBy_cons_of_not_mem hx, distinctBy_cons_of_not_mem hx, ih, List.cons_append,
        distinctBy_append_cons_seen]

/-! ## What is kept -/

theorem nodup_map_distinctBy (seen : List κ) (xs : List α) :
    ((distinctBy key seen xs).map key).Nodup := by
  induction xs generalizing seen with
  | nil => exact List.nodup_nil
  | cons x rest ih =>
    by_cases hx : key x ∈ seen
    · rw [distinctBy_cons_of_mem hx]
      exact ih seen
    · rw [distinctBy_cons_of_not_mem hx, List.map_cons, List.nodup_cons]
      refine ⟨fun hmem => ?_, ih _⟩
      obtain ⟨y, hy, hkey⟩ := List.mem_map.1 hmem
      have hnew := key_not_mem_of_mem_distinctBy hy
      rw [hkey] at hnew
      exact hnew List.mem_cons_self

theorem distinctBy_eq_self {xs : List α} (hnodup : (xs.map key).Nodup)
    (hseen : ∀ x ∈ xs, key x ∉ seen) : distinctBy key seen xs = xs := by
  induction xs generalizing seen with
  | nil => rfl
  | cons x rest ih =>
    rw [List.map_cons, List.nodup_cons] at hnodup
    have hrest : ∀ y ∈ rest, key y ∉ key x :: seen := by
      intro y hy hmem
      rcases List.mem_cons.1 hmem with hkey | hmem
      · exact hnodup.1 (hkey ▸ List.mem_map_of_mem hy)
      · exact hseen y (List.mem_cons_of_mem _ hy) hmem
    rw [distinctBy_cons_of_not_mem (hseen x List.mem_cons_self), ih hnodup.2 hrest]

/-- The elements whose key no element at an earlier position has, with their positions. -/
def firstOccurrences (key : α → κ) (xs : List α) : List (α × Nat) :=
  xs.zipIdx.filter fun p => key p.1 ∉ (xs.take p.2).map key

theorem firstOccurrences_concat (xs : List α) (x : α) :
    firstOccurrences key (xs ++ [x]) =
      firstOccurrences key xs ++ if key x ∈ xs.map key then [] else [(x, xs.length)] := by
  have hbefore : ∀ p ∈ xs.zipIdx, (xs ++ [x]).take p.2 = xs.take p.2 := by
    intro p hp
    obtain ⟨hlt, -⟩ := List.getElem?_eq_some_iff.1 (List.mem_zipIdx_iff_getElem?.1 hp)
    exact List.take_append_of_le_length (by omega)
  have hfront : (xs.zipIdx.filter fun p => decide (key p.1 ∉ ((xs ++ [x]).take p.2).map key)) =
      firstOccurrences key xs := by
    refine List.filter_congr fun p hp => ?_
    rw [hbefore p hp]
  rw [firstOccurrences, List.zipIdx_append, List.filter_append, hfront]
  by_cases hx : key x ∈ xs.map key
  · simp [hx]
  · simp [hx]

/-- The elements that are kept are the first ones of their keys, in order. -/
theorem distinctBy_nil_eq (xs : List α) :
    distinctBy key [] xs = (firstOccurrences key xs).map Prod.fst := by
  -- from the end, where an element is compared with everything that stands before it
  induction xs using List.reverseRecOn with
  | nil => rfl
  | append_singleton xs x ih =>
    rw [distinctBy_append, ih, firstOccurrences_concat, List.map_append, List.append_nil]
    by_cases hx : key x ∈ xs.map key
    · rw [distinctBy_cons_of_mem hx, if_pos hx]
      rfl
    · rw [distinctBy_cons_of_not_mem hx, if_neg hx]
      rfl

/-- No key is lost: the first element of the key is there, at the position itself or before it. -/
theorem exists_mem_firstOccurrences {xs : List α} {x : α} {i : Nat} (h : xs[i]? = some x) :
    ∃ first j, (first, j) ∈ firstOccurrences key xs ∧ j ≤ i ∧ key first = key x := by
  induction i using Nat.strongRecOn generalizing x with
  | ind i ih =>
    by_cases hx : key x ∈ (xs.take i).map key
    · obtain ⟨y, hy, hkey⟩ := List.mem_map.1 hx
      obtain ⟨j, hj⟩ := List.mem_iff_getElem?.1 hy
      obtain ⟨hlt, -⟩ := List.getElem?_eq_some_iff.1 hj
      rw [List.length_take] at hlt
      have hji : j < i := by omega
      rw [List.getElem?_take_of_lt hji] at hj
      obtain ⟨first, k, hfirst, hk, hkey'⟩ := ih j hji hj
      exact ⟨first, k, hfirst, by omega, hkey'.trans hkey⟩
    · have hmem : (x, i) ∈ xs.zipIdx := List.mem_zipIdx_iff_getElem?.2 h
      exact ⟨x, i, List.mem_filter.2 ⟨hmem, by simpa using hx⟩, Nat.le_refl i, rfl⟩

/-- The same without positions: what stands before the first element of a key has other keys. -/
theorem exists_first_of_mem {xs : List α} {x : α} (h : x ∈ xs) :
    ∃ before first after, xs = before ++ first :: after ∧ (∀ y ∈ before, key y ≠ key x) ∧
      key first = key x ∧ first ∈ distinctBy key [] xs := by
  obtain ⟨i, hi⟩ := List.mem_iff_getElem?.1 h
  have hexists : ∃ first j, (first, j) ∈ firstOccurrences key xs ∧ j ≤ i ∧ key first = key x :=
    exists_mem_firstOccurrences hi
  obtain ⟨first, j, hfirst, -, hkey⟩ := hexists
  obtain ⟨hmem, hnew⟩ := List.mem_filter.1 hfirst
  have hj : xs[j]? = some first := List.mem_zipIdx_iff_getElem?.1 hmem
  obtain ⟨hlt, hget⟩ := List.getElem?_eq_some_iff.1 hj
  refine ⟨xs.take j, first, xs.drop (j + 1), ?_, fun y hy hxy => ?_, hkey, ?_⟩
  · rw [← hget, ← List.drop_eq_getElem_cons hlt, List.take_append_drop]
  · rw [decide_eq_true_iff, hkey, ← hxy] at hnew
    exact hnew (List.mem_map_of_mem hy)
  · rw [distinctBy_nil_eq]
    exact List.mem_map_of_mem (f := Prod.fst) hfirst

end Distinct

/-! ## Strings -/

theorem nodup_distinct (xs : List String) : (distinct xs).Nodup := by
  have hnodup : ((distinct xs).map id).Nodup := nodup_map_distinctBy [] xs
  rwa [List.map_id] at hnodup

theorem mem_distinct {x : String} {xs : List String} : x ∈ distinct xs ↔ x ∈ xs := by
  constructor
  · exact fun h => (distinctBy_sublist id [] xs).subset h
  · intro h
    obtain ⟨before, first, after, -, -, rfl, hmem⟩ := @exists_first_of_mem _ _ _ _ id _ _ h
    exact hmem

theorem distinct_append (xs ys : List String) :
    distinct (xs ++ ys) = distinct xs ++ (distinct ys).filter fun y => y ∉ distinct xs := by
  simp only [mem_distinct]
  rw [distinct, distinctBy_append, distinctBy_append_seen, List.map_id]
  rfl

/-- The strings that are kept stand in the order in which they first occur. -/
theorem pairwise_idxOf_distinct (xs : List String) :
    (distinct xs).Pairwise fun x y => xs.idxOf x < xs.idxOf y := by
  induction xs using List.reverseRecOn with
  | nil => exact List.Pairwise.nil
  | append_singleton xs x ih =>
    have hkept : (distinct xs).Pairwise fun y z => (xs ++ [x]).idxOf y < (xs ++ [x]).idxOf z := by
      refine ih.imp_of_mem fun hy hz hlt => ?_
      rwa [List.idxOf_append_of_mem (mem_distinct.1 hy),
        List.idxOf_append_of_mem (mem_distinct.1 hz)]
    rw [distinct_append, List.pairwise_append]
    refine ⟨hkept, List.Pairwise.sublist List.filter_sublist (List.pairwise_singleton _ x), ?_⟩
    intro y hy z hz
    obtain ⟨hz, hnew⟩ := List.mem_filter.1 hz
    obtain rfl : z = x := by simpa using mem_distinct.1 hz
    rw [decide_eq_true_iff, mem_distinct] at hnew
    rw [mem_distinct] at hy
    rw [List.idxOf_append_of_mem hy, List.idxOf_append_of_notMem hnew]
    exact Nat.lt_add_right _ (List.idxOf_lt_length_of_mem hy)

/-! ## Records -/

namespace Record

theorem dedup_append (xs ys : List Record) :
    dedup (xs ++ ys) = dedup xs ++ (dedup ys).filter fun r => r.key ∉ xs.map key := by
  rw [dedup, distinctBy_append, distinctBy_append_seen]
  rfl

theorem dedup_dedup (xs : List Record) : dedup (dedup xs) = dedup xs :=
  distinctBy_eq_self (nodup_map_distinctBy [] xs) fun _ _ => List.not_mem_nil

end Record

theorem Config.map_problems_analyze_dedup (mode : PathMode) (text : String) :
    (Config.analyze ⟨mode, true⟩ text).map Analysis.problems =
      (Config.analyze ⟨mode, false⟩ text).map fun a => Record.dedup a.problems := by
  unfold analyze
  by_cases hblank : (Text.trim text).isEmpty = true
  · simp only [hblank, if_true, Option.map_none]
  · simp only [hblank, Bool.false_eq_true, if_false, if_true, Option.map_some]

namespace Record

/-- Whether two records count as the same report: they agree on the dotted path, on the kind, on the
source type and on the name or module that was not found, where nothing is as good as an empty
text. -/
structure SameReport (r s : Record) : Prop where
  path : ".".intercalate r.path = ".".intercalate s.path
  tag : r.problem.tag = s.problem.tag
  sourceType : r.problem.sourceType?.getD "" = s.problem.sourceType?.getD ""
  name : r.problem.name?.getD "" = s.problem.name?.getD ""
  moduleName : r.problem.moduleName?.getD "" = s.problem.moduleName?.getD ""

theorem key_eq_iff {r s : Record} : r.key = s.key ↔ r.SameReport s := by
  rw [key, key, Key.mk.injEq]
  constructor
  · rintro ⟨hpath, htag, hsource, hname, hmodule⟩
    exact ⟨hpath, htag, hsource, hname, hmodule⟩
  · rintro ⟨hpath, htag, hsource, hname, hmodule⟩
    exact ⟨hpath, htag, hsource, hname, hmodule⟩

/-- What remains of records without the repetitions of an earlier one. -/
structure KeepsFirst (xs : List Record) : Prop where
  eq_firsts : dedup xs = (firstOccurrences key xs).map Prod.fst
  nodup_keys : ((dedup xs).map key).Nodup
  exists_first : ∀ r i, xs[i]? = some r →
    ∃ first j, (first, j) ∈ firstOccurrences key xs ∧ j ≤ i ∧ first.key = r.key
  dedup_kept : dedup (dedup xs) = dedup xs
  append : ∀ ys, dedup (xs ++ ys) = dedup xs ++ (dedup ys).filter fun r => r.key ∉ xs.map key

/-- Two records have the same key if they count as the same report. Of any records those are kept
whose key no record at an earlier position has, unchanged and in their order. So no two of the
records kept have the same key, no key is lost and the record kept for it is none of the later ones,
dropping repetitions a second time changes nothing, and of records that follow others those are kept
that would be kept alone and have a key that is new. In every mode, what a text's analysis without
repetitions reports is what remains of the analysis with them. -/
theorem dedup_keeps_first_occurrences :
    (∀ r s : Record, r.key = s.key ↔ r.SameReport s) ∧
    (∀ xs : List Record, KeepsFirst xs) ∧
    ∀ (mode : PathMode) (text : String),
      (Config.analyze ⟨mode, true⟩ text).map Analysis.problems =
        (Config.analyze ⟨mode, false⟩ text).map (fun a => dedup a.problems) ∧
      ∀ a, Config.analyze ⟨mode, true⟩ text = some a → (a.problems.map key).Nodup := by
  refine ⟨fun r s => key_eq_iff, fun xs => ?_,
    fun mode text => ⟨Config.map_problems_analyze_dedup mode text, ?_⟩⟩
  · exact
      { eq_firsts := distinctBy_nil_eq xs
        nodup_keys := nodup_map_distinctBy [] xs
        exists_first := fun r i hr => exists_mem_firstOccurrences hr
        dedup_kept := dedup_dedup xs
        append := dedup_append xs }
  · intro a ha
    have hproblems := Config.map_problems_analyze_dedup mode text
    rw [ha, Option.map_some] at hproblems
    obtain ⟨b, -, hb⟩ := Option.map_eq_some_iff.1 hproblems.symm
    rw [← hb]
    exact nodup_map_distinctBy [] b.problems

/-- Records that differ in one part of the key are kept side by side. Dropped are the one with the
same dotted path, but with another target type, a flag and a suggestion, and the one that was there
before. -/
theorem dedup_keeps_first_occurrences_similar :
    let within (p : Problem) : Record := ⟨["a", "c"], p, none⟩
    let kept : Record := within (.typeMismatch (.ofTypes "boolean" "number"))
    let dropped : Record :=
      ⟨["a.c"], .typeMismatch (TypeMismatch.ofTypes "boolean" "never").asArgument, some "d"⟩
    dedup [⟨["a", "b"], .typeMismatch (.ofTypes "string" "number"), none⟩,
          within (.typeMismatch (.ofTypes "string" "number")), kept, dropped,
          within (.cannotFindName "x"), within (.cannotFindName "y"),
          within (.cannotFindModule "x"), within (.cannotFindModule "y"),
          within .possiblyNull, within .possiblyUndefined, within .possiblyNull] =
        [⟨["a", "b"], .typeMismatch (.ofTypes "string" "number"), none⟩,
          within (.typeMismatch (.ofTypes "string" "number")), kept,
          within (.cannotFindName "x"), within (.cannotFindName "y"),
          within (.cannotFindModule "x"), within (.cannotFindModule "y"),
          within .possiblyNull, within .possiblyUndefined] ∧
      kept.SameReport dropped := by
  intro within kept dropped
  obtain ⟨hkey, hkeeps, -⟩ := dedup_keeps_first_occurrences
  refine ⟨?_, (hkey kept dropped).1 (by decide +kernel)⟩
  rw [(hkeeps _).eq_firsts]
  decide +kernel

end Record

end Diagnosis
