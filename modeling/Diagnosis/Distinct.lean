/-!
# Distinct elements

Of the elements of a list that share a key, the first one is kept. The kept elements stay in their
order.
-/

namespace Diagnosis

/-- The elements whose keys were neither seen before nor belong to an earlier element. -/
def distinctBy {α κ : Type} [BEq κ] (key : α → κ) : List κ → List α → List α
  | _, [] => []
  | seen, x :: rest =>
    if seen.contains (key x) then distinctBy key seen rest
    else x :: distinctBy key (key x :: seen) rest

/-- What is kept stands in the list, in the same order. -/
theorem distinctBy_sublist {α κ : Type} [BEq κ] (key : α → κ) (seen : List κ) (xs : List α) :
    (distinctBy key seen xs).Sublist xs := by
  induction xs generalizing seen with
  | nil => exact .slnil
  | cons x rest ih =>
    rw [distinctBy]
    split
    · exact (ih seen).cons x
    · exact (ih (key x :: seen)).cons_cons x

/-- What is kept has a key that was not seen before. -/
theorem key_not_mem_of_mem_distinctBy {α κ : Type} [BEq κ] [LawfulBEq κ] {key : α → κ}
    {seen : List κ} {xs : List α} {x : α} (h : x ∈ distinctBy key seen xs) : key x ∉ seen := by
  induction xs generalizing seen with
  | nil => simp [distinctBy] at h
  | cons y rest ih =>
    rw [distinctBy] at h
    split at h
    · exact ih h
    · next hy =>
      rcases List.mem_cons.1 h with rfl | h
      · simpa using hy
      · exact fun hx => ih h (List.mem_cons_of_mem _ hx)

/-- The strings of a list without repetitions. -/
def distinct (strings : List String) : List String := distinctBy id [] strings

end Diagnosis
