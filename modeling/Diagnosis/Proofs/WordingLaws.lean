import Diagnosis.Wording
import Mathlib.Data.List.Basic
import Mathlib.Data.List.TakeWhile

/-!
# Laws of reading a wording

Reading goes from left to right, so what a sequence of pieces reads is told by what the pieces read
one after the other, and that in both directions: if the pieces read the parts of a text, the
wording reads the text, and if a wording reads a text, the text consists of parts for its pieces.
-/

namespace Diagnosis

/-! ## Reading a piece -/

namespace Piece

theorem read?_quote {mark : Char} (h : isQuote mark = true) (rest : List Char) :
    quote.read? (mark :: rest) = some ([], rest) := by
  rw [read?, if_pos h]

theorem read?_exactly (text rest : List Char) :
    (exactly text).read? (text ++ rest) = some ([], rest) := by
  rw [read?, List.isPrefixOf?_eq_some_iff_append_eq.2 rfl]
  rfl

/-- A field takes a run of characters up to one that it does not accept. -/
theorem read?_field {accepts : Char → Bool} {run rest : List Char} (hne : run ≠ [])
    (hrun : ∀ c ∈ run, accepts c = true) (hrest : ∀ c ∈ rest.head?, accepts c = false) :
    (field accepts).read? (run ++ rest) = some ([String.ofList run], rest) := by
  have hstop : rest.takeWhile accepts = [] ∧ rest.dropWhile accepts = rest := by
    cases rest with
    | nil => exact ⟨rfl, rfl⟩
    | cons c cs => simp [hrest c rfl]
  have htake : (run ++ rest).takeWhile accepts = run := by
    rw [List.takeWhile_append_of_pos hrun, hstop.1, List.append_nil]
  have hdrop : (run ++ rest).dropWhile accepts = rest := by
    rw [List.dropWhile_append_of_pos hrun, hstop.2]
  obtain ⟨first, more, hcons⟩ := List.exists_cons_of_ne_nil hne
  rw [read?, htake, hdrop, hcons]

end Piece

/-! ## Reading a wording -/

namespace Wording

theorem read?_cons {piece : Piece} {cs cs' : List Char} {fields : Fields}
    (h : piece.read? cs = some (fields, cs')) (rest : Wording) :
    read? (piece :: rest) cs = (read? rest cs').map fun r => (fields ++ r.1, r.2) := by
  rw [read?, h]

theorem read?_text (s : String) (rest : List Char) :
    (text s).read? (s.toList ++ rest) = some ([], rest) := by
  show read? [.exactly s.toList] _ = _
  rw [read?_cons (Piece.read?_exactly _ _)]
  rfl

variable {cs rest : List Char} {fields : Fields}

theorem read?_append_of_some {first second : Wording} {middle : List Char}
    {fields₁ fields₂ : Fields} (hfirst : first.read? cs = some (fields₁, middle))
    (hsecond : second.read? middle = some (fields₂, rest)) :
    read? (first ++ second) cs = some (fields₁ ++ fields₂, rest) := by
  rw [read?_append, hfirst, Option.bind_some, hsecond]
  rfl

theorem read?_append_of_eq_none {first : Wording} (h : first.read? cs = none) (second : Wording) :
    read? (first ++ second) cs = none := by
  rw [read?_append, h]
  rfl

/-! ## Finding a wording -/

theorem find?_of_readAny? {wordings : List Wording} {cs : List Char} {fields : Fields}
    (h : readAny? wordings cs = some fields) : find? wordings cs = some fields := by
  cases cs with
  | nil => exact h
  | cons c rest => rw [find?, h]

/-- The leftmost place at which something can be read decides. -/
theorem find?_eq_some_iff {wordings : List Wording} {cs : List Char} {fields : Fields} :
    find? wordings cs = some fields ↔
      ∃ i ≤ cs.length, readAny? wordings (cs.drop i) = some fields ∧
        ∀ j < i, readAny? wordings (cs.drop j) = none := by
  induction cs with
  | nil =>
    constructor
    · exact fun h => ⟨0, Nat.le_refl 0, h, fun j hj => absurd hj (Nat.not_lt_zero j)⟩
    · rintro ⟨i, -, hread, -⟩
      rwa [List.drop_nil] at hread
  | cons c rest ih =>
    cases hhere : readAny? wordings (c :: rest) with
    | some here =>
      rw [find?_of_readAny? hhere]
      constructor
      · exact fun h => ⟨0, Nat.zero_le _, hhere.trans h, fun j hj => absurd hj (Nat.not_lt_zero j)⟩
      · rintro ⟨i, -, hread, hearlier⟩
        cases i with
        | zero => exact hhere.symm.trans hread
        | succ i =>
          have hnone := hearlier 0 (Nat.succ_pos i)
          rw [List.drop_zero, hhere] at hnone
          cases hnone
    | none =>
      have hlater : find? wordings (c :: rest) = find? wordings rest := by rw [find?, hhere]
      rw [hlater, ih]
      constructor
      · rintro ⟨i, hi, hread, hearlier⟩
        refine ⟨i + 1, Nat.succ_le_succ hi, hread, fun j hj => ?_⟩
        cases j with
        | zero => exact hhere
        | succ j => exact hearlier j (Nat.lt_of_succ_lt_succ hj)
      · rintro ⟨i, hi, hread, hearlier⟩
        cases i with
        | zero =>
          rw [List.drop_zero, hhere] at hread
          cases hread
        | succ i =>
          exact ⟨i, Nat.le_of_succ_le_succ hi, hread,
            fun j hj => hearlier (j + 1) (Nat.succ_lt_succ hj)⟩

theorem exists_readAny?_of_find? {wordings : List Wording} {cs : List Char} {fields : Fields}
    (h : find? wordings cs = some fields) :
    ∃ before rest, cs = before ++ rest ∧ readAny? wordings rest = some fields := by
  obtain ⟨i, -, hread, -⟩ := find?_eq_some_iff.1 h
  exact ⟨cs.take i, cs.drop i, (List.take_append_drop i cs).symm, hread⟩

variable {wording : Wording}

theorem readAny?_cons_of_some (h : wording.read? cs = some (fields, rest))
    (wordings : List Wording) : readAny? (wording :: wordings) cs = some fields := by
  rw [readAny?, List.findSome?_cons, h]
  rfl

theorem readAny?_cons_of_none (h : wording.read? cs = none) (wordings : List Wording) :
    readAny? (wording :: wordings) cs = readAny? wordings cs := by
  rw [readAny?, List.findSome?_cons, h]
  rfl

/-! ## What was read -/

/-- Two wordings read a text if the second one reads what the first one leaves. -/
theorem read?_append_eq_some_iff {first second : Wording} :
    read? (first ++ second) cs = some (fields, rest) ↔
      ∃ fields₁ middle fields₂, first.read? cs = some (fields₁, middle) ∧
        second.read? middle = some (fields₂, rest) ∧ fields = fields₁ ++ fields₂ := by
  constructor
  · intro h
    rw [read?_append] at h
    obtain ⟨⟨fields₁, middle⟩, hfirst, hmap⟩ := Option.bind_eq_some_iff.1 h
    obtain ⟨⟨fields₂, rest'⟩, hsecond, heq⟩ := Option.map_eq_some_iff.1 hmap
    obtain ⟨rfl, rfl⟩ := Prod.mk.inj heq
    exact ⟨fields₁, middle, fields₂, hfirst, hsecond, rfl⟩
  · rintro ⟨fields₁, middle, fields₂, hfirst, hsecond, rfl⟩
    exact read?_append_of_some hfirst hsecond

theorem exists_of_read?_cons {piece : Piece} {wording : Wording}
    (h : read? (piece :: wording) cs = some (fields, rest)) :
    ∃ fields₁ middle fields₂, piece.read? cs = some (fields₁, middle) ∧
      wording.read? middle = some (fields₂, rest) := by
  rw [read?] at h
  split at h
  · next fields₁ middle hpiece =>
    obtain ⟨⟨fields₂, rest'⟩, hrest, heq⟩ := Option.map_eq_some_iff.1 h
    obtain ⟨-, rfl⟩ := Prod.mk.inj heq
    exact ⟨fields₁, middle, fields₂, hpiece, hrest⟩
  · cases h

theorem read?_text_eq_some_iff {s : String} :
    (text s).read? cs = some (fields, rest) ↔ cs = s.toList ++ rest ∧ fields = [] := by
  constructor
  · intro h
    obtain ⟨fields₁, middle, fields₂, hpiece, hrest⟩ := exists_of_read?_cons h
    obtain ⟨-, rfl⟩ := Prod.mk.inj (Option.some.inj hrest)
    obtain ⟨rest', hprefix, heq⟩ := Option.map_eq_some_iff.1 hpiece
    obtain ⟨-, rfl⟩ := Prod.mk.inj heq
    have hcs := (List.isPrefixOf?_eq_some_iff_append_eq.1 hprefix).symm
    rw [hcs, read?_text] at h
    exact ⟨hcs, (Prod.mk.inj (Option.some.inj h)).1.symm⟩
  · rintro ⟨rfl, rfl⟩
    exact read?_text s rest

theorem exists_of_read?_quote (h : Piece.quote.read? cs = some (fields, rest)) :
    ∃ mark, isQuote mark = true ∧ cs = mark :: rest := by
  cases cs with
  | nil => cases h
  | cons mark cs =>
    rw [Piece.read?] at h
    split at h
    · next hmark =>
      obtain ⟨-, rfl⟩ := Prod.mk.inj (Option.some.inj h)
      exact ⟨mark, hmark, rfl⟩
    · cases h

/-- What was read as quoted are two quotation marks and a name without any between them. -/
theorem read?_quoted_eq_some_iff :
    quoted.read? cs = some (fields, rest) ↔
      ∃ opening name closing, isQuote opening = true ∧ isQuote closing = true ∧ name ≠ [] ∧
        (∀ c ∈ name, isQuote c = false) ∧ cs = opening :: (name ++ closing :: rest) ∧
        fields = [String.ofList name] := by
  have hread {opening closing : Char} {name : List Char} (hopen : isQuote opening = true)
      (hclose : isQuote closing = true) (hne : name ≠ []) (hname : ∀ c ∈ name, isQuote c = false)
      (rest : List Char) : quoted.read? (opening :: (name ++ closing :: rest)) =
        some ([String.ofList name], rest) := by
    have hfield : (Piece.field fun c => !isQuote c).read? (name ++ closing :: rest) =
        some ([String.ofList name], closing :: rest) := by
      refine Piece.read?_field hne (fun c hc => by rw [hname c hc]; rfl) fun c hc => ?_
      rw [← Option.some.inj hc, hclose]
      rfl
    rw [quoted, read?_cons (Piece.read?_quote hopen _), read?_cons hfield,
      read?_cons (Piece.read?_quote hclose _)]
    rfl
  constructor
  · intro h
    obtain ⟨_, cs₁, _, hopening, h₁⟩ := exists_of_read?_cons h
    obtain ⟨_, cs₂, _, hfield, h₂⟩ := exists_of_read?_cons h₁
    obtain ⟨_, cs₃, _, hclosing, h₃⟩ := exists_of_read?_cons h₂
    obtain ⟨-, rfl⟩ := Prod.mk.inj (Option.some.inj h₃)
    obtain ⟨opening, hopen, rfl⟩ := exists_of_read?_quote hopening
    obtain ⟨closing, hclose, rfl⟩ := exists_of_read?_quote hclosing
    rw [Piece.read?] at hfield
    split at hfield
    · cases hfield
    · next hrun =>
      have hsplit := (Prod.mk.inj (Option.some.inj hfield)).2
      have hname : ∀ c ∈ cs₁.takeWhile (fun c => !isQuote c), isQuote c = false :=
        fun c hc => by simpa using List.mem_takeWhile_imp hc
      have hcs : cs₁ = cs₁.takeWhile (fun c => !isQuote c) ++ closing :: cs₃ := by
        rw [← hsplit, List.takeWhile_append_dropWhile]
      rw [hcs, hread hopen hclose hrun hname] at h
      refine ⟨opening, _, closing, hopen, hclose, hrun, hname, congrArg _ hcs, ?_⟩
      exact (Prod.mk.inj (Option.some.inj h)).1.symm
  · rintro ⟨opening, name, closing, hopen, hclose, hne, hname, rfl, rfl⟩
    exact hread hopen hclose hne hname rest

end Wording

end Diagnosis
