import Diagnosis.Proofs.FirstOccurrence
import Diagnosis.Proofs.Parts
import Mathlib.Data.List.Infix

/-!
# The codes of a text

Codes are searched from left to right, and after each one the search goes on behind it. Still every
code that stands in the text is found, for two codes cannot overlap: a code begins with a `T` and
has no second one, so none begins inside another (`Code.occurrences_eq_standing`).

What is listed of a text is therefore told by the parts of the text alone: the codes among them,
each once, in the order in which they are first met (`Code.ofText_lists_codes`).
-/

namespace Diagnosis

open Text (isDecimalDigit)

/-- Whether a text meets one part before another: the first stands somewhere, and the second stands
only further right. -/
def Text.MeetsBefore (cs : List Char) (m n : String) : Prop :=
  ∃ i, m.toList <+: cs.drop i ∧ ∀ j, n.toList <+: cs.drop j → i < j

namespace Text.MeetsBefore

theorem of_stands {cs : List Char} {m n : String} (hm : m.toList <+: cs) (hn : ¬ n.toList <+: cs) :
    MeetsBefore cs m n := by
  refine ⟨0, hm, fun j hj => ?_⟩
  cases j with
  | zero => exact absurd hj hn
  | succ j => exact Nat.succ_pos j

theorem cons {c : Char} {cs : List Char} {m n : String} (h : MeetsBefore cs m n)
    (hn : ¬ n.toList <+: c :: cs) : MeetsBefore (c :: cs) m n := by
  obtain ⟨i, hm, hlater⟩ := h
  refine ⟨i + 1, hm, fun j hj => ?_⟩
  cases j with
  | zero => exact absurd hj hn
  | succ j => exact Nat.succ_lt_succ (hlater j hj)

end Text.MeetsBefore

namespace Code

/-- Whether a text is a code: `TS` and four decimal digits. -/
def IsCode (cs : List Char) : Prop :=
  ∃ digits, cs = 'T' :: 'S' :: digits ∧ digits.length = 4 ∧
    ∀ c ∈ digits, isDecimalDigit c = true

instance : DecidablePred IsCode := fun cs =>
  decidable_of_iff (cs.take 2 = ['T', 'S'] ∧ (cs.drop 2).length = 4 ∧
      (cs.drop 2).all isDecimalDigit = true) <| by
    rw [List.all_eq_true]
    constructor
    · rintro ⟨hsign, hlength, hdigits⟩
      refine ⟨cs.drop 2, ?_, hlength, hdigits⟩
      conv_lhs => rw [← List.take_append_drop 2 cs, hsign]
      rfl
    · rintro ⟨digits, rfl, hlength, hdigits⟩
      exact ⟨rfl, hlength, hdigits⟩

/-- The codes that stand in a text, one for each position at which one does. -/
def standing (cs : List Char) : List (List Char) := (cs.tails.map (List.take 6)).filter (IsCode ·)

namespace IsCode

variable {code cs : List Char}

theorem length_eq (h : IsCode code) : code.length = 6 := by
  obtain ⟨digits, rfl, hlength, -⟩ := h
  simp [hlength]

theorem prefix_iff (h : IsCode code) : code <+: cs ↔ cs.take 6 = code := by
  rw [List.prefix_iff_eq_take, h.length_eq, eq_comm]

theorem eq_or_isDecimalDigit (h : IsCode code) {c : Char} (hc : c ∈ code) :
    c = 'T' ∨ c = 'S' ∨ isDecimalDigit c = true := by
  obtain ⟨digits, rfl, -, hdigits⟩ := h
  rcases List.mem_cons.1 hc with rfl | hc
  · exact Or.inl rfl
  · rcases List.mem_cons.1 hc with rfl | hc
    · exact Or.inr (Or.inl rfl)
    · exact Or.inr (Or.inr (hdigits c hc))

theorem newline_not_mem (h : IsCode code) : '\n' ∉ code := by
  intro hmem
  rcases h.eq_or_isDecimalDigit hmem with h | h | h <;> revert h <;> decide

theorem head_eq {c : Char} (h : IsCode (c :: cs)) : c = 'T' := by
  obtain ⟨digits, heq, -⟩ := h
  exact (List.cons.inj heq).1

/-- Inside a code none begins. -/
theorem ne_of_mem_tail {c : Char} (h : IsCode (c :: cs)) : ∀ d ∈ cs, d ≠ 'T' := by
  obtain ⟨digits, heq, -, hdigits⟩ := h
  obtain ⟨-, rfl⟩ := List.cons.inj heq
  rintro d hd rfl
  rcases List.mem_cons.1 hd with hd | hd
  · exact absurd hd (by decide)
  · have hdigit := hdigits 'T' hd
    exact absurd hdigit (by decide)

end IsCode

/-! ## One position after the other -/

theorem here?_eq (cs : List Char) :
    here? cs = if IsCode (cs.take 6) then some (String.ofList (cs.take 6)) else none := by
  unfold here?
  split
  · next a b c d rest =>
    have hiff : [a, b, c, d].all isDecimalDigit = true ↔ IsCode ['T', 'S', a, b, c, d] := by
      rw [List.all_eq_true]
      constructor
      · intro hall
        exact ⟨_, rfl, rfl, hall⟩
      · rintro ⟨digits, heq, -, hall⟩
        obtain ⟨-, heq⟩ := List.cons.inj heq
        obtain ⟨-, rfl⟩ := List.cons.inj heq
        exact hall
    by_cases hall : [a, b, c, d].all isDecimalDigit = true
    · rw [if_pos hall, List.take, if_pos (by simpa using hiff.1 hall)]
      simp
    · rw [if_neg hall, if_neg (by simpa using mt hiff.2 hall)]
  · next hother =>
    rw [if_neg]
    rintro ⟨digits, htake, hlength, -⟩
    obtain ⟨a, b, c, d, rfl⟩ : ∃ a b c d, digits = [a, b, c, d] := by
      match digits, hlength with
      | [a, b, c, d], _ => exact ⟨a, b, c, d, rfl⟩
    have hcs : cs = ['T', 'S', a, b, c, d] ++ cs.drop 6 := by
      rw [← htake, List.take_append_drop]
    exact hother a b c d (cs.drop 6) hcs

theorem standing_cons (c : Char) (rest : List Char) :
    standing (c :: rest) =
      (if IsCode ((c :: rest).take 6) then [(c :: rest).take 6] else []) ++ standing rest := by
  rw [standing, List.tails, List.map_cons, List.filter_cons]
  by_cases hcode : IsCode ((c :: rest).take 6)
  · rw [if_pos (decide_eq_true hcode), if_pos hcode]
    rfl
  · rw [if_neg (mt of_decide_eq_true hcode), if_neg hcode]
    rfl

theorem standing_append_of_forall_ne {front : List Char} (h : ∀ c ∈ front, c ≠ 'T')
    (rest : List Char) : standing (front ++ rest) = standing rest := by
  induction front with
  | nil => rfl
  | cons c front ih =>
    obtain ⟨hc, hfront⟩ := List.forall_mem_cons.1 h
    rw [List.cons_append, standing_cons, if_neg fun hcode => hc hcode.head_eq, ih hfront]
    rfl

/-- The search finds what stands in the text behind the characters that it passes over. -/
theorem occurrences_eq_standing (skip : Nat) (cs : List Char) :
    occurrences skip cs = (standing (cs.drop skip)).map String.ofList := by
  induction cs generalizing skip with
  | nil => cases skip <;> rfl
  | cons c rest ih =>
    cases skip with
    | succ skip => exact ih skip
    | zero =>
      rw [occurrences, here?_eq, List.drop_zero, standing_cons]
      by_cases hcode : IsCode ((c :: rest).take 6)
      -- the five characters behind the `T` are passed over, and no code begins at one of them
      · have hpassed := standing_append_of_forall_ne hcode.ne_of_mem_tail (rest.drop 5)
        rw [List.take_append_drop] at hpassed
        rw [if_pos hcode, if_pos hcode, hpassed, List.singleton_append, List.map_cons]
        exact congrArg (_ :: ·) (ih 5)
      · rw [if_neg hcode, if_neg hcode, List.nil_append]
        exact ih 0

theorem mem_standing_iff {code cs : List Char} :
    code ∈ standing cs ↔ IsCode code ∧ code <:+: cs := by
  rw [standing, List.mem_filter, decide_eq_true_iff, and_comm, List.mem_map,
    List.infix_iff_prefix_suffix]
  refine and_congr_right fun hcode => exists_congr fun rest => ?_
  rw [List.mem_tails, hcode.prefix_iff, and_comm]

/-- A line feed is no part of a code, so the codes in two lines are those in the one and those in
the other. -/
theorem standing_append_newline (a b : List Char) :
    standing (a ++ '\n' :: b) = standing a ++ standing b := by
  induction a with
  | nil =>
    have hfeed := @standing_append_of_forall_ne ['\n'] (List.forall_mem_singleton.2 (by decide)) b
    exact hfeed
  | cons c a ih =>
    have hsame (h : IsCode ((c :: a).take 6) ∨ IsCode ((c :: (a ++ '\n' :: b)).take 6)) :
        (c :: (a ++ '\n' :: b)).take 6 = (c :: a).take 6 := by
      rcases h with h | h
      · exact h.prefix_iff.1 ((List.take_prefix 6 _).trans (List.prefix_append (c :: a) _))
      · refine (h.prefix_iff.1 ?_).symm
        exact (@Text.prefix_append_cons_iff _ (c :: a) _ _ h.newline_not_mem).1
          (List.take_prefix 6 _)
    rw [List.cons_append, standing_cons, standing_cons, ih, List.append_assoc]
    congr 1
    by_cases h : IsCode ((c :: a).take 6) ∨ IsCode ((c :: (a ++ '\n' :: b)).take 6)
    · rw [hsame h]
    · obtain ⟨ha, hb⟩ := not_or.1 h
      rw [if_neg ha, if_neg hb]

/-! ## Each code once -/

theorem ofText_eq (s : String) : ofText s = distinct ((standing s.toList).map String.ofList) := by
  rw [ofText, occurrences_eq_standing, List.drop_zero]

theorem mem_map_standing_iff {code : String} {cs : List Char} :
    code ∈ (standing cs).map String.ofList ↔ IsCode code.toList ∧ code.toList <:+: cs := by
  rw [← mem_standing_iff, List.mem_map]
  constructor
  · rintro ⟨part, hpart, rfl⟩
    rwa [String.toList_ofList]
  · intro h
    exact ⟨code.toList, h, String.ofList_toList⟩

/-- What is listed of the end of a text, once the codes that stand at its start have been seen,
stands only further right. -/
theorem not_starts_of_mem_distinctBy {seen : List String} {cs rest : List Char}
    (hseen : ∀ n, IsCode n.toList → n.toList <+: cs → n ∈ seen) {n : String}
    (hn : n ∈ distinctBy id seen ((standing rest).map String.ofList)) : ¬ n.toList <+: cs := by
  have hcode := (mem_map_standing_iff.1 ((distinctBy_sublist id seen _).subset hn)).1
  intro hstart
  exact key_not_mem_of_mem_distinctBy hn (hseen n hcode hstart)

/-- Of the codes that have not been seen, each is listed once, the one that is met first before the
others. -/
theorem pairwise_meetsBefore (seen : List String) (cs : List Char) :
    (distinctBy id seen ((standing cs).map String.ofList)).Pairwise (Text.MeetsBefore cs) := by
  induction cs generalizing seen with
  | nil => exact List.Pairwise.nil
  | cons c rest ih =>
    -- behind the first position only what has not been seen there is met first
    have hpairs {seen : List String}
        (hseen : ∀ n, IsCode n.toList → n.toList <+: c :: rest → n ∈ seen) :
        (distinctBy id seen ((standing rest).map String.ofList)).Pairwise
          (Text.MeetsBefore (c :: rest)) :=
      (ih seen).imp_of_mem fun _ hn h => h.cons (not_starts_of_mem_distinctBy hseen hn)
    rw [standing_cons]
    by_cases hcode : IsCode ((c :: rest).take 6)
    · obtain ⟨code, hfront⟩ : ∃ code, code = String.ofList ((c :: rest).take 6) := ⟨_, rfl⟩
      have hfirst (n : String) (hn : IsCode n.toList) (hstart : n.toList <+: c :: rest) :
          n = code := by
        rw [hfront, hn.prefix_iff.1 hstart, String.ofList_toList]
      rw [if_pos hcode, List.singleton_append, List.map_cons, ← hfront]
      by_cases hmem : code ∈ seen
      · have hskip : distinctBy id seen (code :: (standing rest).map String.ofList) =
            distinctBy id seen ((standing rest).map String.ofList) :=
          distinctBy_cons_of_mem hmem _
        rw [hskip]
        exact hpairs fun n hn hstart => hfirst n hn hstart ▸ hmem
      · have hseen (n : String) (hn : IsCode n.toList) (hstart : n.toList <+: c :: rest) :
            n ∈ code :: seen :=
          hfirst n hn hstart ▸ List.mem_cons_self
        have hkeep : distinctBy id seen (code :: (standing rest).map String.ofList) =
            code :: distinctBy id (code :: seen) ((standing rest).map String.ofList) :=
          distinctBy_cons_of_not_mem hmem _
        rw [hkeep, List.pairwise_cons]
        refine ⟨fun n hn => .of_stands ?_ (not_starts_of_mem_distinctBy hseen hn), hpairs hseen⟩
        rw [hfront, String.toList_ofList]
        exact List.take_prefix 6 _
    · rw [if_neg hcode, List.nil_append]
      refine hpairs fun n hn hstart => absurd hn ?_
      rwa [← hn.prefix_iff.1 hstart]

theorem ofText_newline_append (a b : String) :
    ofText (a ++ "\n" ++ b) = ofText a ++ (ofText b).filter fun code => code ∉ ofText a := by
  have hchars : (a ++ "\n" ++ b).toList = a.toList ++ '\n' :: b.toList := by simp
  simp only [ofText_eq, hchars, standing_append_newline, List.map_append, distinct_append]

/-- What is listed of a text. -/
structure Lists (s : String) : Prop where
  occurrences_eq : occurrences 0 s.toList = (standing s.toList).map String.ofList
  nodup : (ofText s).Nodup
  mem_iff : ∀ code, code ∈ ofText s ↔ IsCode code.toList ∧ code.toList <:+: s.toList
  ordered : (ofText s).Pairwise (Text.MeetsBefore s.toList)

theorem lists_ofText (s : String) : Lists s := by
  refine
    { occurrences_eq := occurrences_eq_standing 0 s.toList
      nodup := nodup_distinct _
      mem_iff := fun code => ?_
      ordered := ?_ }
  · rw [ofText_eq, mem_distinct, mem_map_standing_iff]
  · rw [ofText_eq]
    exact pairwise_meetsBefore [] s.toList

/-- The search finds a code at every position of a text at which one stands, also where several
stand close together. What is listed are all codes that are part of the text, none twice, and those
that are met first come first. The codes of two texts on lines of their own are those of the one and
then those of the other that are new. An analysis lists the codes of its text and names the first of
them, if there is one. -/
theorem ofText_lists_codes :
    (∀ s : String, Lists s) ∧
    (∀ a b : String,
      ofText (a ++ "\n" ++ b) = ofText a ++ (ofText b).filter fun code => code ∉ ofText a) ∧
    ∀ (config : Config) (text : String) (a : Analysis), config.analyze text = some a →
      a.errorCodes = ofText a.text ∧ a.errorCode = a.errorCodes.head? := by
  refine ⟨lists_ofText, ofText_newline_append, fun config text a h => ?_⟩
  obtain ⟨-, -, -, hcodes, hcode⟩ := Config.of_analyze_eq_some h
  exact ⟨hcodes, hcode⟩

/-- Two codes with nothing between them: a broken sign before the first, one more digit behind the
second. -/
theorem ofText_lists_codes_adjacent :
    ∃ a, analyze " TSTS2322TS23456" = some a ∧ a.errorCodes = ["TS2322", "TS2345"] ∧
      a.errorCode = some "TS2322" := by
  have htrim : Text.trim " TSTS2322TS23456" = "TSTS2322TS23456" := by decide +kernel
  obtain ⟨a, ha, htext⟩ := Config.exists_analyze_eq_some {} htrim (by decide)
  have hlist : ofText "TSTS2322TS23456" = ["TS2322", "TS2345"] := by decide +kernel
  obtain ⟨hcodes, hcode⟩ := ofText_lists_codes.2.2 {} _ a ha
  rw [htext, hlist] at hcodes
  rw [hcodes] at hcode
  exact ⟨a, ha, hcodes, hcode⟩

end Code

end Diagnosis
