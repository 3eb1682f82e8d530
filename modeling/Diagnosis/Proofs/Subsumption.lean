import Diagnosis.Proofs.Precedence

/-!
# Shapes that others subsume

Some shapes are special cases of others: every line that has the one has the other as well. What
comes of it depends on the order in which lines are tried and on precedence.

The two shapes of lines that `undefined` or `null` is not assignable are special cases of the shape
of lines on two types that do not fit, and that one takes precedence. So nothing is ever reported as
one of them. A line on an object that may be `null` or `undefined` is also one on an object that may
be `null`; here neither takes precedence and both are tried in turn, so that the two problems come
one right after the other (`Record.subsumed_shapes`).
-/

namespace Diagnosis

open Text (Line)

/-! ## Wordings that read what others read -/

namespace Wording

/-- Whether a wording reads whatever another one reads, and just as far. -/
def Covers (general special : Wording) : Prop :=
  ∀ cs fields rest, special.read? cs = some (fields, rest) →
    ∃ fields', general.read? cs = some (fields', rest)

variable {general special : Wording}

theorem Covers.append_left (h : general.Covers special) (front : Wording) :
    Covers (front ++ general) (front ++ special) := by
  intro cs fields rest hread
  obtain ⟨fields₁, middle, fields₂, hfront, hspecial, -⟩ := read?_append_eq_some_iff.1 hread
  obtain ⟨fields', hgeneral⟩ := h middle fields₂ rest hspecial
  exact ⟨_, read?_append_of_some hfront hgeneral⟩

theorem Covers.append_right (h : general.Covers special) (back : Wording) :
    Covers (general ++ back) (special ++ back) := by
  intro cs fields rest hread
  obtain ⟨fields₁, middle, fields₂, hspecial, hback, -⟩ := read?_append_eq_some_iff.1 hread
  obtain ⟨fields', hgeneral⟩ := h cs fields₁ middle hspecial
  exact ⟨_, read?_append_of_some hgeneral hback⟩

/-- A given word between quotation marks is one of the names that may stand there. -/
theorem covers_quotedWord {s : String} (hs : Text.Quotable s) :
    quoted.Covers (quotedWord s) := by
  intro cs fields rest hread
  obtain ⟨_, cs₁, _, hopening, h₁⟩ := exists_of_read?_cons hread
  obtain ⟨_, cs₂, _, hword, h₂⟩ := exists_of_read?_cons h₁
  obtain ⟨_, cs₃, _, hclosing, h₃⟩ := exists_of_read?_cons h₂
  obtain ⟨-, rfl⟩ := Prod.mk.inj (Option.some.inj h₃)
  obtain ⟨closing, hclose, rfl⟩ := exists_of_read?_quote hclosing
  obtain ⟨rest', hprefix, heq⟩ := Option.map_eq_some_iff.1 hword
  obtain ⟨-, rfl⟩ := Prod.mk.inj heq
  obtain rfl := List.isPrefixOf?_eq_some_iff_append_eq.1 hprefix
  obtain ⟨opening, hopen, rfl⟩ := exists_of_read?_quote hopening
  exact ⟨_, read?_quoted_eq_some_iff.2 ⟨opening, s.toList, closing, hopen, hclose,
    mt String.toList_eq_nil_iff.1 hs.1, hs.isQuote_eq_false, rfl, rfl⟩⟩

/-- What can be read wherever something else can be read is found wherever that is found. -/
theorem isSome_find?_mono {special general : List Wording}
    (h : ∀ cs, (readAny? special cs).isSome → (readAny? general cs).isSome) (cs : List Char)
    (hfind : (find? special cs).isSome) : (find? general cs).isSome := by
  induction cs with
  | nil => exact h [] hfind
  | cons c rest ih =>
    cases hgeneral : readAny? general (c :: rest) with
    | some fields => rw [find?, hgeneral]; rfl
    | none =>
      have hspecial : readAny? special (c :: rest) = none := by
        have hmono := h (c :: rest)
        rw [hgeneral] at hmono
        simpa using hmono
      rw [find?, hspecial] at hfind
      rw [find?, hgeneral]
      exact ih hfind

theorem isSome_readAny?_singleton {w : Wording} {cs : List Char} :
    (readAny? [w] cs).isSome = (w.read? cs).isSome := by
  rw [readAny?, List.findSome?_cons]
  cases w.read? cs <;> rfl

end Wording

/-! ## Shapes that always come with another one -/

namespace Shape

open Wording (text quoted quotedWord)

/-- A line that a given word is not assignable to a type is a line on two types that do not fit. -/
theorem isSome_typeMismatch_fields?_of_word {shape : Shape} {word : String}
    (hshape : shape.rule.wordings =
      [text "Type " ++ quotedWord word ++ text " is not assignable to type " ++ quoted])
    (hword : Text.Quotable word) {line : List Char} (h : (shape.fields? line).isSome) :
    (typeMismatch.fields? line).isSome := by
  refine Wording.isSome_find?_mono (fun cs hread => ?_) line h
  rw [hshape, Wording.isSome_readAny?_singleton] at hread
  obtain ⟨⟨fields, rest⟩, hspecial⟩ := Option.isSome_iff_exists.1 hread
  have hcovers := (((Wording.covers_quotedWord hword).append_left (text "Type ")).append_right
    (text " is not assignable to type ")).append_right quoted
  obtain ⟨fields', hgeneral⟩ := hcovers cs fields rest hspecial
  refine Wording.isSome_readAny?_singleton.trans ?_
  rw [hgeneral]
  rfl

/-- A line that `undefined` or `null` is not assignable to a type is a line on two types that do not
fit. -/
theorem isSome_typeMismatch_fields? {line : List Char}
    (h : (undefinedNotAssignable.fields? line).isSome ∨ (nullNotAssignable.fields? line).isSome) :
    (typeMismatch.fields? line).isSome := by
  rcases h with h | h
  · exact isSome_typeMismatch_fields?_of_word rfl (by decide) h
  · exact isSome_typeMismatch_fields?_of_word rfl (by decide) h

/-- The wording that an object may be `null` or `undefined` begins with the one that it may be
`null`. -/
theorem isSome_possiblyNull_fields? {line : List Char}
    (h : (possiblyNullOrUndefined.fields? line).isSome) : (possiblyNull.fields? line).isSome := by
  refine Wording.isSome_find?_mono (fun cs hread => ?_) line h
  obtain ⟨⟨fields, rest⟩, hspecial⟩ :=
    Option.isSome_iff_exists.1 (Wording.isSome_readAny?_singleton.symm.trans hread)
  obtain ⟨_, _, _, hfront, -⟩ := Wording.read?_append_eq_some_iff.1 hspecial
  obtain ⟨_, _, _, hgeneral, -⟩ := Wording.read?_append_eq_some_iff.1 hfront
  refine Wording.isSome_readAny?_singleton.trans ?_
  rw [hgeneral]
  rfl

/-- Nothing is contributed as one of a shape that always comes with the one that takes
precedence. -/
theorem contribution?_eq_none_of_subsumed {shape guard : Shape} {line : List Char}
    (hunless : shape.rule.unless? = some guard)
    (hsubsumed : (shape.fields? line).isSome → (guard.fields? line).isSome) :
    shape.contribution? line = none := by
  rw [Option.eq_none_iff_forall_ne_some]
  intro c hc
  obtain ⟨fields, hfields, -, hguard⟩ := contribution?_eq_some_iff.1 hc
  have hsome := hsubsumed (by rw [hfields]; rfl)
  rw [hguard guard hunless] at hsome
  cases hsome

end Shape

/-! ## Entries right behind others -/

/-- Whether every entry of a kind stands right behind one that leads it. -/
def Led {α : Type} (kind : α → Prop) (leads : α → α → Prop) (xs : List α) : Prop :=
  ∀ before x after, xs = before ++ x :: after → kind x →
    ∃ front y, before = front ++ [y] ∧ leads y x

namespace Led

variable {α β : Type} {kind : α → Prop} {leads : α → α → Prop} {kind' : β → Prop}
  {leads' : β → β → Prop}

theorem of_forall_not {xs : List α} (h : ∀ x ∈ xs, ¬ kind x) : Led kind leads xs := by
  rintro before x after rfl hx
  exact absurd hx (h x (by simp))

theorem pair {y x : α} (hy : ¬ kind y) (h : leads y x) : Led kind leads [y, x] := by
  intro before x' after heq hx'
  cases before with
  | nil =>
    obtain ⟨rfl, -⟩ := List.cons.inj heq
    exact absurd hx' hy
  | cons first before =>
    obtain ⟨rfl, hrest⟩ := List.cons.inj heq
    cases before with
    | nil =>
      obtain ⟨rfl, -⟩ := List.cons.inj hrest
      exact ⟨[], y, rfl, h⟩
    | cons second before => simp at hrest

theorem append {xs ys : List α} (hxs : Led kind leads xs) (hys : Led kind leads ys) :
    Led kind leads (xs ++ ys) := by
  intro before x after heq hx
  rcases List.append_eq_append_iff.1 heq with ⟨more, rfl, hys'⟩ | ⟨more, hxs', hmore⟩
  · obtain ⟨front, y, rfl, hy⟩ := hys more x after hys' hx
    exact ⟨xs ++ front, y, (List.append_assoc _ _ _).symm, hy⟩
  · cases more with
    | nil =>
      obtain ⟨front, y, hnil, -⟩ := hys [] x after hmore.symm hx
      exact absurd hnil (by simp)
    | cons z more =>
      obtain ⟨rfl, -⟩ := List.cons.inj hmore
      exact hxs before x more hxs' hx

theorem map {f : α → β} {xs : List α} (h : Led kind leads xs)
    (hkind : ∀ x ∈ xs, kind' (f x) → kind x) (hleads : ∀ y x, leads y x → leads' (f y) (f x)) :
    Led kind' leads' (xs.map f) := by
  intro before x after heq hx
  obtain ⟨before', rest', rfl, rfl, hrest⟩ := List.map_eq_append_iff.1 heq
  obtain ⟨x', after', rfl, rfl, -⟩ := List.map_eq_cons_iff.1 hrest
  obtain ⟨front, y, rfl, hy⟩ := h before' x' after' rfl (hkind x' (by simp) hx)
  exact ⟨front.map f, f y, by simp, hleads y x' hy⟩

theorem of_map {f : α → β} {xs : List α} (h : Led kind' leads' (xs.map f)) :
    Led (fun x => kind' (f x)) (fun y x => leads' (f y) (f x)) xs := by
  rintro before x after rfl hx
  obtain ⟨front, y, hbefore, hy⟩ := h (before.map f) (f x) (after.map f) (by simp) hx
  obtain ⟨front', last, rfl, -, hlast⟩ := List.map_eq_append_iff.1 hbefore
  obtain ⟨y', rest, rfl, rfl, hrest⟩ := List.map_eq_cons_iff.1 hlast
  rw [List.map_eq_nil_iff.1 hrest]
  exact ⟨front', y', rfl, hy⟩

end Led

/-! ## An object that may be `null` or `undefined` -/

namespace Text.Line

/-- What a line reports as one of a shape whose lines all report the same problem. -/
theorem findingsAs_of_constant {shape : Shape} {p : Problem} (hunless : shape.rule.unless? = none)
    (hconstant : ∀ fields, shape.rule.contribution fields = .problem p) (line : Line) :
    line.findingsAs shape =
      if (shape.fields? line.text).isSome then [{ problem := p }] else [] := by
  rw [findingsAs, Shape.contribution?, hunless]
  cases shape.fields? line.text with
  | none => rfl
  | some fields =>
    rw [Option.map_some, hconstant]
    rfl

/-- What a line reports as one on an object that may be `null` or `undefined` stands right behind
what it reports as one on an object that may be `null`. -/
theorem led_findings (line : Line) :
    Led (fun f => f.1 = .possiblyNullOrUndefined)
      (fun g f => g = (.possiblyNull, { problem := .possiblyNull }) ∧
        f = (.possiblyNullOrUndefined, { problem := .possiblyNullOrUndefined })) line.findings := by
  have hother (shapes : List Shape) (hshapes : .possiblyNullOrUndefined ∉ shapes) :
      ∀ f ∈ shapes.flatMap fun shape => (line.findingsAs shape).map (shape, ·),
        f.1 ≠ .possiblyNullOrUndefined := by
    intro f hf heq
    obtain ⟨shape, hshape, hmem⟩ := List.mem_flatMap.1 hf
    obtain ⟨finding, -, rfl⟩ := List.mem_map.1 hmem
    exact hshapes (heq ▸ hshape)
  have hall : Shape.all = Shape.all.take 12 ++
      ([.possiblyNull, .possiblyNullOrUndefined] ++ Shape.all.drop 14) := rfl
  rw [findings_eq, hall, List.flatMap_append, List.flatMap_append]
  refine Led.append (Led.of_forall_not (hother _ (by decide)))
    (Led.append ?_ (Led.of_forall_not (hother _ (by decide))))
  rw [List.flatMap_cons, List.flatMap_cons, List.flatMap_nil, List.append_nil,
    findingsAs_of_constant rfl (fun _ => rfl), findingsAs_of_constant rfl (fun _ => rfl)]
  cases hboth : (Shape.possiblyNullOrUndefined.fields? line.text).isSome with
  | false => exact Led.of_forall_not (by split <;> simp)
  | true =>
    rw [Shape.isSome_possiblyNull_fields? hboth]
    exact Led.pair nofun ⟨rfl, rfl⟩

end Text.Line

/-- On the lines of a text every problem about an object that may be `null` or `undefined` stands
right behind one about an object that may be `null`, on the same line. -/
theorem led_sightingsAfter (start ls : List Line) :
    Led (fun s => s.shape = .possiblyNullOrUndefined)
      (fun t s => t = ⟨s.upTo, .possiblyNull, { problem := .possiblyNull }⟩ ∧
        s = ⟨s.upTo, .possiblyNullOrUndefined, { problem := .possiblyNullOrUndefined }⟩)
      (sightingsAfter start ls) := by
  induction ls generalizing start with
  | nil => exact Led.of_forall_not (List.forall_mem_nil _)
  | cons line rest ih =>
    refine Led.append (line.led_findings.map (fun f _ hf => hf) ?_) (ih (start ++ [line]))
    rintro g f ⟨rfl, rfl⟩
    exact ⟨rfl, rfl⟩

namespace Record

/-- A problem of a shape as one of which nothing is contributed is not among the records. -/
theorem problem_ne_of_contribution?_eq_none {p : Problem}
    (h : ∀ line, p.shape.contribution? line = none) {mode : PathMode} {text : String} {r : Record}
    (hr : r ∈ ofText mode text) : r.problem ≠ p := by
  rintro rfl
  obtain ⟨line, -, ⟨shape, finding⟩, hfinding, hproblem⟩ :=
    (exists_mem_ofLines_iff mode _).1 ⟨r, hr, rfl⟩
  obtain ⟨findings, hcontribution, -⟩ := Text.Line.contribution?_of_mem_findings hfinding
  rw [← hproblem, Text.Line.shape_of_mem_findings hfinding] at h
  rw [h] at hcontribution
  cases hcontribution

theorem led_ofText (mode : PathMode) (text : String) :
    Led (fun r => r.problem = .possiblyNullOrUndefined)
      (fun r' r => r'.problem = .possiblyNull ∧ r'.path = r.path) (ofText mode text) := by
  have hmap := map_ofLines (f := fun r => (r.path, r.problem)) (fun _ _ => rfl) mode
    (Text.lines text.toList)
  have hled : Led (fun p : List String × Problem => p.2 = .possiblyNullOrUndefined)
      (fun q p => q.2 = .possiblyNull ∧ q.1 = p.1)
      ((ofText mode text).map fun r => (r.path, r.problem)) := by
    refine hmap ▸ (led_sightingsAfter [] (Text.lines text.toList)).map (fun s hs hproblem => ?_) ?_
    · obtain ⟨line, -, hfinding⟩ := Sighting.exists_mem_findings hs
      rw [← Text.Line.shape_of_mem_findings hfinding]
      exact congrArg Problem.shape hproblem
    · rintro t ⟨upTo, shape, finding⟩ ⟨rfl, hs⟩
      cases hs
      exact ⟨rfl, rfl⟩
  exact hled.of_map

/-- A line that `undefined` or `null` is not assignable to a type always is a line on two types that
do not fit as well, so that it contributes nothing as the former, and no record of any text is about
such a problem. A record that an object may be `null` or `undefined` always comes right after one
that an object may be `null`, with the same path. -/
theorem subsumed_shapes (mode : PathMode) (text : String) :
    (∀ line, (Shape.undefinedNotAssignable.fields? line).isSome ∨
        (Shape.nullNotAssignable.fields? line).isSome →
      (Shape.typeMismatch.fields? line).isSome) ∧
    (∀ line, Shape.undefinedNotAssignable.contribution? line = none ∧
      Shape.nullNotAssignable.contribution? line = none) ∧
    (∀ r ∈ ofText mode text, ∀ target,
      r.problem ≠ .undefinedNotAssignable target ∧ r.problem ≠ .nullNotAssignable target) ∧
    ∀ before r after, ofText mode text = before ++ r :: after →
      r.problem = .possiblyNullOrUndefined →
        ∃ front r', before = front ++ [r'] ∧ r'.problem = .possiblyNull ∧ r'.path = r.path := by
  have hundefined (line : List Char) : Shape.undefinedNotAssignable.contribution? line = none :=
    Shape.contribution?_eq_none_of_subsumed rfl fun h => Shape.isSome_typeMismatch_fields? (.inl h)
  have hnull (line : List Char) : Shape.nullNotAssignable.contribution? line = none :=
    Shape.contribution?_eq_none_of_subsumed rfl fun h => Shape.isSome_typeMismatch_fields? (.inr h)
  refine ⟨fun line h => Shape.isSome_typeMismatch_fields? h,
    fun line => ⟨hundefined line, hnull line⟩, fun r hr target => ⟨?_, ?_⟩, led_ofText mode text⟩
  · exact problem_ne_of_contribution?_eq_none (p := .undefinedNotAssignable target) hundefined hr
  · exact problem_ne_of_contribution?_eq_none (p := .nullNotAssignable target) hnull hr

end Record

end Diagnosis
