import Diagnosis.Proofs.Parts
import Diagnosis.Proofs.Sections
import Diagnosis.TypeText.Basic

/-!
# The parts of an object literal

The reader of an object literal collects characters one by one and drops what it has collected at
each colon and semicolon that counts. What it holds between them are sections of the text, and these
are contiguous (`ObjectLiteral.intercalate_sections`). So the type of every property is a part of
the text as well, and its name is one up to the question mark that is left out
(`ObjectLiteral.takenFrom_of_mem_read`).
-/

namespace Diagnosis

/-- Whether a property is taken from a text: its type is a part of the text, and its name is a part
without the first question mark. -/
structure Property.TakenFrom (cs : List Char) (p : Property) : Prop where
  name : ∃ label, label <:+: cs ∧ p.name.toList = label.erase '?'
  valueType : p.valueType.toList <:+: cs

theorem Property.TakenFrom.mono {cs ds : List Char} {p : Property} (h : p.TakenFrom cs)
    (hcs : cs <:+: ds) : p.TakenFrom ds := by
  obtain ⟨label, hlabel, hname⟩ := h.name
  exact ⟨⟨label, hlabel.trans hcs, hname⟩, h.valueType.trans hcs⟩

theorem Property.eq_or_mem_of_mem_put {p q : Property} {ps : List Property} (h : q ∈ p.put ps) :
    q = p ∨ q ∈ ps := by
  induction ps with
  | nil => exact Or.inl (List.mem_singleton.1 h)
  | cons r rest ih =>
    rw [put] at h
    split at h
    · exact (List.mem_cons.1 h).imp_right (List.mem_cons_of_mem r)
    · rcases List.mem_cons.1 h with rfl | h
      · exact Or.inr List.mem_cons_self
      · exact (ih h).imp_right (List.mem_cons_of_mem r)

namespace ObjectLiteral

/-! ## Sections are parts -/

/-- The sections with the semicolons between them are the text. -/
theorem intercalate_sections (depth : Int) (cs : List Char) :
    [';'].intercalate (sections depth cs) = cs := by
  induction cs generalizing depth with
  | nil => rfl
  | cons c rest ih =>
    obtain ⟨sec, secs, hsections⟩ :=
      List.exists_cons_of_ne_nil (sections_ne_nil (depth + bracketStep c) rest)
    have hrest := ih (depth + bracketStep c)
    rw [hsections] at hrest
    rw [sections, hsections]
    split
    · next hc =>
      rw [List.intercalate_cons_cons, hrest, hc.2]
      rfl
    · cases secs with
      | nil => simpa using hrest
      | cons next secs => simpa [List.intercalate_cons_cons] using hrest

theorem infix_of_mem_sections {depth : Int} {cs sec : List Char} (h : sec ∈ sections depth cs) :
    sec <:+: cs := by
  have hpart := Text.infix_intercalate_of_mem h [';']
  rwa [intercalate_sections] at hpart

theorem eq_of_splitLabel? {depth : Int} {cs : List Char} {p : List Char × List Char}
    (h : splitLabel? depth cs = some p) : cs = p.1 ++ ':' :: p.2 := by
  induction cs generalizing depth p with
  | nil => cases h
  | cons c rest ih =>
    rw [splitLabel?] at h
    split at h
    · next hc =>
      cases h
      rw [hc.2]
      rfl
    · obtain ⟨q, hq, rfl⟩ := Option.map_eq_some_iff.1 h
      exact congrArg (c :: ·) (ih hq)

theorem afterLabel_suffix (sec : List Char) : afterLabel sec <:+ sec := by
  unfold afterLabel
  cases h : splitLabel? 0 sec with
  | none => exact List.suffix_refl sec
  | some p =>
    rw [Option.elim_some]
    exact ⟨p.1 ++ [':'], by rw [eq_of_splitLabel? h]; simp⟩

/-- A label stands in front of its section's first colon that counts. -/
theorem name_of_label? {sec : List Char} {label : Label} (h : label? sec = some label) :
    ∃ raw, raw <:+: sec ∧ label.name.toList = raw.erase '?' := by
  obtain ⟨p, hsplit, rfl⟩ := Option.map_eq_some_iff.1 h
  have hfront : p.1 <:+: sec := by
    rw [eq_of_splitLabel? hsplit]
    exact (List.prefix_append _ _).isInfix
  exact ⟨Text.strip p.1, (Text.infix_strip _).trans hfront, String.toList_ofList⟩

theorem infix_body (cs : List Char) : body cs <:+: cs := by
  have hopened (opened : List Char) (h : opened <:+: cs) :
      (if opened.getLast? == some '}' then opened.dropLast else opened) <:+: cs := by
    split
    · exact (List.dropLast_prefix _).isInfix.trans h
    · exact h
  rw [body]
  split
  · next rest hstrip =>
    refine hopened rest (List.IsInfix.trans ?_ (Text.infix_strip cs))
    rw [hstrip]
    exact (List.suffix_cons _ _).isInfix
  · exact hopened _ (Text.infix_strip cs)

/-! ## Properties that are read -/

namespace Reader

variable {cs : List Char} {object : ObjectType}

theorem takenFrom_addSection (hobject : ∀ p ∈ object.properties, p.TakenFrom cs) {sec : List Char}
    (hsec : sec <:+: cs) : ∀ p ∈ (addSection object sec).properties, p.TakenFrom cs := by
  rw [addSection, withCurrent]
  split
  · next label hlabel =>
    split
    · exact hobject
    · intro p hp
      rw [ObjectType.properties_insert] at hp
      rcases Property.eq_or_mem_of_mem_put hp with rfl | hp
      · obtain ⟨raw, hraw, hname⟩ := name_of_label? hlabel
        refine ⟨⟨raw, hraw.trans hsec, hname⟩, ?_⟩
        rw [value, String.toList_ofList]
        show Text.strip (afterLabel sec).reverse.reverse <:+: cs
        rw [List.reverse_reverse]
        exact ((Text.infix_strip _).trans (afterLabel_suffix sec).isInfix).trans hsec
      · exact hobject p hp
  · exact hobject

theorem takenFrom_foldl_addSection (hobject : ∀ p ∈ object.properties, p.TakenFrom cs)
    {secs : List (List Char)} (hsecs : ∀ sec ∈ secs, sec <:+: cs) :
    ∀ p ∈ (secs.foldl addSection object).properties, p.TakenFrom cs := by
  induction secs generalizing object with
  | nil => exact hobject
  | cons sec rest ih =>
    obtain ⟨hsec, hrest⟩ := List.forall_mem_cons.1 hsecs
    exact ih (takenFrom_addSection hobject hsec) hrest

end Reader

/-- The properties that are read of a text are taken from it. -/
theorem takenFrom_of_mem_read {cs : List Char} {p : Property} (h : p ∈ (read cs).properties) :
    p.TakenFrom cs := by
  obtain ⟨front, last, hsections, -, -, hread⟩ := Reader.exists_sections (body cs)
  have hparts : ∀ sec ∈ front ++ [last], sec <:+: body cs := by
    intro sec hsec
    rw [← hsections] at hsec
    exact infix_of_mem_sections hsec
  obtain ⟨hfront, hlast⟩ := List.forall_mem_append.1 hparts
  have hempty : ∀ q ∈ ObjectType.empty.properties, q.TakenFrom (body cs) :=
    fun q hq => absurd hq List.not_mem_nil
  have hcomplete := Reader.takenFrom_foldl_addSection hempty hfront
  rw [read, hread, Reader.finish] at h
  refine Property.TakenFrom.mono ?_ (infix_body cs)
  split at h
  · exact hcomplete p h
  · exact Reader.takenFrom_addSection hcomplete (hlast last List.mem_cons_self) p h

end ObjectLiteral

/-! ## The characters of what is read -/

/-- Whether all characters of a property come from a text. -/
def Property.Within (cs : List Char) (p : Property) : Prop :=
  p.name.toList ⊆ cs ∧ p.valueType.toList ⊆ cs

theorem Property.TakenFrom.within {cs : List Char} {p : Property} (h : p.TakenFrom cs) :
    p.Within cs := by
  obtain ⟨label, hlabel, hname⟩ := h.name
  refine ⟨?_, h.valueType.subset⟩
  rw [hname]
  exact fun c hc => hlabel.subset (List.erase_subset hc)

theorem TypeText.within_of_mem_properties {s : String} {p : Property}
    (h : p ∈ (ofString s).properties) : p.Within s.toList := by
  rw [ofString] at h
  split at h
  · next rest hstrip =>
    rw [← hstrip] at h
    exact ((ObjectLiteral.takenFrom_of_mem_read h).mono (Text.infix_strip _)).within
  · cases h

end Diagnosis
