import Diagnosis.Proofs.Sections

/-!
# An object literal read by cutting

The reader of an object literal goes through the body once and decides at every character with what
it has counted and collected so far. What it reads can be said without a reader: give every
character the balance of the brackets up to it, cut the body at the semicolons with balance zero and
each piece at its first colon with balance zero (`ObjectLiteral.entries`). A piece that a semicolon
ended counts if it has a name, the last one only if it has a type as well. Writing the properties of
these entries one after the other gives the object type that is read, for every text
(`ObjectLiteral.read_eq_entries`).

The reader starts to count anew in no section and yet counts right in each of them, because the
balance is zero wherever a section ends. That is why the pieces are the sections
(`ObjectLiteral.pieces_eq`).
-/

namespace Diagnosis.ObjectLiteral

open Text (strip)

/-! ## Pieces -/

/-- The characters of a text, each with the balance of the text up to it, itself included. -/
def withBalance (cs : List Char) : List (Char × Int) :=
  cs.zipIdx.map fun (c, i) => (c, balance (cs.take (i + 1)))

/-- The pieces between the semicolons with balance zero. -/
def pieces (cs : List Char) : List (List (Char × Int)) := (withBalance cs).splitOn (';', 0)

/-- The texts before and after the colon of a piece. -/
structure Entry where
  /-- What stands before the colon. -/
  label : List Char
  /-- What stands after the colon. -/
  value : List Char
  deriving DecidableEq

namespace Entry

/-- The entry of a piece, which ends its label at the first colon with balance zero. A piece without
one has none. -/
def ofPiece? (piece : List (Char × Int)) : Option Entry :=
  match piece.dropWhile (· != (':', 0)) with
  | [] => none
  | _ :: value => some ⟨(piece.takeWhile (· != (':', 0))).map Prod.fst, value.map Prod.fst⟩

/-- The property that an entry writes. -/
def property (e : Entry) : Property where
  name := (Label.ofText e.label).name
  optional := (Label.ofText e.label).optional
  valueType := String.ofList (strip e.value)

/-- Whether an entry has a name. -/
def named (e : Entry) : Bool := e.property.name ≠ ""

/-- Whether an entry has a type. -/
def typed (e : Entry) : Bool := e.property.valueType ≠ ""

end Entry

/-- The entries of a body that count: those with a name that end at a semicolon, and the last one if
it has a name and a type. -/
def entries (cs : List Char) : List Entry :=
  ((pieces cs).dropLast.filterMap Entry.ofPiece?).filter Entry.named ++
    ((pieces cs).getLast?.bind Entry.ofPiece?).toList.filter fun e => e.named && e.typed

/-! ## Pieces are sections -/

/-- The characters of a text with their balances, when the text starts at some depth. -/
def withDepth (depth : Int) : List Char → List (Char × Int)
  | [] => []
  | c :: rest => (c, depth + bracketStep c) :: withDepth (depth + bracketStep c) rest

theorem withBalance_eq (cs : List Char) : withBalance cs = withDepth 0 cs := by
  have hdepth (depth : Int) (cs : List Char) :
      (cs.zipIdx.map fun (c, i) => (c, depth + net (cs.take (i + 1)))) = withDepth depth cs := by
    induction cs generalizing depth with
    | nil => rfl
    | cons c rest ih =>
      rw [List.zipIdx_cons', List.map_cons, List.map_map, withDepth, ← ih]
      simp [Function.comp_def, Int.add_assoc]
  have hzero := hdepth 0 cs
  simp only [Int.zero_add, net_eq_balance] at hzero
  exact hzero

theorem map_fst_withDepth (depth : Int) (cs : List Char) :
    (withDepth depth cs).map Prod.fst = cs := by
  induction cs generalizing depth with
  | nil => rfl
  | cons c rest ih => rw [withDepth, List.map_cons, ih]

theorem splitOn_withDepth {depth : Int} {cs first : List Char} {rest : List (List Char)}
    (h : sections depth cs = first :: rest) :
    (withDepth depth cs).splitOn (';', 0) = withDepth depth first :: rest.map (withDepth 0) := by
  induction cs generalizing depth first rest with
  | nil =>
    cases h
    rfl
  | cons c cs ih =>
    obtain ⟨next, others, hsections⟩ :=
      List.exists_cons_of_ne_nil (sections_ne_nil (depth + bracketStep c) cs)
    have hcut := ih hsections
    rw [List.splitOn_eq_splitOnP] at hcut
    rw [sections, hsections] at h
    rw [withDepth, List.splitOn_eq_splitOnP, List.splitOnP_cons_eq_if_modifyHead, hcut]
    by_cases hc : depth + bracketStep c = 0 ∧ c = ';'
    · rw [if_pos hc] at h
      cases h
      rw [hc.1, hc.2]
      rfl
    · rw [if_neg hc] at h
      cases h
      have hmark : ¬ ((c, depth + bracketStep c) == (';', 0)) = true := by
        simpa [and_comm] using hc
      rw [if_neg hmark]
      rfl

/-- The pieces are the sections, each with its own balances. -/
theorem pieces_eq (cs : List Char) : pieces cs = (sections 0 cs).map (withDepth 0) := by
  obtain ⟨first, rest, hsections⟩ := List.exists_cons_of_ne_nil (sections_ne_nil 0 cs)
  rw [pieces, withBalance_eq, splitOn_withDepth hsections, hsections]
  rfl

namespace Entry

theorem ofPiece?_withDepth (depth : Int) (sec : List Char) :
    ofPiece? (withDepth depth sec) = (splitLabel? depth sec).map fun p => ⟨p.1, p.2⟩ := by
  induction sec generalizing depth with
  | nil => rfl
  | cons c rest ih =>
    have hrest := ih (depth + bracketStep c)
    rw [withDepth, splitLabel?]
    by_cases hc : depth + bracketStep c = 0 ∧ c = ':'
    · rw [if_pos hc, hc.1, hc.2]
      simp [ofPiece?, map_fst_withDepth]
    · rw [if_neg hc, Option.map_map]
      have hmark : ((c, depth + bracketStep c) != (':', 0)) = true := by
        simpa [and_comm] using hc
      unfold ofPiece? at hrest ⊢
      rw [List.dropWhile_cons, List.takeWhile_cons, if_pos hmark, if_pos hmark]
      cases hsplit : splitLabel? (depth + bracketStep c) rest with
      | none =>
        rw [hsplit] at hrest
        split at hrest
        · rfl
        · cases hrest
      | some p =>
        rw [hsplit] at hrest
        split at hrest
        · cases hrest
        · obtain ⟨hlabel, hvalue⟩ := Entry.mk.inj (Option.some.inj hrest)
          simp [hlabel, hvalue]

/-- The entry of a section. -/
def ofSection? (sec : List Char) : Option Entry := ofPiece? (withDepth 0 sec)

theorem property_eq_of_ofSection? {sec : List Char} {e : Entry} (h : ofSection? sec = some e)
    (object : ObjectType) :
    (Reader.inSection object sec).label = some ⟨e.property.name, e.property.optional⟩ ∧
      (Reader.inSection object sec).value = e.property.valueType := by
  rw [ofSection?, ofPiece?_withDepth] at h
  obtain ⟨p, hsplit, rfl⟩ := Option.map_eq_some_iff.1 h
  constructor
  · rw [Reader.inSection, label?, hsplit]
    rfl
  · rw [Reader.value, Reader.inSection, afterLabel, hsplit, List.reverse_reverse]
    rfl

theorem label_eq_none_of_ofSection? {sec : List Char} (h : ofSection? sec = none)
    (object : ObjectType) : (Reader.inSection object sec).label = none := by
  rw [ofSection?, ofPiece?_withDepth, Option.map_eq_none_iff] at h
  rw [Reader.inSection, label?, h]
  rfl

end Entry

/-! ## Reading is writing the entries -/

namespace Reader

/-- A section that is complete writes its entry if that has a name. -/
theorem addSection_eq (object : ObjectType) (sec : List Char) :
    addSection object sec =
      (((Entry.ofSection? sec).toList.filter Entry.named).map Entry.property).foldl
        ObjectType.insert object := by
  unfold addSection withCurrent
  cases he : Entry.ofSection? sec with
  | none =>
    rw [Entry.label_eq_none_of_ofSection? he]
    rfl
  | some e =>
    obtain ⟨hlabel, hvalue⟩ := Entry.property_eq_of_ofSection? he object
    rw [hlabel, hvalue]
    by_cases hname : e.property.name = ""
    · simp [Entry.named, hname, inSection]
    · simp [Entry.named, hname, inSection]

theorem foldl_addSection (object : ObjectType) (secs : List (List Char)) :
    secs.foldl addSection object =
      (((secs.filterMap Entry.ofSection?).filter Entry.named).map Entry.property).foldl
        ObjectType.insert object := by
  induction secs generalizing object with
  | nil => rfl
  | cons sec rest ih =>
    have hcons : (sec :: rest).filterMap Entry.ofSection? =
        (Entry.ofSection? sec).toList ++ rest.filterMap Entry.ofSection? := by
      cases he : Entry.ofSection? sec with
      | none => rw [List.filterMap_cons_none he]; rfl
      | some e => rw [List.filterMap_cons_some he]; rfl
    rw [List.foldl_cons, ih, addSection_eq, hcons, List.filter_append, List.map_append,
      List.foldl_append]

/-- The last section writes its entry if that has a name and a type. -/
theorem finish_inSection (object : ObjectType) (sec : List Char) :
    (inSection object sec).finish =
      (((Entry.ofSection? sec).toList.filter fun e => e.named && e.typed).map
        Entry.property).foldl ObjectType.insert object := by
  have hadd := addSection_eq object sec
  unfold finish
  cases he : Entry.ofSection? sec with
  | none =>
    rw [he] at hadd
    -- without a label nothing is written, whatever was collected
    have hcurrent : (inSection object sec).withCurrent = object := hadd
    have hobject : (inSection object sec).object = object := rfl
    rw [hcurrent, hobject, ite_self]
    rfl
  | some e =>
    obtain ⟨-, hvalue⟩ := Entry.property_eq_of_ofSection? he object
    rw [he] at hadd
    have hcurrent : (inSection object sec).withCurrent =
        (([e].filter Entry.named).map Entry.property).foldl ObjectType.insert object := hadd
    rw [hvalue, hcurrent]
    by_cases htype : e.property.valueType = ""
    · have htyped : e.typed = false := by simp [Entry.typed, htype]
      simp [htype, htyped, inSection]
    · have htyped : e.typed = true := by simp [Entry.typed, htype]
      simp [htype, htyped, List.filter_cons]

/-- Reading a body writes the properties of its entries. -/
theorem finish_foldl_step (cs : List Char) :
    (cs.foldl step {}).finish =
      ((entries cs).map Entry.property).foldl ObjectType.insert .empty := by
  obtain ⟨front, last, hsections, -, -, hread⟩ := exists_sections cs
  have hpieces : pieces cs = front.map (withDepth 0) ++ [withDepth 0 last] := by
    rw [pieces_eq, hsections, List.map_append, List.map_singleton]
  have hfront : (front.map (withDepth 0)).filterMap Entry.ofPiece? =
      front.filterMap Entry.ofSection? := List.filterMap_map
  rw [hread, finish_inSection, foldl_addSection, entries, hpieces, List.dropLast_concat,
    List.getLast?_concat, hfront, List.map_append, List.foldl_append]
  rfl

end Reader

/-! ## The body -/

/-- Whether a text is what another one holds between two braces, of which each may be absent. Blanks
at the ends do not count. -/
def IsInner (text inner : List Char) : Prop :=
  ∃ opened,
    (strip text = '{' :: opened ∨ (strip text).head? ≠ some '{' ∧ strip text = opened) ∧
    (opened = inner ++ ['}'] ∨ opened.getLast? ≠ some '}' ∧ opened = inner)

theorem isInner_body (text : List Char) : IsInner text (body text) := by
  have hclosed (opened : List Char) :
      opened = (if opened.getLast? == some '}' then opened.dropLast else opened) ++ ['}'] ∨
        opened.getLast? ≠ some '}' ∧
          opened = if opened.getLast? == some '}' then opened.dropLast else opened := by
    by_cases hlast : opened.getLast? = some '}'
    · rw [if_pos (beq_iff_eq.2 hlast)]
      exact Or.inl (List.dropLast_append_getLast? '}' hlast).symm
    · rw [if_neg (mt beq_iff_eq.1 hlast)]
      exact Or.inr ⟨hlast, rfl⟩
  unfold body
  split
  · next rest hstrip => exact ⟨rest, Or.inl hstrip, hclosed rest⟩
  · next hother =>
    refine ⟨strip text, Or.inr ⟨?_, rfl⟩, hclosed _⟩
    intro hhead
    obtain ⟨rest, hrest⟩ := List.head?_eq_some_iff.1 hhead
    exact hother rest hrest

/-- The object type that is read of a text is the one that comes about when the properties of the
entries of its body are written one after the other. -/
theorem read_eq_entries (text : List Char) :
    IsInner text (body text) ∧
      read text = ((entries (body text)).map Entry.property).foldl ObjectType.insert .empty := by
  refine ⟨isInner_body text, ?_⟩
  rw [read, Reader.finish_foldl_step]

/-- An arrow closes a bracket that nothing opened, and no semicolon after it has balance zero. -/
example :
    (entries (body "\x7b f: () => void; g: string \x7d".toList)).map Entry.property =
      [⟨"f", false, "() => void; g: string"⟩] := by
  decide +kernel

end Diagnosis.ObjectLiteral
