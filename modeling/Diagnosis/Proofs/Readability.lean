import Diagnosis.Json.Text
import Diagnosis.Proofs.WordingLaws
import Mathlib.Data.List.Basic

/-!
# Unique readability of JSON texts

The text of a JSON value tells the value. It is read from the front: what a text begins with tells
the form of its value (`form?_write`), a string ends at the first quotation mark that is not
escaped, a number where its digits end, and an array or object at its closing bracket, where
anything else would be a comma.

Since texts stand inside of other texts, the statement that goes through the induction is about a
text with something after it (`Readable`). The only thing that may not follow is a digit, by which
a number would go on. The layout plays no part as long as it breaks lines by blanks.
-/

namespace Diagnosis.Json

/-- Whether a text does not begin with a digit. -/
def NoDigitFirst (rest : List Char) : Prop := ∀ c ∈ rest.head?, c.isDigit = false

/-- Whether a thing and what follows it are told by its text, unless a digit follows. -/
def Readable {α : Type} (text : α → List Char) (x : α) : Prop :=
  ∀ (y : α) (rest rest' : List Char), NoDigitFirst rest → NoDigitFirst rest' →
    text x ++ rest = text y ++ rest' → x = y ∧ rest = rest'

/-! ## Strings -/

/-- The value of a hexadecimal digit. -/
def hexValue (c : Char) : Nat := if c.isDigit then c.toNat - '0'.toNat else c.toNat - 'a'.toNat + 10

/-- The character that is escaped by a letter. -/
def ofLetter : Char → Char
  | 'n' => '\n'
  | 'r' => '\r'
  | 't' => '\t'
  | 'b' => '\x08'
  | 'f' => '\x0c'
  | c => c

/-- Reads a character of a string, unless the string ends here. -/
def unescape? : List Char → Option (Char × List Char)
  | '"' :: _ => none
  | '\\' :: 'u' :: _ :: _ :: high :: low :: rest =>
    some (Char.ofNat (16 * hexValue high + hexValue low), rest)
  | '\\' :: letter :: rest => some (ofLetter letter, rest)
  | c :: rest => some (c, rest)
  | [] => none

theorem hexValue_hexDigit : ∀ n < 16, hexValue (hexDigit n) = n := by decide

theorem unescape?_escaped (c : Char) (rest : List Char) :
    unescape? (escaped c ++ rest) = some (c, rest) := by
  unfold escaped
  split_ifs with hquote hbackslash hfeed hreturn htab hback hform hcontrol
  · rw [hquote]; rfl
  · rw [hbackslash]; rfl
  · rw [hfeed]; rfl
  · rw [hreturn]; rfl
  · rw [htab]; rfl
  · rw [hback]; rfl
  · rw [hform]; rfl
  · have hvalue : 16 * hexValue (hexDigit (c.toNat / 16)) + hexValue (hexDigit (c.toNat % 16)) =
        c.toNat := by
      rw [hexValue_hexDigit _ (by omega), hexValue_hexDigit _ (by omega)]
      omega
    have hc : Char.ofNat c.toNat = c := Char.ofNat_toNat c
    simp only [List.cons_append, List.nil_append, unescape?, hvalue, hc]
  · rw [List.singleton_append, unescape?]
    all_goals simp [hquote, hbackslash]

theorem escaped_body_inj {cs ds rest rest' : List Char}
    (h : cs.flatMap escaped ++ '"' :: rest = ds.flatMap escaped ++ '"' :: rest') :
    cs = ds ∧ rest = rest' := by
  have hread := congrArg unescape? h
  induction cs generalizing ds with
  | nil =>
    cases ds with
    | nil => exact ⟨rfl, List.tail_eq_of_cons_eq h⟩
    | cons d ds =>
      rw [List.flatMap_cons, List.append_assoc, unescape?_escaped] at hread
      cases hread
  | cons c cs ih =>
    cases ds with
    | nil =>
      rw [List.flatMap_cons, List.append_assoc, unescape?_escaped] at hread
      cases hread
    | cons d ds =>
      rw [List.flatMap_cons, List.flatMap_cons, List.append_assoc, List.append_assoc,
        unescape?_escaped, unescape?_escaped] at hread
      obtain ⟨rfl, htail⟩ := Prod.mk.inj (Option.some.inj hread)
      obtain ⟨rfl, hrest⟩ := ih htail (congrArg unescape? htail)
      exact ⟨rfl, hrest⟩

theorem quoted_append (s : String) (rest : List Char) :
    quoted s ++ rest = '"' :: (s.toList.flatMap escaped ++ '"' :: rest) := by
  simp [quoted]

/-- A string ends at the first quotation mark that is not escaped. -/
theorem quoted_inj {s t : String} {rest rest' : List Char}
    (h : quoted s ++ rest = quoted t ++ rest') : s = t ∧ rest = rest' := by
  rw [quoted_append, quoted_append] at h
  obtain ⟨hbody, hrest⟩ := escaped_body_inj (List.tail_eq_of_cons_eq h)
  exact ⟨String.toList_injective hbody, hrest⟩

/-! ## Numbers -/

theorem isDigit_of_mem_toDigits (n : Nat) : ∀ c ∈ Nat.toDigits 10 n, c.isDigit = true :=
  fun _ hc => Nat.isDigit_of_mem_toDigits (by decide) (by decide) hc

/-- A number ends where its digits end. -/
theorem toDigits_inj {n m : Nat} {rest rest' : List Char} (hrest : NoDigitFirst rest)
    (hrest' : NoDigitFirst rest') (h : Nat.toDigits 10 n ++ rest = Nat.toDigits 10 m ++ rest') :
    n = m ∧ rest = rest' := by
  have hread := congrArg (Piece.field Char.isDigit).read? h
  rw [Piece.read?_field Nat.toDigits_ne_nil (isDigit_of_mem_toDigits n) hrest,
    Piece.read?_field Nat.toDigits_ne_nil (isDigit_of_mem_toDigits m) hrest'] at hread
  obtain ⟨hrun, hrest⟩ := Prod.mk.inj (Option.some.inj hread)
  have hdigits := String.ofList_injective (List.head_eq_of_cons_eq hrun)
  have hvalue := congrArg (Nat.ofDigitChars 10 · 0) hdigits
  simp only [Nat.ofDigitChars_toDigits (by decide : 1 < 10) (by decide)] at hvalue
  exact ⟨hvalue, hrest⟩

/-! ## Forms -/

/-- What can be told of a value from the first character of its text. -/
inductive Form where
  /-- The null value. -/
  | null
  /-- A truth value. -/
  | bool (value : Bool)
  /-- Some number. -/
  | num
  /-- Some string. -/
  | str
  /-- Some array. -/
  | arr
  /-- Some object. -/
  | obj
  deriving DecidableEq

/-- The form of a value. -/
def form : Json → Form
  | null => .null
  | bool b => .bool b
  | num _ => .num
  | str _ => .str
  | arr _ => .arr
  | obj _ => .obj

/-- The form of the value at the front of a text, if there is one. -/
def form? : List Char → Option Form
  | 'n' :: _ => some .null
  | 't' :: _ => some (.bool true)
  | 'f' :: _ => some (.bool false)
  | '"' :: _ => some .str
  | '[' :: _ => some .arr
  | '{' :: _ => some .obj
  | c :: _ => if c.isDigit then some .num else none
  | [] => none

theorem form?_of_isDigit {c : Char} (h : c.isDigit = true) (rest : List Char) :
    form? (c :: rest) = some .num := by
  unfold form?
  split <;> simp_all

theorem bracketed_eq_cons (layout : Layout) (depth : Nat) (opening closing : Char)
    (items : List (List Char)) :
    ∃ more, bracketed layout depth opening closing items = opening :: more := by
  cases items with
  | nil => exact ⟨_, rfl⟩
  | cons item items => exact ⟨_, rfl⟩

/-- The text of a value begins as the form of the value tells. -/
theorem form?_write (layout : Layout) (depth : Nat) (v : Json) (rest : List Char) :
    form? (write layout depth v ++ rest) = some v.form := by
  cases v with
  | null => rfl
  | bool b => cases b <;> rfl
  | num n =>
    rw [write]
    have hdigit : ∀ c ∈ Nat.toDigits 10 n, c.isDigit = true := isDigit_of_mem_toDigits n
    cases hdigits : Nat.toDigits 10 n with
    | nil => exact absurd hdigits Nat.toDigits_ne_nil
    | cons c digits =>
      rw [hdigits] at hdigit
      exact form?_of_isDigit (hdigit c List.mem_cons_self) _
  | str s => rfl
  | arr elements =>
    obtain ⟨more, hmore⟩ := bracketed_eq_cons layout depth '[' ']'
      (writeElements layout (depth + 1) elements)
    rw [write, hmore]
    rfl
  | obj members =>
    obtain ⟨more, hmore⟩ := bracketed_eq_cons layout depth '{' '}'
      (writeMembers layout (depth + 1) members)
    rw [write, hmore]
    rfl

/-! ## Arrays and objects -/

/-- Whether a layout breaks lines by white space only. -/
def Layout.IsSpaced (layout : Layout) : Prop :=
  ∀ depth, ∀ c ∈ layout.lineBreak depth, c.isWhitespace = true

theorem Layout.isSpaced_compact : Layout.compact.IsSpaced := fun _ => List.forall_mem_nil _

theorem Layout.isSpaced_indented : Layout.indented.IsSpaced := by
  intro depth c hc
  rcases List.mem_cons.1 hc with rfl | hc
  · rfl
  · rw [List.eq_of_mem_replicate hc]
    rfl

/-- What stands after the first item between brackets: the other items, each behind a comma, and the
closing bracket. -/
def afterItem (layout : Layout) (depth : Nat) (closing : Char) (items : List (List Char)) :
    List Char :=
  items.flatMap (fun item => ',' :: (layout.lineBreak (depth + 1) ++ item)) ++
    (layout.lineBreak depth ++ [closing])

theorem afterItem_nil_append (layout : Layout) (depth : Nat) (closing : Char) (rest : List Char) :
    afterItem layout depth closing [] ++ rest = layout.lineBreak depth ++ closing :: rest := by
  simp [afterItem]

theorem afterItem_cons_append (layout : Layout) (depth : Nat) (closing : Char) (item : List Char)
    (items : List (List Char)) (rest : List Char) :
    afterItem layout depth closing (item :: items) ++ rest =
      ',' :: (layout.lineBreak (depth + 1) ++
        (item ++ (afterItem layout depth closing items ++ rest))) := by
  simp [afterItem]

theorem intercalate_cons_eq_flatMap {α : Type} (sep : α) (first : List α) (others : List (List α)) :
    [sep].intercalate (first :: others) = first ++ others.flatMap (sep :: ·) := by
  induction others generalizing first with
  | nil => simp
  | cons next others ih =>
    rw [List.intercalate_cons_cons, ih, List.flatMap_cons, List.append_assoc]
    rfl

theorem bracketed_cons_append (layout : Layout) (depth : Nat) (opening closing : Char)
    (item : List Char) (items : List (List Char)) (rest : List Char) :
    bracketed layout depth opening closing (item :: items) ++ rest =
      opening :: (layout.lineBreak (depth + 1) ++
        (item ++ (afterItem layout depth closing items ++ rest))) := by
  rw [bracketed, List.map_cons, intercalate_cons_eq_flatMap, List.flatMap_map, afterItem]
  · simp only [List.cons_append, List.nil_append, List.append_assoc]
  · exact List.cons_ne_nil item items

section Bracketed

variable {layout : Layout} {depth : Nat} {opening closing : Char}

theorem isWhitespace_or_eq_of_lineBreak (hlayout : layout.IsSpaced) {c x : Char}
    {rest rest' : List Char} (h : layout.lineBreak depth ++ x :: rest = c :: rest') :
    c.isWhitespace = true ∨ c = x := by
  cases hbreak : layout.lineBreak depth with
  | nil =>
    rw [hbreak] at h
    exact Or.inr (List.head_eq_of_cons_eq h).symm
  | cons b more =>
    have hblank := hlayout depth b (by rw [hbreak]; exact List.mem_cons_self)
    rw [hbreak] at h
    rw [← List.head_eq_of_cons_eq h]
    exact Or.inl hblank

theorem of_isWhitespace_or_mem {c : Char} (h : c.isWhitespace = true ∨ c ∈ [']', '}']) :
    c.isDigit = false ∧ c ≠ ',' ∧ ∀ rest, form? (c :: rest) = none := by
  rcases h with h | h
  · simp only [Char.isWhitespace, Bool.or_eq_true, decide_eq_true_eq] at h
    rcases h with ((rfl | rfl) | rfl) | rfl <;> exact ⟨rfl, by decide, fun _ => rfl⟩
  · rcases List.mem_pair.1 h with rfl | rfl <;> exact ⟨rfl, by decide, fun _ => rfl⟩

variable (hlayout : layout.IsSpaced) (hclosing : closing ∈ [']', '}'])
include hlayout hclosing

/-- A closing bracket is not taken for a digit or a comma, nor is the white space in front of it. -/
theorem of_lineBreak_closing {c : Char} {rest rest' : List Char}
    (h : layout.lineBreak depth ++ closing :: rest = c :: rest') : c.isDigit = false ∧ c ≠ ',' := by
  have hc : c.isWhitespace = true ∨ c ∈ [']', '}'] := by
    rcases isWhitespace_or_eq_of_lineBreak hlayout h with hc | rfl
    · exact Or.inl hc
    · exact Or.inr hclosing
  obtain ⟨hdigit, hcomma, -⟩ := of_isWhitespace_or_mem hc
  exact ⟨hdigit, hcomma⟩

theorem noDigitFirst_afterItem (items : List (List Char)) (rest : List Char) :
    NoDigitFirst (afterItem layout depth closing items ++ rest) := by
  intro c hc
  obtain ⟨rest', htext⟩ := List.head?_eq_some_iff.1 (Option.mem_def.1 hc)
  cases items with
  | nil =>
    rw [afterItem_nil_append] at htext
    exact (of_lineBreak_closing hlayout hclosing htext).1
  | cons item items =>
    rw [afterItem_cons_append] at htext
    rw [← List.head_eq_of_cons_eq htext]
    rfl

variable {α : Type} {text : α → List Char} {xs ys : List α} {rest rest' : List Char}

/-- After an item a comma tells that there is one more, and whatever else that there is none. -/
theorem afterItem_inj (hxs : ∀ x ∈ xs, Readable text x)
    (h : afterItem layout depth closing (xs.map text) ++ rest =
      afterItem layout depth closing (ys.map text) ++ rest') : xs = ys ∧ rest = rest' := by
  have hdigit : ∀ items rest, NoDigitFirst (afterItem layout depth closing items ++ rest) :=
    noDigitFirst_afterItem hlayout hclosing
  induction xs generalizing ys with
  | nil =>
    cases ys with
    | nil => exact ⟨rfl, List.append_cancel_left h⟩
    | cons y ys =>
      rw [List.map_nil, List.map_cons, afterItem_nil_append, afterItem_cons_append] at h
      exact absurd rfl (of_lineBreak_closing hlayout hclosing h).2
  | cons x xs ih =>
    obtain ⟨hx, hxs⟩ := List.forall_mem_cons.1 hxs
    cases ys with
    | nil =>
      rw [List.map_nil, List.map_cons, afterItem_nil_append, afterItem_cons_append] at h
      exact absurd rfl (of_lineBreak_closing hlayout hclosing h.symm).2
    | cons y ys =>
      rw [List.map_cons, List.map_cons, afterItem_cons_append, afterItem_cons_append] at h
      have hitem := List.append_cancel_left (List.tail_eq_of_cons_eq h)
      obtain ⟨rfl, hothers⟩ := hx y _ _ (hdigit _ _) (hdigit _ _) hitem
      obtain ⟨rfl, hrest⟩ := ih hxs hothers
      exact ⟨rfl, hrest⟩

theorem closing_ne_item {item rest rest' : List Char}
    (hitem : (form? (item ++ rest')).isSome = true) :
    closing :: rest ≠ layout.lineBreak depth ++ (item ++ rest') := by
  intro h
  cases htext : item ++ rest' with
  | nil =>
    rw [htext] at hitem
    cases hitem
  | cons c more =>
    rw [htext] at h hitem
    have hnone := (of_isWhitespace_or_mem (Or.inr hclosing)).2.2 more
    rcases isWhitespace_or_eq_of_lineBreak hlayout h.symm with hc | rfl
    · rcases List.mem_pair.1 hclosing with rfl | rfl <;> cases hc
    · rw [hnone] at hitem
      cases hitem

/-- What stands between brackets is told by its text if every item is and begins like a value. -/
theorem bracketed_inj (htext : ∀ x rest, (form? (text x ++ rest)).isSome = true)
    (hxs : ∀ x ∈ xs, Readable text x)
    (h : bracketed layout depth opening closing (xs.map text) ++ rest =
      bracketed layout depth opening closing (ys.map text) ++ rest') : xs = ys ∧ rest = rest' := by
  have hdigit : ∀ items rest, NoDigitFirst (afterItem layout depth closing items ++ rest) :=
    noDigitFirst_afterItem hlayout hclosing
  cases xs with
  | nil =>
    cases ys with
    | nil => exact ⟨rfl, List.append_cancel_left h⟩
    | cons y ys =>
      rw [List.map_cons, bracketed_cons_append] at h
      exact absurd (List.tail_eq_of_cons_eq h) (closing_ne_item hlayout hclosing (htext y _))
  | cons x xs =>
    cases ys with
    | nil =>
      rw [List.map_cons, bracketed_cons_append] at h
      exact absurd (List.tail_eq_of_cons_eq h).symm (closing_ne_item hlayout hclosing (htext x _))
    | cons y ys =>
      obtain ⟨hx, hxs⟩ := List.forall_mem_cons.1 hxs
      rw [List.map_cons, List.map_cons, bracketed_cons_append, bracketed_cons_append] at h
      have hitem := List.append_cancel_left (List.tail_eq_of_cons_eq h)
      obtain ⟨rfl, hothers⟩ := hx y _ _ (hdigit _ _) (hdigit _ _) hitem
      obtain ⟨rfl, hrest⟩ := afterItem_inj hlayout hclosing hxs hothers
      exact ⟨rfl, hrest⟩

end Bracketed

/-! ## Values -/

/-- The text of a member of an object at some depth. -/
def writeMember (layout : Layout) (depth : Nat) (member : String × Json) : List Char :=
  quoted member.1 ++ layout.colon ++ write layout depth member.2

theorem writeElements_eq_map (layout : Layout) (depth : Nat) (elements : List Json) :
    writeElements layout depth elements = elements.map (write layout depth) := by
  induction elements with
  | nil => rfl
  | cons value rest ih => rw [writeElements, ih, List.map_cons]

theorem writeMembers_eq_map (layout : Layout) (depth : Nat) (members : List (String × Json)) :
    writeMembers layout depth members = members.map (writeMember layout depth) := by
  induction members with
  | nil => rfl
  | cons member rest ih =>
    obtain ⟨key, value⟩ := member
    rw [writeMembers, ih, List.map_cons]
    rfl

theorem readable_writeMember {layout : Layout} {depth : Nat} {member : String × Json}
    (h : Readable (write layout depth) member.2) : Readable (writeMember layout depth) member := by
  rintro ⟨key', value'⟩ rest rest' hrest hrest' htext
  obtain ⟨key, value⟩ := member
  simp only [writeMember, List.append_assoc] at htext
  obtain ⟨rfl, hcolon⟩ := quoted_inj htext
  obtain ⟨rfl, hrest⟩ := h value' rest rest' hrest hrest' (List.append_cancel_left hcolon)
  exact ⟨rfl, hrest⟩

/-- A property of all values, when it holds of arrays and objects whose values have it. -/
@[elab_as_elim]
theorem induction {motive : Json → Prop} (null : motive null) (bool : ∀ b, motive (bool b))
    (num : ∀ n, motive (num n)) (str : ∀ s, motive (str s))
    (arr : ∀ elements, (∀ v ∈ elements, motive v) → motive (arr elements))
    (obj : ∀ members, (∀ m ∈ members, motive m.2) → motive (obj members)) : ∀ v, motive v
  | .null => null
  | .bool b => bool b
  | .num n => num n
  | .str s => str s
  | .arr elements => arr elements fun v _ => induction null bool num str arr obj v
  | .obj members => obj members fun m _ => induction null bool num str arr obj m.2
termination_by v => sizeOf v
decreasing_by
  · have hlt := List.sizeOf_lt_of_mem ‹v ∈ elements›
    rw [Json.arr.sizeOf_spec]
    omega
  · have hlt := List.sizeOf_lt_of_mem ‹m ∈ members›
    obtain ⟨key, value⟩ := m
    rw [Prod.mk.sizeOf_spec] at hlt
    rw [Json.obj.sizeOf_spec]
    dsimp only
    omega

/-- A value only has to be told from values of its form. -/
theorem readable_of_form {layout : Layout} {depth : Nat} {v : Json}
    (h : ∀ (w : Json) (rest rest' : List Char), v.form = w.form → NoDigitFirst rest →
      NoDigitFirst rest' → write layout depth v ++ rest = write layout depth w ++ rest' →
      v = w ∧ rest = rest') : Readable (write layout depth) v := by
  intro w rest rest' hrest hrest' htext
  have hform := congrArg form? htext
  rw [form?_write, form?_write] at hform
  exact h w rest rest' (Option.some.inj hform) hrest hrest' htext

/-- The text of a value tells the value. -/
theorem readable_write {layout : Layout} (hlayout : layout.IsSpaced) (v : Json) (depth : Nat) :
    Readable (write layout depth) v := by
  induction v using Json.induction generalizing depth with
  | null =>
    refine readable_of_form fun w rest rest' hform _ _ h => ?_
    cases w with
    | null => exact ⟨rfl, List.append_cancel_left h⟩
    | _ => cases hform
  | bool b =>
    refine readable_of_form fun w rest rest' hform _ _ h => ?_
    cases w with
    | bool b' =>
      obtain rfl := Form.bool.inj hform
      exact ⟨rfl, List.append_cancel_left h⟩
    | _ => cases hform
  | num n =>
    refine readable_of_form fun w rest rest' hform hrest hrest' h => ?_
    cases w with
    | num m =>
      obtain ⟨rfl, hrest⟩ := toDigits_inj hrest hrest' h
      exact ⟨rfl, hrest⟩
    | _ => cases hform
  | str s =>
    refine readable_of_form fun w rest rest' hform _ _ h => ?_
    cases w with
    | str t =>
      obtain ⟨rfl, hrest⟩ := quoted_inj h
      exact ⟨rfl, hrest⟩
    | _ => cases hform
  | arr elements ih =>
    refine readable_of_form fun w rest rest' hform _ _ h => ?_
    cases w with
    | arr elements' =>
      have helement (v : Json) (rest : List Char) :
          (form? (write layout (depth + 1) v ++ rest)).isSome = true := by rw [form?_write]; rfl
      rw [write, write, writeElements_eq_map, writeElements_eq_map] at h
      obtain ⟨rfl, hrest⟩ := bracketed_inj hlayout (by decide) helement
        (fun v hv => ih v hv (depth + 1)) h
      exact ⟨rfl, hrest⟩
    | _ => cases hform
  | obj members ih =>
    refine readable_of_form fun w rest rest' hform _ _ h => ?_
    cases w with
    | obj members' =>
      -- a member begins with the quotation mark of its key
      have hmember (m : String × Json) (rest : List Char) :
          (form? (writeMember layout (depth + 1) m ++ rest)).isSome = true := rfl
      rw [write, write, writeMembers_eq_map, writeMembers_eq_map] at h
      obtain ⟨rfl, hrest⟩ := bracketed_inj hlayout (by decide) hmember
        (fun m hm => readable_writeMember (ih m hm (depth + 1))) h
      exact ⟨rfl, hrest⟩
    | _ => cases hform

/-- Values with the same text in a layout are the same. -/
theorem write_injective {layout : Layout} (hlayout : layout.IsSpaced) {v w : Json}
    (h : write layout 0 v = write layout 0 w) : v = w := by
  have hend : NoDigitFirst [] := fun _ hc => by cases hc
  exact (readable_write hlayout v 0 w [] [] hend hend (congrArg (· ++ []) h)).1

end Diagnosis.Json
