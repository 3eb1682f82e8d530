import Diagnosis.Proofs.Layout
import Diagnosis.Proofs.Sections
import Diagnosis.TypeText.Basic

/-!
# Writing an object literal

An object literal can be written in many ways: with any blanks around its names, colons, types and
semicolons, and with or without a semicolon at the end. Here is the writer (`literalText`), and the
proof that reading undoes it for all of these ways: what is read are the properties that were
written, in their order (`TypeText.ofString_literalText`).

A name and a type may hold brackets, and inside brackets also colons and semicolons. What they must
not do is to end the label or the section they stand in, and that is what `Property.Regular` asks.
The reader is followed through one section after the other (`Reader.foldl_section`). In a section it
only collects, so its state there is known from the section's text.
-/

namespace Diagnosis

open Text (isBlank strip)

/-- A text of blanks, which may be empty. -/
abbrev Blanks : Type := { cs : List Char // ∀ c ∈ cs, isBlank c = true }

/-- Some given blanks. -/
def Blanks.ofList (cs : List Char) (h : cs.all isBlank = true) : Blanks := ⟨cs, List.all_eq_true.1 h⟩

namespace ObjectLiteral

/-! ## Texts without a mark at depth zero -/

/-- Whether none of some marks stands at depth zero, when the text starts at some depth. -/
def lacks (marks : List Char) : Int → List Char → Bool
  | _, [] => true
  | depth, c :: rest =>
    !(depth + bracketStep c == 0 && marks.contains c) && lacks marks (depth + bracketStep c) rest

theorem lacks_append (marks : List Char) (depth : Int) (cs ds : List Char) :
    lacks marks depth (cs ++ ds) = (lacks marks depth cs && lacks marks (depth + net cs) ds) := by
  induction cs generalizing depth with
  | nil => simp [lacks]
  | cons c rest ih =>
    rw [List.cons_append, lacks, lacks, ih, net_cons, Int.add_assoc, Bool.and_assoc]

theorem lacks_mono {marks more : List Char} (h : ∀ c ∈ marks, c ∈ more) {depth : Int}
    {cs : List Char} (hcs : lacks more depth cs = true) : lacks marks depth cs = true := by
  induction cs generalizing depth with
  | nil => rfl
  | cons c rest ih =>
    simp only [lacks, Bool.and_eq_true, Bool.not_eq_true', Bool.and_eq_false_imp] at hcs ⊢
    refine ⟨fun hdepth => ?_, ih hcs.2⟩
    have hc := hcs.1 hdepth
    simp only [List.contains_eq_mem, decide_eq_false_iff_not] at hc ⊢
    exact fun hmem => hc (h c hmem)

theorem lacks_of_forall_not_mem {marks cs : List Char} (h : ∀ c ∈ cs, c ∉ marks) (depth : Int) :
    lacks marks depth cs = true := by
  induction cs generalizing depth with
  | nil => rfl
  | cons c rest ih =>
    have hc := h c List.mem_cons_self
    rw [lacks, ih fun d hd => h d (List.mem_cons_of_mem _ hd)]
    simp [hc]

/-- A text without a colon at depth zero is a label if a colon at depth zero follows. -/
theorem splitLabel?_append_colon {depth : Int} {label : List Char}
    (h : lacks [':'] depth label = true) (hdepth : depth + net label = 0) (value : List Char) :
    splitLabel? depth (label ++ ':' :: value) = some (label, value) := by
  induction label generalizing depth with
  | nil =>
    rw [net_nil, Int.add_zero] at hdepth
    subst hdepth
    rfl
  | cons c rest ih =>
    rw [lacks, Bool.and_eq_true] at h
    rw [net_cons, ← Int.add_assoc] at hdepth
    have hc : ¬ (depth + bracketStep c = 0 ∧ c = ':') := by
      rintro ⟨hzero, rfl⟩
      simp [hzero] at h
    rw [List.cons_append, splitLabel?, if_neg hc, ih h.2 hdepth]
    rfl

theorem splitLabel?_of_lacks {depth : Int} {cs : List Char} (h : lacks [':'] depth cs = true) :
    splitLabel? depth cs = none := by
  induction cs generalizing depth with
  | nil => rfl
  | cons c rest ih =>
    rw [lacks, Bool.and_eq_true] at h
    have hc : ¬ (depth + bracketStep c = 0 ∧ c = ':') := by
      rintro ⟨hzero, rfl⟩
      simp [hzero] at h
    rw [splitLabel?, if_neg hc, ih h.2]
    rfl

namespace Reader

/-- Without a semicolon at depth zero the reader stays in its section. -/
theorem foldl_inSection (object : ObjectType) {sec cs : List Char}
    (h : lacks [';'] (net sec) cs = true) :
    cs.foldl step (inSection object sec) = inSection object (sec ++ cs) := by
  induction cs generalizing sec with
  | nil => simp
  | cons c rest ih =>
    rw [lacks, Bool.and_eq_true] at h
    have hc : ¬ (net sec + bracketStep c = 0 ∧ c = ';') := by
      rintro ⟨hzero, rfl⟩
      simp [hzero] at h
    -- the depth of the reader is that of what it has collected
    have hnet : net (sec ++ [c]) = net sec + bracketStep c := by simp
    rw [List.foldl_cons, step_inSection, if_neg hc, ih (by rw [hnet]; exact h.2),
      List.append_assoc, List.singleton_append]

theorem foldl_start (object : ObjectType) {sec : List Char} (h : lacks [';'] 0 sec = true) :
    sec.foldl step (inSection object []) = inSection object sec := by
  have hnil : lacks [';'] (net []) sec = true := h
  rw [foldl_inSection object hnil, List.nil_append]

/-- The reader goes through a balanced section and its semicolon to the start of the next one. -/
theorem foldl_section (object : ObjectType) {sec : List Char} (h : lacks [';'] 0 sec = true)
    (hnet : net sec = 0) (cs : List Char) :
    (sec ++ ';' :: cs).foldl step (inSection object []) =
      cs.foldl step (inSection (addSection object sec) []) := by
  have hsemicolon : net sec + bracketStep ';' = 0 ∧ ';' = ';' := by
    rw [hnet]
    exact ⟨rfl, rfl⟩
  rw [List.foldl_append, foldl_start object h, List.foldl_cons, step_inSection, if_pos hsemicolon]

end Reader

end ObjectLiteral

/-! ## Properties that can be written -/

open ObjectLiteral (lacks net)

/-- Whether a property can be written into an object literal: its name and its type are neither
empty nor open or close with a blank, their brackets are balanced, and outside of brackets a name
has neither a colon nor a semicolon and a type has no semicolon. A question mark cannot be part of a
name. -/
structure Property.Regular (p : Property) : Prop where
  name_ne : p.name ≠ ""
  strip_name : strip p.name.toList = p.name.toList
  mark_not_mem : '?' ∉ p.name.toList
  net_name : net p.name.toList = 0
  name_lacks : lacks [':', ';'] 0 p.name.toList = true
  value_ne : p.valueType ≠ ""
  strip_value : strip p.valueType.toList = p.valueType.toList
  net_value : net p.valueType.toList = 0
  value_lacks : lacks [';'] 0 p.valueType.toList = true

instance (p : Property) : Decidable p.Regular :=
  decidable_of_iff
    ((p.name ≠ "" ∧ strip p.name.toList = p.name.toList ∧ '?' ∉ p.name.toList ∧
        net p.name.toList = 0 ∧ lacks [':', ';'] 0 p.name.toList = true) ∧
      p.valueType ≠ "" ∧ strip p.valueType.toList = p.valueType.toList ∧
        net p.valueType.toList = 0 ∧ lacks [';'] 0 p.valueType.toList = true)
    ⟨fun ⟨⟨h1, h2, h3, h4, h5⟩, h6, h7, h8, h9⟩ => ⟨h1, h2, h3, h4, h5, h6, h7, h8, h9⟩,
      fun ⟨h1, h2, h3, h4, h5, h6, h7, h8, h9⟩ => ⟨⟨h1, h2, h3, h4, h5⟩, h6, h7, h8, h9⟩⟩

/-- A property with the blanks that stand around its parts. -/
structure Spelling where
  property : Property
  regular : property.Regular
  beforeName : Blanks
  beforeColon : Blanks
  beforeValue : Blanks
  afterValue : Blanks

namespace Spelling

/-- What stands before the colon. The mark of an optional property follows its name directly. -/
def label (s : Spelling) : List Char :=
  s.beforeName.1 ++ ((s.property.name ++ s.property.mark).toList ++ s.beforeColon.1)

/-- What stands after the colon. -/
def value (s : Spelling) : List Char :=
  s.beforeValue.1 ++ (s.property.valueType.toList ++ s.afterValue.1)

/-- The property as it is written. -/
def text (s : Spelling) : List Char := s.label ++ ':' :: s.value

end Spelling

/-- The body of an object literal, with or without a semicolon after the last property. -/
def bodyText (closed : Bool) (ending : Blanks) : List Spelling → List Char
  | [] => ending.1
  | [s] => s.text ++ (if closed then ';' :: ending.1 else ending.1)
  | s :: next :: rest => s.text ++ ';' :: bodyText closed ending (next :: rest)

/-- An object literal with blanks around it. -/
def literalText (before after : Blanks) (closed : Bool) (ending : Blanks)
    (spellings : List Spelling) : String :=
  String.ofList (before.1 ++ ('{' :: (bodyText closed ending spellings ++ ['}']) ++ after.1))

/-! ## Blanks -/

namespace Blanks

theorem net_eq_zero (blanks : Blanks) : net blanks.1 = 0 :=
  ObjectLiteral.net_eq_zero fun c hc => ObjectLiteral.bracketStep_of_blank (blanks.2 c hc)

theorem lacks (blanks : Blanks) {marks : List Char} (h : marks.any isBlank = false) (depth : Int) :
    ObjectLiteral.lacks marks depth blanks.1 = true := by
  refine ObjectLiteral.lacks_of_forall_not_mem (fun c hc hmem => ?_) depth
  exact List.any_eq_false.1 h c hmem (blanks.2 c hc)

theorem strip_append (blanks : Blanks) (cs : List Char) : strip (blanks.1 ++ cs) = strip cs := by
  rw [strip, strip, Text.stripLeft_append_of_blank blanks.2]

theorem strip_surrounded (before after : Blanks) (cs : List Char) :
    strip (before.1 ++ (cs ++ after.1)) = strip cs := by
  rw [before.strip_append, Text.strip_append_of_blank after.2]

theorem strip_eq_nil (blanks : Blanks) : strip blanks.1 = [] := Text.strip_eq_nil_iff.2 blanks.2

end Blanks

/-! ## What a spelling says -/

namespace Property

theorem net_mark (p : Property) : net p.mark.toList = 0 := by
  unfold mark
  split <;> rfl

theorem mark_lacks (p : Property) : lacks [':', ';'] 0 p.mark.toList = true := by
  unfold mark
  split <;> rfl

/-- The label of a property that can be written is read as its name and mark. -/
theorem Regular.labelOfText {p : Property} (h : p.Regular) (before after : Blanks) :
    Label.ofText (before.1 ++ ((p.name ++ p.mark).toList ++ after.1)) = ⟨p.name, p.optional⟩ := by
  have hne : p.name.toList ≠ [] := mt String.toList_eq_nil_iff.1 h.name_ne
  rw [Label.ofText, Blanks.strip_surrounded, String.toList_append]
  cases hoptional : p.optional with
  | false =>
    have hlast : p.name.toList.getLast? ≠ some '?' :=
      fun hlast => h.mark_not_mem (List.mem_of_getLast? hlast)
    simp [mark, hoptional, h.strip_name, List.erase_of_not_mem h.mark_not_mem, hlast]
  | true =>
    obtain ⟨first, rest, hname⟩ := List.exists_cons_of_ne_nil hne
    have hfirst : isBlank first = false :=
      Text.isBlank_of_strip_eq_cons (h.strip_name.trans hname)
    have hstrip : strip (p.name.toList ++ ['?']) = p.name.toList ++ ['?'] := by
      rw [hname]
      exact Text.strip_cons_concat hfirst (by decide) rest
    simp [mark, hoptional, hstrip, List.erase_append_right _ h.mark_not_mem]

end Property

namespace Spelling

variable (s : Spelling)

theorem net_label : net s.label = 0 := by
  simp [label, s.beforeName.net_eq_zero, s.beforeColon.net_eq_zero, s.regular.net_name,
    s.property.net_mark]

theorem net_value : net s.value = 0 := by
  simp [value, s.beforeValue.net_eq_zero, s.afterValue.net_eq_zero, s.regular.net_value]

theorem net_text : net s.text = 0 := by
  rw [text, ObjectLiteral.net_append, ObjectLiteral.net_cons, net_label, net_value]
  rfl

theorem label_lacks : lacks [':', ';'] 0 s.label = true := by
  rw [label, ObjectLiteral.lacks_append, s.beforeName.lacks rfl, s.beforeName.net_eq_zero,
    ObjectLiteral.lacks_append, s.beforeColon.lacks rfl, String.toList_append,
    ObjectLiteral.lacks_append, Int.zero_add, Int.zero_add, s.regular.name_lacks,
    s.regular.net_name, s.property.mark_lacks]
  rfl

theorem value_lacks : lacks [';'] 0 s.value = true := by
  rw [value, ObjectLiteral.lacks_append, s.beforeValue.lacks rfl, s.beforeValue.net_eq_zero,
    ObjectLiteral.lacks_append, s.afterValue.lacks rfl, Int.zero_add, s.regular.value_lacks]
  rfl

/-- A spelling is one section. -/
theorem text_lacks : lacks [';'] 0 s.text = true := by
  have hlabel : lacks [';'] 0 s.label = true :=
    ObjectLiteral.lacks_mono (by simp) s.label_lacks
  have hcolon : lacks [';'] 0 (':' :: s.value) = true := by
    rw [lacks]
    exact s.value_lacks
  rw [text, ObjectLiteral.lacks_append, hlabel, net_label]
  exact hcolon

theorem splitLabel?_text : ObjectLiteral.splitLabel? 0 s.text = some (s.label, s.value) := by
  have hlabel : lacks [':'] 0 s.label = true :=
    ObjectLiteral.lacks_mono (by simp) s.label_lacks
  refine ObjectLiteral.splitLabel?_append_colon hlabel ?_ s.value
  rw [net_label]
  rfl

/-- The spelling with more blanks at its end. -/
def pad (more : Blanks) : Spelling where
  property := s.property
  regular := s.regular
  beforeName := s.beforeName
  beforeColon := s.beforeColon
  beforeValue := s.beforeValue
  afterValue := ⟨s.afterValue.1 ++ more.1, fun c hc =>
    (List.mem_append.1 hc).elim (s.afterValue.2 c) (more.2 c)⟩

theorem text_pad (more : Blanks) : (s.pad more).text = s.text ++ more.1 := by
  simp [text, label, value, pad]

end Spelling

/-! ## Reading what was written -/

namespace ObjectLiteral.Reader

theorem value_inSection (object : ObjectType) (s : Spelling) :
    (inSection object s.text).value = s.property.valueType := by
  have hstrip : strip s.value = s.property.valueType.toList := by
    rw [Spelling.value, Blanks.strip_surrounded, s.regular.strip_value]
  rw [value, inSection, afterLabel, s.splitLabel?_text, Option.elim_some, List.reverse_reverse,
    hstrip, String.ofList_toList]

theorem label_inSection (object : ObjectType) (s : Spelling) :
    (inSection object s.text).label = some ⟨s.property.name, s.property.optional⟩ := by
  rw [inSection, label?, s.splitLabel?_text, Option.map_some, Spelling.label,
    s.regular.labelOfText]

/-- A section that spells a property adds that property. -/
theorem addSection_text (object : ObjectType) (s : Spelling) :
    addSection object s.text = object.insert s.property := by
  rw [addSection, withCurrent, label_inSection, value_inSection]
  exact if_neg (mt String.isEmpty_iff.1 s.regular.name_ne)

theorem finish_text (object : ObjectType) (s : Spelling) :
    (inSection object s.text).finish = object.insert s.property := by
  have hvalue : ¬ (inSection object s.text).value.isEmpty = true := by
    rw [value_inSection]
    exact mt String.isEmpty_iff.1 s.regular.value_ne
  rw [finish, if_neg hvalue]
  exact addSection_text object s

theorem finish_blanks (object : ObjectType) (blanks : Blanks) :
    (blanks.1.foldl step (inSection object [])).finish = object := by
  have hsplit : splitLabel? 0 blanks.1 = none :=
    splitLabel?_of_lacks (blanks.lacks rfl 0)
  have hvalue : (inSection object blanks.1).value = "" := by
    rw [value, inSection, afterLabel, hsplit, Option.elim_none, List.reverse_reverse,
      blanks.strip_eq_nil]
  rw [foldl_start object (blanks.lacks rfl 0), finish, hvalue]
  rfl

/-- Reading a body inserts the properties that are written there one after the other. -/
theorem finish_foldl_bodyText (closed : Bool) (ending : Blanks) (spellings : List Spelling)
    (object : ObjectType) :
    ((bodyText closed ending spellings).foldl step (inSection object [])).finish =
      (spellings.map Spelling.property).foldl ObjectType.insert object := by
  induction spellings generalizing object with
  | nil => exact finish_blanks object ending
  | cons s rest ih =>
    cases rest with
    | cons next rest =>
      rw [bodyText, foldl_section object s.text_lacks s.net_text, addSection_text, ih]
      rfl
    | nil =>
      cases closed with
      | true =>
        rw [bodyText, if_pos rfl, foldl_section object s.text_lacks s.net_text, addSection_text]
        exact finish_blanks _ ending
      | false =>
        -- blanks at the end belong to the last property
        have hpad : bodyText false ending [s] = (s.pad ending).text := (s.text_pad ending).symm
        rw [hpad, foldl_start object (s.pad ending).text_lacks]
        exact finish_text object (s.pad ending)

end ObjectLiteral.Reader

namespace ObjectType

/-- Properties of distinct names that are new stand behind the others in their order. -/
theorem properties_foldl_insert {o : ObjectType} {ps : List Property}
    (h : (o.names ++ Property.names ps).Nodup) :
    (ps.foldl insert o).properties = o.properties ++ ps := by
  induction ps generalizing o with
  | nil => simp
  | cons p rest ih =>
    have hp : p.name ∉ o.names := by
      intro hmem
      exact (List.nodup_append.1 h).2.2 _ hmem _ List.mem_cons_self rfl
    have hnames : (o.insert p).names = o.names ++ [p.name] := by rw [names_insert, if_neg hp]
    have hrest : ((o.insert p).names ++ Property.names rest).Nodup := by
      rw [hnames, List.append_assoc]
      exact h
    have hinsert : (o.insert p).properties = o.properties ++ [p] := by
      rw [properties_insert, Property.put_of_not_mem hp]
    rw [List.foldl_cons, ih hrest, hinsert, List.append_assoc]
    rfl

end ObjectType

/-- However the properties of an object literal are spelled, if their names are distinct the text is
read as an object type with just these properties, in their order. -/
theorem TypeText.ofString_literalText (before after : Blanks) (closed : Bool) (ending : Blanks)
    (spellings : List Spelling) (h : (spellings.map fun s => s.property.name).Nodup) :
    ∃ o, ofString (literalText before after closed ending spellings) = .object o ∧
      o.properties = spellings.map Spelling.property := by
  have hnodup : (ObjectType.empty.names ++
      Property.names (spellings.map Spelling.property)).Nodup := by
    rw [ObjectType.names_empty, List.nil_append, Property.names, List.map_map]
    exact h
  refine ⟨(spellings.map Spelling.property).foldl ObjectType.insert .empty, ?_, ?_⟩
  · have hstrip : strip (literalText before after closed ending spellings).toList =
        '{' :: (bodyText closed ending spellings ++ ['}']) := by
      rw [literalText, String.toList_ofList, Blanks.strip_surrounded,
        Text.strip_cons_concat (by decide) (by decide)]
    rw [ofString, hstrip]
    show object (ObjectLiteral.read _) = _
    rw [ObjectLiteral.read, ObjectLiteral.body_object]
    exact congrArg object (ObjectLiteral.Reader.finish_foldl_bodyText closed ending spellings .empty)
  · rw [ObjectType.properties_foldl_insert hnodup]
    rfl

/-- An index signature: its name holds a colon and its type holds semicolons. -/
def Spelling.indexSignature : Spelling where
  property := ⟨"[key: string]", false, "\x7b id: number; tags: string[] \x7d"⟩
  regular := by decide
  beforeName := .ofList [' '] rfl
  beforeColon := .ofList [' ', '\t'] rfl
  beforeValue := .ofList [] rfl
  afterValue := .ofList ['\n'] rfl

/-- An optional property of a generic type. -/
def Spelling.optionalMap : Spelling where
  property := ⟨"size", true, "Map<string, number>"⟩
  regular := by decide
  beforeName := .ofList ['\n', ' '] rfl
  beforeColon := .ofList [] rfl
  beforeValue := .ofList [' '] rfl
  afterValue := .ofList [' '] rfl

theorem TypeText.ofString_two_spellings :
    ([Spelling.indexSignature, .optionalMap].map fun s => s.property.name).Nodup ∧
      ∃ o, ofString ("\x7b [key: string] \t:\x7b id: number; tags: string[] \x7d\n;\n" ++
          " size?: Map<string, number> \x7d") = .object o ∧
        o.properties = [⟨"[key: string]", false, "\x7b id: number; tags: string[] \x7d"⟩,
          ⟨"size", true, "Map<string, number>"⟩] := by
  have hnodup : ([Spelling.indexSignature, .optionalMap].map fun s => s.property.name).Nodup := by
    decide
  refine ⟨hnodup, ?_⟩
  exact ofString_literalText (.ofList [] rfl) (.ofList [] rfl) false (.ofList [] rfl)
    [.indexSignature, .optionalMap] hnodup

end Diagnosis
