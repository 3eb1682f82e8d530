import Diagnosis.Proofs.Message
import Diagnosis.Proofs.Sighting

/-!
# Messages are recognised

Most problems are stated by one line of their own. Here are the messages that state them
(`Problem.message?`), and the proof that such a message is recognised, whatever the names in it are:
its problem is among the records of the text (`Problem.exists_record_of_message`).

The names may themselves hold parts of other messages, so the line may have further shapes and be
reported as other problems besides. It does have the shape of its own message at its very start,
where no place further left can be found first. Precedence is the one thing that could still keep
the problem out. Of the shapes of these messages only that of an argument yields to another one, and
a count of the quotation marks shows that the line does not have that other shape.
-/

namespace Diagnosis

open Text (Quotable lines)

/-! ## Messages of problems -/

namespace Message

/-- The message that a type is not assignable to that of a parameter. -/
def ofArgument (source target : String) : Message :=
  [.words "Argument of type ", .name source, .words " is not assignable to parameter of type ",
    .name target]

/-- The message that a type is not assignable to another one. -/
def ofMismatch (source target : String) : Message :=
  [.words "Type ", .name source, .words " is not assignable to type ", .name target, .words "."]

/-- The message that properties of a target type are missing from a source type, up to the list of
these properties. -/
def ofMissing (source target : String) : Message :=
  [.words "Type ", .name source, .words " is missing the following properties from type ",
    .name target]

/-- The counts between two bounds: the count itself if there is only one. -/
def expectedCount (least most : UInt32) : Message :=
  if least = most then [.count least] else [.count least, .words "-", .count most]

end Message

open Message (ofArgument expectedCount)

namespace Problem

/-- The message that states a problem. There is none for problems that list properties, for plain
type mismatches, which may be reported property by property, and for `undefined` and `null`, of
which a plain type mismatch is reported. -/
def message? : Problem → Option Message
  | typeMismatch m =>
    if m = (TypeMismatch.ofTypes m.sourceType m.targetType).asArgument then
      some (ofArgument m.sourceType m.targetType)
    else none
  | missing _ | missingPropsFrom .. | undefinedNotAssignable _ | nullNotAssignable _ => none
  | notExist propName onType =>
    some [.words "Property ", .name propName, .words " does not exist on type ", .name onType]
  | cannotFindName name => some [.words "Cannot find name ", .name name]
  | cannotFindModule moduleName => some [.words "Cannot find module ", .name moduleName]
  | noOverload => some [.words "No overload matches this call"]
  | implicitAny paramName =>
    some [.words "Parameter ", .name paramName, .words " implicitly has an ", .quotedWord "any",
      .words " type"]
  | unknownType => some [.words "Object is of type ", .quotedWord "unknown"]
  | possiblyUndefined => some [.words "Object is possibly ", .quotedWord "undefined"]
  | possiblyNull => some [.words "Object is possibly ", .quotedWord "null"]
  | possiblyNullOrUndefined =>
    some [.words "Object is possibly ", .quotedWord "null", .words " or ", .quotedWord "undefined"]
  | argumentCount expectedMin expectedMax got =>
    some (.words "Expected " :: expectedCount expectedMin expectedMax ++
      [.words " arguments, but got ", .count got])
  | notCallable => some [.words "This expression is not callable"]
  | notConstructable => some [.words "This expression is not constructable"]
  | mustReturn =>
    some [.words "A function whose declared type is neither ", .quotedWord "void", .words " nor ",
      .quotedWord "any", .words " must return a value"]
  | operatorError operator leftType rightType =>
    some [.words "Operator ", .name operator, .words " cannot be applied to types ",
      .name leftType, .words " and ", .name rightType]
  | constraintError sourceType constraint =>
    some [.words "Type ", .name sourceType, .words " does not satisfy the constraint ",
      .name constraint]
  | conversionMistake sourceType targetType =>
    some [.words "Conversion of type ", .name sourceType, .words " to type ", .name targetType,
      .words " may be a mistake"]
  | basePropertyMismatch propName childType baseType =>
    some [.words "Property ", .name propName, .words " in type ", .name childType,
      .words " is not assignable to the same property in base type ", .name baseType]
  | unintentionalComparison result =>
    some [.words "This condition will always return ", .name result]
  | usedBeforeAssigned varName =>
    some [.words "Variable ", .name varName, .words " is used before being assigned"]
  | noInitializer propName =>
    some [.words "Property ", .name propName,
      .words " has no initializer and is not definitely assigned"]
  | genericArgsRequired genericType requiredCount =>
    some [.words "Generic type ", .name genericType, .words " requires ", .count requiredCount,
      .words " type argument(s)"]
  | typeAsValue typeName =>
    some [.name typeName, .words " only refers to a type, but is being used as a value here"]
  | valueAsType valueName =>
    some [.name valueName, .words " refers to a value, but is being used as a type here"]
  | syntaxExpected expected => some [.name expected, .words " expected"]
  | interfaceExtendError childInterface parentInterface =>
    some [.words "Interface ", .name childInterface, .words " incorrectly extends interface ",
      .name parentInterface]
  | classImplementError className interfaceName =>
    some [.words "Class ", .name className, .words " incorrectly implements interface ",
      .name interfaceName]
  | indexAccessError indexType objectType =>
    some [.words "Element implicitly has an ", .quotedWord "any",
      .words " type because expression of type ", .name indexType,
      .words " can't be used to index type ", .name objectType]
  | invalidIndexType indexType =>
    some [.words "Type ", .name indexType, .words " cannot be used as an index type"]
  | cannotIndex indexType objectType =>
    some [.words "Type ", .name indexType, .words " cannot be used to index type ",
      .name objectType]

/-- The shape of the lines that report a problem. -/
def shape : Problem → Shape
  | typeMismatch m => if m.isArgument then .argumentMismatch else .typeMismatch
  | missing _ => .missingProperties
  | notExist .. => .notExist
  | cannotFindName _ => .cannotFindName
  | cannotFindModule _ => .cannotFindModule
  | noOverload => .noOverload
  | implicitAny _ => .implicitAny
  | unknownType => .unknownType
  | possiblyUndefined => .possiblyUndefined
  | possiblyNull => .possiblyNull
  | possiblyNullOrUndefined => .possiblyNullOrUndefined
  | argumentCount .. => .argumentCount
  | notCallable => .notCallable
  | notConstructable => .notConstructable
  | mustReturn => .mustReturn
  | operatorError .. => .operator
  | constraintError .. => .constraint
  | conversionMistake .. => .conversionMistake
  | basePropertyMismatch .. => .baseProperty
  | missingPropsFrom .. => .missingPropsFrom
  | unintentionalComparison _ => .unintentionalComparison
  | usedBeforeAssigned _ => .usedBeforeAssigned
  | noInitializer _ => .noInitializer
  | undefinedNotAssignable _ => .undefinedNotAssignable
  | nullNotAssignable _ => .nullNotAssignable
  | genericArgsRequired .. => .genericArgsRequired
  | typeAsValue _ => .typeAsValue
  | valueAsType _ => .valueAsType
  | syntaxExpected _ => .syntaxExpected
  | interfaceExtendError .. => .interfaceExtends
  | classImplementError .. => .classImplements
  | indexAccessError .. => .indexAccess
  | invalidIndexType _ => .invalidIndexType
  | cannotIndex .. => .cannotIndex

/-- What a line reports as one of a shape is a problem of that shape. -/
theorem shape_of_report {shape : Shape} {fields : Fields} {findings : List Finding}
    (h : shape.rule.contribution fields = .report findings) {finding : Finding}
    (hf : finding ∈ findings) : finding.problem.shape = shape := by
  cases shape with
  | typeMismatch =>
    cases h
    obtain ⟨m, hm, hargument⟩ := Finding.exists_mismatch_of_mem_ofTypes hf
    rw [hm, Problem.shape, hargument]
    rfl
  | propertyIncompatible => cases h
  | didYouMean => cases h
  | argumentCount =>
    simp only [Shape.rule, Contribution.problem] at h
    split at h <;> cases h <;> rw [List.mem_singleton.1 hf] <;> rfl
  | _ =>
    cases h
    rw [List.mem_singleton.1 hf]
    rfl

variable {p : Problem} {m : Message}

theorem names_message (h : p.message? = some m) : m.names = p.strings := by
  cases p with
  | typeMismatch mismatch =>
    obtain ⟨-, h⟩ := Option.ite_none_right_eq_some.1 h
    cases h
    rfl
  | argumentCount least most got =>
    cases h
    unfold expectedCount
    split <;> rfl
  | _ => cases h <;> rfl

theorem sound_message (h : p.message? = some m) : m.Sound := by
  cases p with
  | typeMismatch mismatch =>
    obtain ⟨-, h⟩ := Option.ite_none_right_eq_some.1 h
    cases h
    exact ⟨rfl, ⟨_, rfl, Part.startsWith_words rfl⟩, ⟨_, rfl, rfl⟩⟩
  | argumentCount least most got =>
    cases h
    unfold expectedCount
    split <;> exact ⟨rfl, ⟨_, rfl, Part.startsWith_words rfl⟩, ⟨_, rfl, rfl⟩⟩
  | _ =>
    cases h <;>
      exact ⟨rfl, ⟨_, rfl, by first | exact Part.startsWith_words rfl | rfl⟩,
        ⟨_, rfl, by first | exact Part.closes_words rfl | rfl⟩⟩

end Problem

/-! ## The shape of a message -/

namespace Shape

variable {shape : Shape} {m : Message}

theorem contribution?_of_readAny? {cs : List Char} {fields : Fields}
    (hunless : (shape.rule.unless?.any fun guard => (guard.fields? cs).isSome) = false)
    (h : Wording.readAny? shape.rule.wordings cs = some fields) :
    shape.contribution? cs = some (shape.rule.contribution fields) := by
  have hfields : shape.fields? cs = some fields := Wording.find?_of_readAny? h
  rw [contribution?, if_neg (by rw [hunless]; decide), hfields]
  rfl

/-- A message that the first wording of a shape reads has the shape, unless another one takes
precedence. -/
theorem contribution?_of_wording {wordings : List Wording}
    (hunless : (shape.rule.unless?.any fun guard => (guard.fields? m.chars).isSome) = false)
    (hwordings : shape.rule.wordings = m.wording :: wordings)
    (hread : m.wording.read? m.chars = some (m.fields, [])) :
    shape.contribution? m.chars = some (shape.rule.contribution m.fields) := by
  refine contribution?_of_readAny? hunless ?_
  rw [hwordings]
  exact Wording.readAny?_cons_of_some hread wordings

end Shape

/-! ## Precedence and counts -/

namespace Shape

open Text (cutAt)
open Wording (read?_append_eq_some_iff read?_quoted_eq_some_iff read?_text_eq_some_iff)

/-- A line of two types that do not fit has four quotation marks around the two types, and between
them stands what the shape says. -/
theorem cutAt_of_typeMismatch {cs : List Char} {fields : Fields}
    (h : typeMismatch.fields? cs = some fields) :
    ∃ before source target after, cutAt isQuote cs = cutAt isQuote before ++
      source :: " is not assignable to type ".toList :: target :: cutAt isQuote after := by
  obtain ⟨before, tail, rfl, hread⟩ := Wording.exists_readAny?_of_find? h
  obtain ⟨w, hw, hsome⟩ := List.exists_of_findSome?_eq_some hread
  obtain ⟨⟨read, after⟩, hread, -⟩ := Option.map_eq_some_iff.1 hsome
  rw [List.mem_singleton.1 hw] at hread
  -- a wording is grouped to the left, so its last part comes off first
  obtain ⟨_, cs₃, _, h₃, hlast, -⟩ := read?_append_eq_some_iff.1 hread
  obtain ⟨_, cs₂, _, h₂, hmiddle, -⟩ := read?_append_eq_some_iff.1 h₃
  obtain ⟨_, cs₁, _, hfirst, hquoted, -⟩ := read?_append_eq_some_iff.1 h₂
  obtain ⟨rfl, -⟩ := read?_text_eq_some_iff.1 hfirst
  obtain ⟨rfl, -⟩ := read?_text_eq_some_iff.1 hmiddle
  obtain ⟨q₁, source, q₂, hq₁, hq₂, -, hsource, rfl, -⟩ := read?_quoted_eq_some_iff.1 hquoted
  obtain ⟨q₃, target, q₄, hq₃, hq₄, -, htarget, rfl, -⟩ := read?_quoted_eq_some_iff.1 hlast
  have hwords : cutAt isQuote " is not assignable to type ".toList =
      [" is not assignable to type ".toList] := rfl
  refine ⟨before ++ "Type ".toList, source, target, after, ?_⟩
  rw [← List.append_assoc, Text.cutAt_append_cons hq₁, Text.cutAt_append_cons hq₂,
    Text.cutAt_append_cons hq₃, Text.cutAt_append_cons hq₄, Text.cutAt_of_forall_not_sep hsource,
    hwords, Text.cutAt_of_forall_not_sep htarget]
  rfl

/-- The message on an argument has four quotation marks too, but other words between the second and
the third. -/
theorem typeMismatch_fields?_argument {source target : String} (hsource : Quotable source)
    (htarget : Quotable target) : typeMismatch.fields? (ofArgument source target).chars = none := by
  have hopening : cutAt isQuote "Argument of type ".toList = ["Argument of type ".toList] := rfl
  have hwords : cutAt isQuote " is not assignable to parameter of type ".toList =
      [" is not assignable to parameter of type ".toList] := rfl
  have hquote : isQuote '\'' = true := rfl
  rw [Option.eq_none_iff_forall_ne_some]
  intro fields h
  obtain ⟨before, s, t, after, hcut⟩ := cutAt_of_typeMismatch h
  simp only [ofArgument, Message.chars_cons, Part.text, Part.toList_inQuotes_append,
    Text.cutAt_append_cons hquote, hopening, hwords,
    Text.cutAt_of_forall_not_sep hsource.isQuote_eq_false,
    Text.cutAt_of_forall_not_sep htarget.isQuote_eq_false] at hcut
  obtain ⟨first, more, hbefore⟩ := List.exists_cons_of_ne_nil (Text.cutAt_ne_nil isQuote before)
  obtain ⟨last, rest, hafter⟩ := List.exists_cons_of_ne_nil (Text.cutAt_ne_nil isQuote after)
  rw [hbefore, hafter] at hcut
  -- with four marks on both sides nothing is left to stand in front
  have hmore : more = [] := by
    have hlength := congrArg List.length hcut
    rw [show cutAt isQuote (Message.chars []) = [[]] from rfl] at hlength
    simp only [List.length_append, List.length_cons, List.length_nil] at hlength
    exact List.length_eq_zero_iff.1 (by omega)
  rw [hmore] at hcut
  simp only [List.cons_append, List.nil_append, List.cons.injEq] at hcut
  exact absurd (String.toList_inj.1 hcut.2.2.1) (by decide)

end Shape

open Wording (text digits) in
/-- The number of arguments is read as a single count if the message states only one: the wordings
for two counts ask for a hyphen behind the first. -/
theorem Shape.readAny?_argumentCount {least got : String} (hleast : Text.IsNumeral least)
    (hgot : Text.IsNumeral got) {rest : List Char} (hrest : Text.StopsCount rest) :
    Wording.readAny? argumentCount.rule.wordings ("Expected ".toList ++ (least.toList ++
        (" arguments, but got ".toList ++ (got.toList ++ rest)))) = some [least, got] := by
  have hcount := Wording.read?_append_of_some (Wording.read?_text "Expected " _)
    (Part.read?_numeral hleast
      (@Text.stopsCount_append " arguments, but got " rfl (got.toList ++ rest)))
  have hread := Wording.read?_append_of_some (Wording.read?_append_of_some hcount
    (Wording.read?_text " arguments, but got " _)) (Part.read?_numeral hgot hrest)
  have hyphen : (text "-").read? (" arguments, but got ".toList ++ (got.toList ++ rest)) = none :=
    rfl
  have hrange (unit : String) :
      (text "Expected " ++ digits ++ text "-" ++ digits ++ text unit ++ digits).read?
        ("Expected ".toList ++ (least.toList ++ (" arguments, but got ".toList ++
          (got.toList ++ rest)))) = none := by
    refine Wording.read?_append_of_eq_none (Wording.read?_append_of_eq_none
      (Wording.read?_append_of_eq_none ?_ _) _) _
    rw [Wording.read?_append, hcount, Option.bind_some, hyphen]
    rfl
  -- the wordings for two counts come first, with the plural and the singular of the unit
  calc Wording.readAny? argumentCount.rule.wordings _
      = Wording.readAny? argumentCount.rule.wordings.tail _ :=
        Wording.readAny?_cons_of_none (hrange _) _
    _ = Wording.readAny? argumentCount.rule.wordings.tail.tail _ :=
        Wording.readAny?_cons_of_none (hrange _) _
    _ = some [least, got] := Wording.readAny?_cons_of_some hread _

namespace Problem

variable {p : Problem} {m : Message}

/-- The message of a problem is a line that contributes the problem as one of its shape. -/
theorem contribution?_message (h : p.message? = some m) (hstrings : ∀ s ∈ p.strings, Quotable s) :
    p.shape.contribution? m.chars = some (.problem p) := by
  have hread : m.wording.read? m.chars = some (m.fields, []) := by
    refine Message.read?_wording (sound_message h) ?_
    rw [names_message h]
    exact hstrings
  cases p with
  | typeMismatch mismatch =>
    obtain ⟨hmismatch, h⟩ := Option.ite_none_right_eq_some.1 h
    cases h
    have hsource : Quotable mismatch.sourceType := hstrings _ List.mem_cons_self
    have htarget : Quotable mismatch.targetType :=
      hstrings _ (List.mem_cons_of_mem _ List.mem_cons_self)
    have hargument : mismatch.isArgument = true := by rw [hmismatch]; rfl
    have hguard := Shape.typeMismatch_fields?_argument hsource htarget
    have hunless := congrArg Option.isSome hguard
    rw [shape, if_pos hargument]
    -- only this shape yields to another one, and the message does not have that other shape
    refine (@Shape.contribution?_of_wording .argumentMismatch _ _ hunless rfl hread).trans ?_
    exact congrArg (fun m => some (Contribution.problem (.typeMismatch m))) hmismatch.symm
  | argumentCount least most got =>
    have hm := Option.some.inj h
    -- the bounds decide how many counts the message has, and so which wording reads it
    by_cases hbounds : least = most
    · rw [expectedCount, if_pos hbounds] at hm
      rw [← hm, ← hbounds]
      have hcounts := Shape.readAny?_argumentCount (Text.isNumeral_countText least)
        (Text.isNumeral_countText got) (@Message.stopsCount_chars [] rfl)
      refine (Shape.contribution?_of_readAny? rfl hcounts).trans ?_
      show some (Contribution.problem (.argumentCount (Text.countOfDigits (countText least).toList)
        (Text.countOfDigits (countText least).toList)
        (Text.countOfDigits (countText got).toList))) = _
      rw [Text.countOfDigits_countText, Text.countOfDigits_countText]
    · rw [expectedCount, if_neg hbounds] at hm
      rw [← hm] at hread ⊢
      refine (Shape.contribution?_of_wording rfl rfl hread).trans ?_
      show some (Contribution.problem (.argumentCount (Text.countOfDigits (countText least).toList)
        (Text.countOfDigits (countText most).toList)
        (Text.countOfDigits (countText got).toList))) = _
      rw [Text.countOfDigits_countText, Text.countOfDigits_countText, Text.countOfDigits_countText]
  | genericArgsRequired genericType requiredCount =>
    cases h
    refine (Shape.contribution?_of_wording rfl rfl hread).trans ?_
    show some (Contribution.problem (.genericArgsRequired genericType
      (Text.countOfDigits (countText requiredCount).toList))) = _
    rw [Text.countOfDigits_countText]
  | _ => cases h <;> exact Shape.contribution?_of_wording rfl rfl hread

/-- The message of a problem is recognised in every mode and whatever the names in it are: among the
records of the text there is one of the problem. -/
theorem exists_record_of_message (h : p.message? = some m)
    (hstrings : ∀ s ∈ p.strings, Quotable s) (mode : PathMode) :
    ∃ r ∈ Record.ofText mode m.text, r.problem = p := by
  have hnames : ∀ s ∈ m.names, Quotable s := by
    rw [names_message h]
    exact hstrings
  have hlines := Message.lines_text (sound_message h) hnames
  have hfinding : (p.shape, { problem := p }) ∈ Text.Line.findings ⟨0, m.chars⟩ :=
    Text.Line.mem_findings_of_contribution? (contribution?_message h hstrings)
      (List.mem_singleton_self _)
  show ∃ r ∈ Record.ofLines mode (lines m.text.toList), r.problem = p
  rw [hlines, Record.exists_mem_ofLines_iff]
  exact ⟨_, List.mem_singleton_self _, _, hfinding, rfl⟩

/-- A problem whose message holds two others: the words between its names are the name in one of
them, and its second name is the other. -/
def nested : Problem := notExist "Cannot find name " "No overload matches this call"

theorem exists_record_of_message_nested :
    (∀ s ∈ nested.strings, Quotable s) ∧
      ∃ r ∈ Record.ofText .indented
          "Property 'Cannot find name ' does not exist on type 'No overload matches this call'",
        r.problem = nested := by
  have hstrings : ∀ s ∈ nested.strings, Quotable s :=
    List.forall_mem_cons.2 ⟨.ofList (by decide) rfl,
      List.forall_mem_cons.2 ⟨.ofList (by decide) rfl, nofun⟩⟩
  have htext : Message.text [.words "Property ", .name "Cannot find name ",
      .words " does not exist on type ", .name "No overload matches this call"] =
      "Property 'Cannot find name ' does not exist on type 'No overload matches this call'" := rfl
  refine ⟨hstrings, ?_⟩
  rw [← htext]
  exact exists_record_of_message rfl hstrings .indented

end Problem

end Diagnosis
