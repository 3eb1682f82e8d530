import Diagnosis.Proofs.LineReport
import Diagnosis.Proofs.NameList
import Diagnosis.Proofs.Recognition
import Mathlib.Data.List.Infix

/-!
# Lists of missing properties

The message that a source type is missing properties of a target type ends in the list of these
properties. Two shapes have lines of this kind. The one that takes precedence looks for the words
that announce a list, and takes what stands behind the next colon and a space for the list. The
other one reads the two types first and the list behind them.

The next colon need not be the one in front of the list: it may stand in a type. If a space follows
it there the message lists a part of itself (`ListsOwn`), and that part is read in the place of the
properties. In all other cases the properties are read as they are listed, by the one shape or by
the other (`Record.missing_recovered_iff`).
-/

namespace Diagnosis

open Text (Listable Quotable isBlank)

/-! ## Announcements -/

/-- The words that announce a list of missing properties. -/
def announcement : List Char := "is missing the following properties".toList

/-- The list that a text opens by announcing: what stands behind the next colon and a space. -/
def announced? (cs : List Char) : Option (List Char) :=
  if announcement <+: cs then ": ".toList.isPrefixOf? (cs.dropWhile (· != ':')) else none

/-- Whether a header, behind which a list is to stand, announces a list of its own. A list does not
begin with a full stop. -/
def ListsOwn (header : List Char) : Prop :=
  ∃ cs ∈ header.tails, ∃ own ∈ announced? cs, own.head? ≠ some '.'

instance (header : List Char) : Decidable (ListsOwn header) :=
  inferInstanceAs (Decidable (∃ cs ∈ header.tails, ∃ own ∈ announced? cs, own.head? ≠ some '.'))

theorem announced?_eq_some_iff {cs list : List Char} :
    announced? cs = some list ↔
      announcement <+: cs ∧ cs.dropWhile (· != ':') = ':' :: ' ' :: list := by
  rw [announced?, Option.ite_none_right_eq_some, List.isPrefixOf?_eq_some_iff_append_eq, eq_comm]
  rfl

theorem colon_mem_of_announced? {cs list : List Char} (h : announced? cs = some list) :
    ':' ∈ cs := by
  refine (List.dropWhile_suffix (· != ':')).subset ?_
  rw [(announced?_eq_some_iff.1 h).2]
  exact List.mem_cons_self

theorem listsOwn_of_suffix {header cs own : List Char} (hcs : cs <:+ header)
    (hown : announced? cs = some own) (hhead : own.head? ≠ some '.') : ListsOwn header :=
  ⟨cs, (List.mem_tails _ _).2 hcs, own, hown, hhead⟩

theorem not_listsOwn_nil : ¬ ListsOwn [] := by decide

theorem listsOwn_cons_iff {c : Char} {header : List Char} :
    ListsOwn (c :: header) ↔
      (∃ own ∈ announced? (c :: header), own.head? ≠ some '.') ∨ ListsOwn header := by
  simp only [ListsOwn, List.mem_tails, List.suffix_cons_iff, or_and_right, exists_or,
    exists_eq_left]

theorem ListsOwn.colon_mem {header : List Char} (h : ListsOwn header) : ':' ∈ header := by
  obtain ⟨cs, hcs, own, hown, -⟩ := h
  exact ((List.mem_tails _ _).1 hcs).subset (colon_mem_of_announced? hown)

/-- No part of the announcement is a colon, so it does not reach beyond one. -/
theorem announcement_prefix_append_iff {cs rest : List Char} :
    announcement <+: cs ++ ':' :: rest ↔ announcement <+: cs :=
  Text.prefix_append_cons_iff (by decide)

theorem dropWhile_append_colon {front : List Char} (h : ':' ∉ front) (rest : List Char) :
    (front ++ ':' :: rest).dropWhile (· != ':') = ':' :: rest := by
  rw [List.dropWhile_append_of_pos (Text.bne_of_not_mem h)]
  rfl

/-- Where a list follows a text, the text announces this list unless it holds a colon already. -/
theorem announced?_append (cs list : List Char) :
    announced? (cs ++ ':' :: ' ' :: list) =
      if ':' ∈ cs then (announced? cs).map (· ++ ':' :: ' ' :: list)
      else if announcement <+: cs then some list else none := by
  simp only [announced?, announcement_prefix_append_iff]
  by_cases hcs : announcement <+: cs
  · rw [if_pos hcs, if_pos hcs, if_pos hcs]
    by_cases hcolon : ':' ∈ cs
    · obtain ⟨front, more, rfl, hfront⟩ := List.eq_append_cons_of_mem hcolon
      rw [if_pos hcolon, List.append_assoc, List.cons_append, dropWhile_append_colon hfront,
        dropWhile_append_colon hfront]
      cases more with
      | nil => rfl
      | cons c more =>
        by_cases hc : c = ' '
        · subst hc
          rfl
        · have hspace : (' ' == c) = false := beq_eq_false_iff_ne.2 (Ne.symm hc)
          simp [List.isPrefixOf?, hspace]
    · rw [if_neg hcolon, dropWhile_append_colon hcolon]
      rfl
  · simp [hcs]

/-! ## Reading a list -/

open Wording (readAny? find? text upTo)

theorem read?_announcing (cs : List Char) :
    Wording.read? (text "is missing the following properties" ++ [.skip (· != ':')] ++ text ": ")
        cs = (announced? cs).map ([], ·) := by
  show Wording.read? [.exactly announcement, .skip (· != ':'), .exactly ": ".toList] cs = _
  rw [announced?]
  by_cases hcs : announcement <+: cs
  · obtain ⟨rest, rfl⟩ := hcs
    have hdrop : (announcement ++ rest).dropWhile (· != ':') = rest.dropWhile (· != ':') :=
      List.dropWhile_append_of_pos (Text.bne_of_not_mem (by decide))
    rw [if_pos (List.prefix_append _ _), hdrop, Wording.read?_cons (Piece.read?_exactly _ _)]
    simp only [Wording.read?, Piece.read?]
    cases ": ".toList.isPrefixOf? (rest.dropWhile (· != ':')) <;> rfl
  · have hnone : announcement.isPrefixOf? cs = none := by
      rw [Option.eq_none_iff_forall_ne_some]
      exact fun rest hrest => hcs ⟨rest, List.isPrefixOf?_eq_some_iff_append_eq.1 hrest⟩
    rw [if_neg hcs, Wording.read?, Piece.read?, hnone]
    rfl

/-- A line is read as one with a list of missing properties at a place where a list is announced,
and what is read there is the list up to a full stop. -/
theorem readAny?_missingProperties (cs : List Char) :
    readAny? Shape.missingProperties.rule.wordings cs =
      (announced? cs).bind (readAny? [upTo '.']) := by
  rw [Shape.rule, readAny?, List.findSome?_singleton, Wording.read?_append, read?_announcing]
  cases announced? cs with
  | none => rfl
  | some list =>
    rw [Option.bind_some, readAny?, List.findSome?_singleton]
    show Option.map Prod.fst (Option.map _ ((upTo '.').read? list)) = _
    rw [Option.map_map]
    rfl

theorem readAny?_upTo_of_head? {cs : List Char} (hne : cs ≠ []) (h : cs.head? ≠ some '.') :
    readAny? [upTo '.'] cs = some [String.ofList (cs.takeWhile (· != '.'))] := by
  obtain ⟨c, rest, rfl⟩ := List.exists_cons_of_ne_nil hne
  have hc : (c != '.') = true := bne_iff_ne.2 fun heq => h (congrArg some heq)
  simp [readAny?, upTo, Wording.read?, Piece.read?, hc]

theorem takeWhile_eq_self_of_no_stop {cs : List Char} (h : '.' ∉ cs) :
    cs.takeWhile (· != '.') = cs :=
  List.takeWhile_eq_self_iff.2 (Text.bne_of_not_mem h)

theorem takeWhile_append_of_stop {cs : List Char} (h : '.' ∈ cs) (rest : List Char) :
    (cs ++ rest).takeWhile (· != '.') = cs.takeWhile (· != '.') := by
  rw [List.takeWhile_append, if_neg]
  intro hlength
  have hself := (List.takeWhile_prefix (· != '.')).eq_of_length hlength
  have hstop := List.takeWhile_eq_self_iff.1 hself '.' h
  exact absurd hstop (by decide)

variable {header list : List Char}

/-- What follows a header that lists a part of itself does not decide where a list is read: it is
read from one and the same place of the header. -/
theorem exists_fields?_of_listsOwn (h : ListsOwn header) :
    ∃ own, ∀ list, Shape.missingProperties.fields? (header ++ ':' :: ' ' :: list) =
      some [String.ofList ((own ++ ':' :: ' ' :: list).takeWhile (· != '.'))] := by
  induction header with
  | nil => exact absurd h not_listsOwn_nil
  | cons c rest ih =>
    by_cases hhere : ∃ own ∈ announced? (c :: rest), own.head? ≠ some '.'
    · obtain ⟨own, hown, hhead⟩ := hhere
      refine ⟨own, fun list => Wording.find?_of_readAny? ?_⟩
      rw [readAny?_missingProperties, announced?_append, if_pos (colon_mem_of_announced? hown),
        hown, Option.map_some, Option.bind_some]
      refine readAny?_upTo_of_head? (by simp) ?_
      cases own with
      | nil => simp
      | cons d own => exact hhead
    · have hcolon := h.colon_mem
      obtain ⟨own, hfields⟩ := ih ((listsOwn_cons_iff.1 h).resolve_left hhere)
      refine ⟨own, fun list => ?_⟩
      -- what the header lists here begins with a full stop, so nothing is read
      have hnone : readAny? Shape.missingProperties.rule.wordings
          (c :: rest ++ ':' :: ' ' :: list) = none := by
        rw [readAny?_missingProperties, announced?_append, if_pos hcolon]
        cases hself : announced? (c :: rest) with
        | none => rfl
        | some self =>
          have hstop : self.head? = some '.' := by
            by_contra hne
            exact hhere ⟨self, hself, hne⟩
          obtain ⟨more, rfl⟩ := List.head?_eq_some_iff.1 hstop
          rfl
      rw [Shape.fields?, List.cons_append, find?, ← List.cons_append, hnone]
      exact hfields list

/-- Where a header lists no part of itself, nothing but the list behind it can be read. -/
theorem fields?_of_not_listsOwn (h : ¬ ListsOwn header)
    (hlist : ¬ announcement <:+: ':' :: ' ' :: list) (hstop : '.' ∉ list) {fields : Fields}
    (hfields : Shape.missingProperties.fields? (header ++ ':' :: ' ' :: list) = some fields) :
    fields = [String.ofList list] := by
  obtain ⟨before, rest, hsplit, hread⟩ := Wording.exists_readAny?_of_find? hfields
  rw [readAny?_missingProperties] at hread
  obtain ⟨read, hannounced, hread⟩ := Option.bind_eq_some_iff.1 hread
  rcases List.append_eq_append_iff.1 hsplit with ⟨front, -, hrest⟩ | ⟨cs, hheader, rfl⟩
  · -- no list is announced behind the header
    have hpart := (announced?_eq_some_iff.1 hannounced).1.isInfix
    exact absurd (hpart.trans (hrest ▸ (List.suffix_append front rest).isInfix)) hlist
  · rw [announced?_append] at hannounced
    split at hannounced
    · -- what the header lists of itself begins with a full stop
      obtain ⟨own, hown, rfl⟩ := Option.map_eq_some_iff.1 hannounced
      have hhead : own.head? = some '.' := by
        by_contra hne
        exact h (listsOwn_of_suffix (hheader ▸ List.suffix_append _ _) hown hne)
      obtain ⟨more, rfl⟩ := List.head?_eq_some_iff.1 hhead
      cases hread
    · obtain ⟨-, hself⟩ := Option.ite_none_right_eq_some.1 hannounced
      obtain rfl := Option.some.inj hself
      have hne : list ≠ [] := by
        rintro rfl
        cases hread
      have hhead : list.head? ≠ some '.' := fun hdot => hstop (List.mem_of_head? hdot)
      rw [readAny?_upTo_of_head? hne hhead, takeWhile_eq_self_of_no_stop hstop] at hread
      exact (Option.some.inj hread).symm

/-! ## Lists of names -/

/-- A list of names does not announce a further list, for there a blank follows a letter. -/
theorem not_announcement_infix_commaList {names : List String} (h : ∀ name ∈ names, Listable name) :
    ¬ announcement <:+: ':' :: ' ' :: (commaList names).toList := by
  intro hpart
  have hchain : (':' :: ' ' :: (commaList names).toList).IsChain CanFollow := by
    refine List.isChain_cons_cons.2 ⟨fun _ => Or.inr rfl, ?_⟩
    exact (isChain_canFollow_commaList h).cons fun c hc =>
      canFollow_of_not_blank (isBlank_head?_commaList h c hc)
  have hannouncement := List.IsChain.infix hchain hpart
  exact absurd hannouncement (by decide)

/-- Where a header lists a part of itself, one of two names is not read back. With a full stop in
that part the names do not decide what is read, and without one the colon in front of the list is
read as a part of a name. -/
theorem exists_not_read_of_listsOwn (h : ListsOwn header) :
    ∃ name ∈ ["a", "b"], ∀ fields,
      Shape.missingProperties.fields? (header ++ ':' :: ' ' :: name.toList) = some fields →
        PropertyList.read (fields.text 0) ≠ [name] := by
  obtain ⟨own, hfields⟩ := exists_fields?_of_listsOwn h
  by_cases hstop : '.' ∈ own
  · by_contra hall
    have hread (name : String) (hname : name ∈ ["a", "b"]) :
        PropertyList.read (String.ofList (own.takeWhile (· != '.'))) = [name] := by
      by_contra hne
      refine hall ⟨name, hname, fun fields hsome => ?_⟩
      rw [hfields, takeWhile_append_of_stop hstop] at hsome
      rw [← Option.some.inj hsome]
      exact hne
    have hsame := (hread "a" (by decide)).symm.trans (hread "b" (by decide))
    exact absurd hsame (by decide)
  · refine ⟨"a", List.mem_cons_self, fun fields hsome hread => ?_⟩
    have htake : (own ++ ':' :: ' ' :: "a".toList).takeWhile (· != '.') =
        own ++ ':' :: ' ' :: "a".toList := by
      refine takeWhile_eq_self_of_no_stop ?_
      simpa using hstop
    rw [hfields, htake] at hsome
    rw [← Option.some.inj hsome] at hread
    have hcolon : ':' ∈ (String.ofList (own ++ ':' :: ' ' :: "a".toList)).toList := by simp
    obtain ⟨name, hname, hmem⟩ := PropertyList.exists_mem_read hcolon (by decide) (by decide)
    have ha : name ∈ ["a"] := hread ▸ hname
    rw [List.mem_singleton.1 ha] at hmem
    exact absurd hmem (by decide)

/-! ## The message -/

namespace Message

variable {source target : String}

/-- The two types and the list are read back from a message that goes on with the list. -/
theorem fields?_ofMissing (hsource : Quotable source) (htarget : Quotable target)
    {list : List Char} (hne : list ≠ []) (hbreak : '\n' ∉ list)
    (hfirst : ∀ c ∈ list.head?, isBlank c = false) :
    Shape.missingPropsFrom.fields? ((ofMissing source target).chars ++ ':' :: ' ' :: list) =
      some [source, target, String.ofList list] := by
  have hnames : ∀ s ∈ (ofMissing source target).names, Quotable s :=
    List.forall_mem_cons.2 ⟨hsource, List.forall_mem_singleton.2 htarget⟩
  have hheader : (ofMissing source target).wording.read?
        ((ofMissing source target).chars ++ ':' :: ' ' :: list) =
      some ([source, target], ':' :: ' ' :: list) := by
    have hunbroken : Text.Unbroken (String.ofList (':' :: ' ' :: list)) :=
      .ofList (by simpa using hbreak)
    have hrest : chars [.words _ hunbroken] = ':' :: ' ' :: list := by simp [chars, Part.text]
    have hread := @read?_wording_append (ofMissing source target) [.words _ hunbroken] rfl hnames
    rwa [chars_append, hrest] at hread
  have hlist : Wording.read? [.exactly ":".toList, .skip isBlank, .field (· != '\n')]
      (':' :: ' ' :: list) = some ([String.ofList list], []) := by
    have hskip : (Piece.skip isBlank).read? (' ' :: list) = some ([], list) :=
      congrArg (fun rest => some ([], rest)) (Text.stripLeft_eq_self hfirst)
    have hfield : (Piece.field (· != '\n')).read? list = some ([String.ofList list], []) := by
      have hread := @Piece.read?_field (· != '\n') list [] hne (Text.bne_of_not_mem hbreak)
        (fun c hc => by cases hc)
      rwa [List.append_nil] at hread
    have hcolon : (Piece.exactly ":".toList).read? (':' :: ' ' :: list) = some ([], ' ' :: list) :=
      Piece.read?_exactly _ _
    rw [Wording.read?_cons hcolon, Wording.read?_cons hskip, Wording.read?_cons hfield]
    rfl
  have hread : Wording.read? ((ofMissing source target).wording ++
        [.exactly ":".toList, .skip isBlank, .field (· != '\n')])
        ((ofMissing source target).chars ++ ':' :: ' ' :: list) =
      some ([source, target, String.ofList list], []) := by
    rw [Wording.read?_append, hheader, Option.bind_some, hlist]
    rfl
  exact Wording.find?_of_readAny? (Wording.readAny?_cons_of_some hread [])

/-- With a list of names behind it the message is one line, with nothing to strip from it. -/
theorem lines_ofMissing (hsource : Quotable source) (htarget : Quotable target)
    {names : List String} (hne : names ≠ []) (hnames : ∀ name ∈ names, Listable name) :
    Text.lines ((ofMissing source target).text ++ ": " ++ commaList names).toList =
      [⟨0, (ofMissing source target).chars ++ ':' :: ' ' :: (commaList names).toList⟩] := by
  have htext : ((ofMissing source target).text ++ ": " ++ commaList names).toList =
      (ofMissing source target).chars ++ ':' :: ' ' :: (commaList names).toList := by
    simp [text]
  have hquotable : ∀ s ∈ (ofMissing source target).names, Quotable s :=
    List.forall_mem_cons.2 ⟨hsource, List.forall_mem_singleton.2 htarget⟩
  rw [htext]
  refine Text.lines_eq_singleton ?_ ?_ (fun c hc => ?_) (fun c hc => ?_)
  · simp
  · simp [newline_not_mem_chars hquotable, newline_not_mem_commaList hnames]
  · cases hc
    decide
  · rw [List.append_cons, List.append_cons,
      List.getLast?_append_of_ne_nil _ (toList_commaList_ne_nil hne hnames)] at hc
    exact isBlank_getLast?_commaList hnames c hc

end Message

open Message (ofMissing)

/-- The properties that a problem says are missing. -/
def Problem.missingProps? : Problem → Option (List String)
  | missing names => some names
  | missingPropsFrom _ _ names => some names
  | _ => none

/-- A line that is read as one with a list of missing properties says of no others that they are
missing: the second shape with such lists yields to the first one. -/
theorem Text.Line.read_eq_of_missingProps {line : Line} {fields : Fields}
    (hfields : Shape.missingProperties.fields? line.text = some fields) {shape : Shape}
    {finding : Finding} (h : (shape, finding) ∈ line.findings) {names : List String}
    (hnames : finding.problem.missingProps? = some names) :
    PropertyList.read (fields.text 0) = names := by
  obtain ⟨fields', findings, hfields', hreport, hmem⟩ := report_of_mem_findings h
  have hshape := Problem.shape_of_report hreport hmem
  cases hproblem : finding.problem with
  | missing names' =>
    rw [hproblem] at hshape hnames
    subst hshape
    cases hreport
    obtain rfl := Option.some.inj (hfields.symm.trans hfields')
    rw [List.mem_singleton.1 hmem] at hproblem
    cases hproblem
    exact Option.some.inj hnames
  | missingPropsFrom =>
    rw [hproblem] at hshape
    subst hshape
    obtain ⟨_, hcontribution, -⟩ := contribution?_of_mem_findings h
    have hguard : (Shape.missingPropsFrom.rule.unless?.any fun guard =>
        (guard.fields? line.text).isSome) = true := congrArg Option.isSome hfields
    rw [Problem.shape, Shape.contribution?, if_pos hguard] at hcontribution
    cases hcontribution
  | _ =>
    rw [hproblem] at hnames
    cases hnames

/-- Where the message lists no part of itself, it is known by one of the two shapes as one that
lists the names behind it. -/
theorem Message.exists_contribution?_ofMissing {source target : String} (hsource : Quotable source)
    (htarget : Quotable target) (hown : ¬ ListsOwn (ofMissing source target).chars)
    {names : List String} (hne : names ≠ [])
    (hnames : ∀ name ∈ names, Listable name ∧ '.' ∉ name.toList) :
    ∃ (shape : Shape) (p : Problem), p.missingProps? = some names ∧
      shape.contribution?
          ((ofMissing source target).chars ++ ':' :: ' ' :: (commaList names).toList) =
        some (.problem p) := by
  have hlistable : ∀ name ∈ names, Listable name := fun name hname => (hnames name hname).1
  cases hfields : Shape.missingProperties.fields?
      ((ofMissing source target).chars ++ ':' :: ' ' :: (commaList names).toList) with
  | some fields =>
    have hstop : '.' ∉ (commaList names).toList := by
      intro hmem
      rcases mem_commaList hmem with hc | hc | ⟨name, hname, hc⟩
      · cases hc
      · cases hc
      · exact (hnames name hname).2 hc
    have hread := fields?_of_not_listsOwn hown (not_announcement_infix_commaList hlistable) hstop
      hfields
    refine ⟨.missingProperties, .missing names, rfl, ?_⟩
    rw [Shape.contribution?, hfields, hread, String.ofList_toList]
    show some (Contribution.problem (.missing (PropertyList.read (commaList names)))) = _
    rw [PropertyList.read_commaList hne hlistable]
  | none =>
    have hguard : (Shape.missingPropsFrom.rule.unless?.any fun guard =>
        (guard.fields? ((ofMissing source target).chars ++
          ':' :: ' ' :: (commaList names).toList)).isSome) = false :=
      congrArg Option.isSome hfields
    have hread := fields?_ofMissing hsource htarget (toList_commaList_ne_nil hne hlistable)
      (newline_not_mem_commaList hlistable) (isBlank_head?_commaList hlistable)
    refine ⟨.missingPropsFrom, .missingPropsFrom source target names, rfl, ?_⟩
    rw [Shape.contribution?, hguard, hread, String.ofList_toList]
    show some (Contribution.problem
      (.missingPropsFrom source target (PropertyList.readEnglish (commaList names)))) = _
    rw [PropertyList.readEnglish_commaList hne hlistable]

namespace Record

variable {source target : String}

/-- For all types that can be quoted the following are the same: in every mode and for all lists of
names, a record of the message that the target's properties of these names are missing from the
source lists just these names, in their order; and the message in front of the list does not list a
part of itself. -/
theorem missing_recovered_iff (hsource : Quotable source) (htarget : Quotable target) :
    (∀ mode names, names ≠ [] → (∀ name ∈ names, Listable name ∧ '.' ∉ name.toList) →
        ∃ r ∈ ofText mode ((ofMissing source target).text ++ ": " ++ commaList names),
          r.problem.missingProps? = some names) ↔
      ¬ ListsOwn (ofMissing source target).chars := by
  constructor
  · intro hall hown
    obtain ⟨name, hname, hnotRead⟩ := exists_not_read_of_listsOwn hown
    have hlistable : ∀ s ∈ ["a", "b"], Listable s ∧ '.' ∉ s.toList := by decide
    have hnames : ∀ s ∈ [name], Listable s ∧ '.' ∉ s.toList :=
      List.forall_mem_singleton.2 (hlistable name hname)
    have hlines := Message.lines_ofMissing hsource htarget (List.cons_ne_nil name [])
      fun s hs => (hnames s hs).1
    obtain ⟨r, hr, hprops⟩ := hall .monotonic [name] (List.cons_ne_nil _ _) hnames
    obtain ⟨line, hline, ⟨shape, finding⟩, hfinding, hproblem⟩ :=
      (exists_mem_ofLines_iff .monotonic _).1 ⟨r, hr, rfl⟩
    rw [hlines, List.mem_singleton] at hline
    obtain ⟨own, hfields⟩ := exists_fields?_of_listsOwn hown
    have hsome := hfields name.toList
    have htext : line.text = (ofMissing source target).chars ++ ':' :: ' ' :: name.toList := by
      rw [hline, commaList_singleton]
    have hread := Text.Line.read_eq_of_missingProps (htext ▸ hsome) hfinding (hproblem ▸ hprops)
    exact hnotRead _ hsome hread
  · intro hown mode names hne hnames
    have hlines := Message.lines_ofMissing hsource htarget hne fun s hs => (hnames s hs).1
    obtain ⟨shape, p, hprops, hcontribution⟩ :=
      Message.exists_contribution?_ofMissing hsource htarget hown hne hnames
    have hline := List.mem_singleton_self (⟨0, (ofMissing source target).chars ++
      ':' :: ' ' :: (commaList names).toList⟩ : Text.Line)
    rw [← hlines] at hline
    obtain ⟨r, hr, hproblem⟩ :=
      exists_mem_ofText_of_contribution? mode hline hcontribution (List.mem_singleton_self _)
    exact ⟨r, hr, hproblem ▸ hprops⟩

/-- A colon in the target is harmless if no space follows it. -/
theorem missing_recovered_iff_colon :
    let source := "\x7b android: string; \x7d"
    let target := "\x7b and:number; more:T[] \x7d"
    Quotable source ∧ Quotable target ∧ ¬ ListsOwn (ofMissing source target).chars ∧
      ∃ r ∈ ofText .indented ((ofMissing source target).text ++ ": " ++ commaList ["and", "more"]),
        r.problem.missingProps? = some ["and", "more"] := by
  intro source target
  have hsource : Quotable source := by decide +kernel
  have htarget : Quotable target := by decide +kernel
  have hown : ¬ ListsOwn (ofMissing source target).chars := by decide +kernel
  exact ⟨hsource, htarget, hown, (missing_recovered_iff hsource htarget).2 hown .indented
    ["and", "more"] (by decide) (by decide +kernel)⟩

/-- The target's first property has a colon and a space, so the rest of the target is taken for the
beginning of the list. -/
theorem missing_of_object_type_lost :
    (ofMissing "\x7b\x7d" "\x7b a: string; b: number; \x7d").text ++ ": " ++ commaList ["a", "b"] =
        "Type '\x7b\x7d' is missing the following properties from type " ++
          "'\x7b a: string; b: number; \x7d': a, b" ∧
      (ofText .monotonic ("Type '\x7b\x7d' is missing the following properties from type " ++
          "'\x7b a: string; b: number; \x7d': a, b")).map Record.problem =
        [.missing ["string; b: number; \x7d': a", "b"]] := by
  decide +kernel

end Record

end Diagnosis
