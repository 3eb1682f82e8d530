import Diagnosis.Proofs.Appending
import Diagnosis.Proofs.FirstOccurrence
import Diagnosis.Proofs.Parts
import Mathlib.Data.List.Nodup

/-!
# What stands for a dropped record

A record is dropped from an analysis if an earlier one has its key. The key is coarse. It joins the
path by dots, and of what a problem of a specific kind mentions it keeps the source type and the
name or module that was not found.

Here it is shown how much the first record of a key has in common with the others. In the monotonic
mode paths only grow, so that the dots lose nothing: problems of a specific kind that have the same
dotted path have the same path (`Record.path_eq_of_dottedPath_eq`). Their problems are the same for
the kinds that the key tells completely (`Problem.eq_of_told`), and may differ in all that it leaves
out.
-/

namespace Diagnosis

open Text (Line)

/-! ## Paths with dots -/

/-- Names that are not empty take up room, so none can follow without a change of the dotted
form. -/
theorem eq_of_prefix_of_dotted_eq {short long : List String} (hstart : short <+: long)
    (hne : ∀ name ∈ long, name ≠ "") (hdotted : ".".intercalate short = ".".intercalate long) :
    short = long := by
  obtain ⟨more, rfl⟩ := hstart
  cases more with
  | nil => rw [List.append_nil]
  | cons name rest =>
    by_cases hshort : short = []
    · subst hshort
      have hname : name.toList <:+: ".".toList.intercalate ((name :: rest).map String.toList) :=
        Text.infix_intercalate_of_mem (by simp) _
      rw [← String.toList_intercalate, ← List.nil_append (name :: rest), ← hdotted] at hname
      have hempty : name.toList = [] := List.eq_nil_of_infix_nil hname
      exact absurd (String.toList_eq_nil_iff.1 hempty) (hne name (by simp))
    · have hlength := congrArg String.length hdotted
      rw [String.intercalate_append_of_ne_nil hshort (List.cons_ne_nil name rest),
        String.length_append, String.length_append] at hlength
      have hdot : ".".length = 1 := rfl
      omega

theorem upTo_prefix_of_mem_sightingsAfter {before ls : List Line} {s : Sighting}
    (h : s ∈ sightingsAfter before ls) : s.upTo <+: before ++ ls := by
  induction ls generalizing before with
  | nil => cases h
  | cons line rest ih =>
    rw [List.append_cons]
    rcases List.mem_append.1 h with h | h
    · obtain ⟨f, -, rfl⟩ := List.mem_map.1 h
      exact List.prefix_append _ _
    · exact ih h

namespace Record

/-- In the monotonic mode the paths of all problems of a specific kind are initial parts of one
list, that of all properties that the lines enter. -/
theorem path_prefix_of_kinded {ls : List Line} {r : Record} (h : r ∈ ofLines .monotonic ls)
    (hkind : r.problem.mismatch? = none) : r.path <+: ls.filterMap Text.Line.entered? := by
  obtain ⟨s, hs, hpath, hproblem⟩ := exists_sighting h
  obtain ⟨line, -, hf⟩ := Sighting.exists_mem_findings hs
  obtain ⟨fields, findings, -, hrule, hmem⟩ := Text.Line.report_of_mem_findings hf
  have hproperty := Shape.property_of_kinded hrule hmem (hproblem ▸ hkind)
  have hstart : s.upTo <+: ls := upTo_prefix_of_mem_sightingsAfter hs
  rw [← hpath]
  cases hscope : s.shape.rule.scope with
  | current =>
    have hrecord : (s.record .monotonic).path = s.upTo.filterMap Text.Line.entered? := by
      simp [Sighting.record, Finding.recordAt, hscope, hproperty, Nesting.path_after_monotonic]
    rw [hrecord]
    exact hstart.filterMap _
  | root =>
    have hrecord : (s.record .monotonic).path = [] := by
      simp [Sighting.record, Finding.recordAt, hscope, hproperty]
    rw [hrecord]
    exact List.nil_prefix

/-- So dots lose nothing of the path. -/
theorem path_eq_of_dottedPath_eq {ls : List Line} {r s : Record} (hr : r ∈ ofLines .monotonic ls)
    (hs : s ∈ ofLines .monotonic ls) (hrkind : r.problem.mismatch? = none)
    (hskind : s.problem.mismatch? = none) (h : r.dottedPath = s.dottedPath) : r.path = s.path := by
  have hne : ∀ name ∈ ls.filterMap Text.Line.entered?, name ≠ "" := by
    intro name hname
    obtain ⟨line, -, hentered⟩ := List.mem_filterMap.1 hname
    exact (Text.Line.entered?_eq_some_iff.1 hentered).ne_empty
  have hrpath := path_prefix_of_kinded hr hrkind
  have hspath := path_prefix_of_kinded hs hskind
  rcases List.prefix_or_prefix_of_prefix hrpath hspath with hstart | hstart
  · exact eq_of_prefix_of_dotted_eq hstart (fun name hname => hne name (hspath.subset hname)) h
  · exact (eq_of_prefix_of_dotted_eq hstart (fun name hname => hne name (hrpath.subset hname))
      h.symm).symm

end Record

/-! ## What the key tells of a problem -/

namespace Problem

theorem mismatch?_eq_none_iff {p : Problem} : p.mismatch? = none ↔ p.tag ≠ "type" := by
  cases p <;> simp [mismatch?, tag]

/-- Whether the key tells a problem: its kind mentions nothing but the name or the module that was
not found. -/
def isTold : Problem → Bool
  | cannotFindName _ | cannotFindModule _ | noOverload | unknownType | possiblyUndefined
  | possiblyNull | possiblyNullOrUndefined | notCallable | notConstructable | mustReturn => true
  | _ => false

/-- The problem that a key tells. -/
def ofKey? (key : Record.Key) : Option Problem :=
  match key.tag with
  | "cannotFindName" => some (cannotFindName key.name)
  | "cannotFindModule" => some (cannotFindModule key.moduleName)
  | "noOverload" => some noOverload
  | "unknownType" => some unknownType
  | "possiblyUndefined" => some possiblyUndefined
  | "possiblyNull" => some possiblyNull
  | "possiblyNullOrUndefined" => some possiblyNullOrUndefined
  | "notCallable" => some notCallable
  | "notConstructable" => some notConstructable
  | "mustReturn" => some mustReturn
  | _ => none

theorem ofKey?_key (r : Record) :
    ofKey? r.key = if r.problem.isTold then some r.problem else none := by
  obtain ⟨path, problem, suggestion⟩ := r
  cases problem <;> rfl

/-- The problem with something changed that no key keeps, if there is such a thing. -/
def altered : Problem → Problem
  | typeMismatch m => typeMismatch { m with targetType := m.targetType ++ "?" }
  | missing missingProps => missing ("" :: missingProps)
  | notExist propName onType => notExist propName (onType ++ "?")
  | implicitAny paramName => implicitAny (paramName ++ "?")
  | argumentCount expectedMin expectedMax got => argumentCount expectedMin expectedMax (got + 1)
  | operatorError operator leftType rightType =>
    operatorError operator leftType (rightType ++ "?")
  | constraintError sourceType constraint => constraintError sourceType (constraint ++ "?")
  | conversionMistake sourceType targetType => conversionMistake sourceType (targetType ++ "?")
  | basePropertyMismatch propName childType baseType =>
    basePropertyMismatch propName childType (baseType ++ "?")
  | missingPropsFrom sourceType targetType missingProps =>
    missingPropsFrom sourceType targetType ("" :: missingProps)
  | unintentionalComparison result => unintentionalComparison (result ++ "?")
  | usedBeforeAssigned varName => usedBeforeAssigned (varName ++ "?")
  | noInitializer propName => noInitializer (propName ++ "?")
  | undefinedNotAssignable targetType => undefinedNotAssignable (targetType ++ "?")
  | nullNotAssignable targetType => nullNotAssignable (targetType ++ "?")
  | genericArgsRequired genericType requiredCount =>
    genericArgsRequired genericType (requiredCount + 1)
  | typeAsValue typeName => typeAsValue (typeName ++ "?")
  | valueAsType valueName => valueAsType (valueName ++ "?")
  | syntaxExpected expected => syntaxExpected (expected ++ "?")
  | interfaceExtendError childInterface parentInterface =>
    interfaceExtendError childInterface (parentInterface ++ "?")
  | classImplementError className interfaceName =>
    classImplementError className (interfaceName ++ "?")
  | indexAccessError indexType objectType => indexAccessError indexType (objectType ++ "?")
  | invalidIndexType indexType => invalidIndexType (indexType ++ "?")
  | cannotIndex indexType objectType => cannotIndex indexType (objectType ++ "?")
  | p => p

theorem altered_ne {p : Problem} (h : p.isTold = false) : p.altered ≠ p := by
  cases p with
  | typeMismatch m =>
    cases m
    simp [altered]
  | _ => simp [altered, isTold] at h ⊢

end Problem

namespace Record

variable {r s : Record}

theorem mismatch?_eq_none_of_key_eq (h : s.key = r.key) (hkind : r.problem.mismatch? = none) :
    s.problem.mismatch? = none := by
  have htag : s.problem.tag = r.problem.tag := congrArg Key.tag h
  rw [Problem.mismatch?_eq_none_iff] at hkind ⊢
  rwa [htag]

/-- The key tells the problem of a record if and only if the kind of the problem mentions nothing
but the name or the module that was not found. -/
theorem isTold_iff : r.problem.isTold ↔ ∀ s : Record, s.key = r.key → s.problem = r.problem := by
  constructor
  · intro htold s hkey
    have hproblem := Problem.ofKey?_key s
    rw [hkey, Problem.ofKey?_key, if_pos htold] at hproblem
    split at hproblem
    · exact (Option.some.inj hproblem).symm
    · cases hproblem
  · intro h
    by_contra htold
    rw [Bool.not_eq_true] at htold
    have hkey : key { r with problem := r.problem.altered } = r.key := by
      obtain ⟨path, problem, suggestion⟩ := r
      cases problem <;> rfl
    exact Problem.altered_ne htold (h _ hkey)

end Record

/-! ## The records of an analysis -/

theorem problems_of_analyze {text : String} {a : Analysis} (h : analyze text = some a) :
    a.problems = Record.dedup (Record.ofText .monotonic (Text.trim text)) := by
  obtain ⟨htext, hproblems, -⟩ := Config.of_analyze_eq_some h
  rw [hproblems, htext, if_pos rfl]

/-- Whether a record stands for another one of its text in an analysis. -/
structure Record.Represents (kept r : Record) (text : String) (a : Analysis) : Prop where
  mem : kept ∈ a.problems
  path : kept.path = r.path
  key : kept.key = r.key
  /-- No other record of the analysis has the key. -/
  unique : ∀ other ∈ a.problems, other.key = r.key → other = kept
  /-- It is the first record of the text that has the key. -/
  first : ∃ before after, Record.ofText .monotonic (Text.trim text) = before ++ kept :: after ∧
    ∀ s ∈ before, s.key ≠ r.key
  /-- It has the same problem if the key tells the problem. -/
  problem_of_isTold : r.problem.isTold → kept.problem = r.problem
  /-- If it has another problem, the problem of the other record is not there at its path. -/
  problem_iff : kept.problem = r.problem ↔
    ∃ other ∈ a.problems, other.path = r.path ∧ other.problem = r.problem

/-- In an analysis in the usual way every problem of a specific kind that is found in the text is
represented by one record at the same path: the first one that has its key. -/
theorem Record.exists_represents {text : String} {a : Analysis} (ha : analyze text = some a)
    {r : Record} (hr : r ∈ ofText .monotonic (Text.trim text))
    (hkind : r.problem.mismatch? = none) : ∃ kept : Record, kept.Represents r text a := by
  have hproblems := problems_of_analyze ha
  have hexists : ∃ before kept after,
      ofText .monotonic (Text.trim text) = before ++ kept :: after ∧
      (∀ s ∈ before, s.key ≠ r.key) ∧ kept.key = r.key ∧
      kept ∈ dedup (ofText .monotonic (Text.trim text)) := exists_first_of_mem hr
  obtain ⟨before, kept, after, hfirst, hbefore, hkey, hmem⟩ := hexists
  have hrecord : kept ∈ ofText .monotonic (Text.trim text) := by
    rw [hfirst]
    exact List.mem_append_right _ List.mem_cons_self
  have hpath : kept.path = r.path :=
    path_eq_of_dottedPath_eq hrecord hr (mismatch?_eq_none_of_key_eq hkey hkind) hkind
      (congrArg Key.path hkey)
  have hunique : ∀ other ∈ a.problems, other.key = r.key → other = kept := by
    intro other hother hsame
    have hnodup : ((dedup (ofText .monotonic (Text.trim text))).map key).Nodup :=
      nodup_map_distinctBy [] _
    rw [hproblems] at hother
    exact List.inj_on_of_nodup_map hnodup hother hmem (hsame.trans hkey.symm)
  have hkept : kept ∈ a.problems := hproblems ▸ hmem
  refine ⟨kept, hkept, hpath, hkey, hunique, ⟨before, after, hfirst, hbefore⟩, ?_, ?_⟩
  · exact fun htold => isTold_iff.1 htold kept hkey
  · constructor
    · exact fun hproblem => ⟨kept, hkept, hpath, hproblem⟩
    · rintro ⟨other, hother, hopath, hoproblem⟩
      have hsame : other.key = r.key := by
        rw [Record.key, Record.key, dottedPath, dottedPath, hopath, hoproblem]
      rw [← hunique other hother hsame, hoproblem]

/-- Two brackets are missing. -/
def bracketsText : String := "'(' expected\n')' expected"

theorem ofText_bracketsText : Record.ofText .monotonic (Text.trim bracketsText) =
    [{ path := [], problem := .syntaxExpected "(" },
      { path := [], problem := .syntaxExpected ")" }] := by
  decide +kernel

theorem exists_analyze_bracketsText : ∃ a, analyze bracketsText = some a ∧
    a.problems = [{ path := [], problem := .syntaxExpected "(" }] := by
  have hsome : (analyze bracketsText).isSome := by decide +kernel
  obtain ⟨a, ha⟩ := Option.isSome_iff_exists.1 hsome
  refine ⟨a, ha, ?_⟩
  rw [problems_of_analyze ha, ofText_bracketsText]
  decide

theorem Record.exists_represents_brackets : ∃ a r kept, analyze bracketsText = some a ∧
    r ∈ Record.ofText .monotonic (Text.trim bracketsText) ∧ r.problem = .syntaxExpected ")" ∧
    Represents kept r bracketsText a := by
  obtain ⟨a, ha, -⟩ := exists_analyze_bracketsText
  have hr : ⟨[], .syntaxExpected ")", none⟩ ∈
      Record.ofText .monotonic (Text.trim bracketsText) := by
    rw [ofText_bracketsText]
    decide
  obtain ⟨kept, hkept⟩ := Record.exists_represents ha hr rfl
  exact ⟨a, _, kept, ha, hr, rfl, hkept⟩

/-- Of two tokens that are missing only the first one is in the analysis. -/
theorem Record.brackets_dropped : ∃ a r, analyze bracketsText = some a ∧
    r ∈ Record.ofText .monotonic (Text.trim bracketsText) ∧ r.problem.mismatch? = none ∧
    ∀ kept ∈ a.problems, ¬ (kept.path = r.path ∧ kept.problem = r.problem) := by
  obtain ⟨a, ha, hproblems⟩ := exists_analyze_bracketsText
  refine ⟨a, { path := [], problem := .syntaxExpected ")" }, ha, ?_, rfl, ?_⟩
  · rw [ofText_bracketsText]
    decide
  · rw [hproblems]
    decide

end Diagnosis
