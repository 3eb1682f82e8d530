import Diagnosis.Proofs.Layout

/-!
# Words and the normal form

The words of a text are its longest runs without a blank (`runs_iff`). The normal form of a text has
the same words as the text, for a word has no blank in it and the words of the normal form stand
between single spaces. So the normal form tells the words, two texts have the same one if and only
if their words are the same (`normalize_eq_iff`), and no other blank is left in it
(`normalize_keeps_words`).
-/

namespace Diagnosis.Text

/-- Whether some texts are the longest runs of a text without a blank, from left to right. -/
inductive Runs : List Char → List (List Char) → Prop where
  /-- A text of blanks has none. -/
  | none {blanks : List Char} (hblanks : ∀ c ∈ blanks, isBlank c = true) : Runs blanks []
  /-- The first one begins behind the blanks in front, and a blank or the end of the text follows
  it. -/
  | cons {blanks run rest : List Char} {runs : List (List Char)}
      (hblanks : ∀ c ∈ blanks, isBlank c = true) (hne : run ≠ [])
      (hrun : ∀ c ∈ run, isBlank c = false) (hend : ∀ c ∈ rest.head?, isBlank c = true)
      (hrest : Runs rest runs) : Runs (blanks ++ (run ++ rest)) (run :: runs)

/-! ## Words -/

theorem words_append_of_blank {blanks : List Char} (h : ∀ c ∈ blanks, isBlank c = true)
    (cs : List Char) : words (blanks ++ cs) = words cs := by
  induction blanks with
  | nil => rfl
  | cons c rest ih =>
    obtain ⟨hc, hrest⟩ := List.forall_mem_cons.1 h
    have hfront : words (c :: (rest ++ cs)) = words [] ++ words (rest ++ cs) :=
      words_append_cons hc [] _
    rw [List.cons_append, hfront, ih hrest]
    rfl

theorem words_of_forall_not_blank {word : List Char} (hne : word ≠ [])
    (h : ∀ c ∈ word, isBlank c = false) : words word = [word] := by
  rw [words, cutAt_of_forall_not_sep h, List.filter_cons_of_pos (by simpa using hne)]
  rfl

/-- A run that a blank or the end of the text follows is the first word. -/
theorem words_append_run {run rest : List Char} (hne : run ≠ [])
    (hrun : ∀ c ∈ run, isBlank c = false) (hend : ∀ c ∈ rest.head?, isBlank c = true) :
    words (run ++ rest) = run :: words rest := by
  have hfirst := words_of_forall_not_blank hne hrun
  cases rest with
  | nil => rw [List.append_nil, hfirst]; rfl
  | cons c rest =>
    have hc : isBlank c = true := hend c rfl
    have hrest : words (c :: rest) = words rest := words_append_cons hc [] rest
    rw [words_append_cons hc, hfirst, hrest]
    rfl

theorem Runs.words_eq {cs : List Char} {runs : List (List Char)} (h : Runs cs runs) :
    words cs = runs := by
  induction h with
  | none hblanks =>
    have hwords := words_append_of_blank hblanks []
    rwa [List.append_nil] at hwords
  | cons hblanks hne hrun hend _ ih =>
    rw [words_append_of_blank hblanks, words_append_run hne hrun hend, ih]

theorem Runs.cons_of_blank {c : Char} (hc : isBlank c = true) {cs : List Char}
    {runs : List (List Char)} (h : Runs cs runs) : Runs (c :: cs) runs := by
  cases h with
  | none hblanks => exact .none (List.forall_mem_cons.2 ⟨hc, hblanks⟩)
  | cons hblanks hne hrun hend hrest =>
    rw [← List.cons_append]
    exact .cons (List.forall_mem_cons.2 ⟨hc, hblanks⟩) hne hrun hend hrest

theorem exists_runs (cs : List Char) : ∃ runs, Runs cs runs := by
  induction cs with
  | nil => exact ⟨[], .none (List.forall_mem_nil _)⟩
  | cons c cs ih =>
    obtain ⟨runs, h⟩ := ih
    by_cases hc : isBlank c = true
    · exact ⟨runs, h.cons_of_blank hc⟩
    · rw [Bool.not_eq_true] at hc
      -- the character is a run by itself, unless the first run of the rest begins right behind it
      have halone (hend : ∀ d ∈ cs.head?, isBlank d = true) : ∃ runs, Runs (c :: cs) runs :=
        ⟨_, .cons (List.forall_mem_nil _) (List.cons_ne_nil c [])
          (List.forall_mem_singleton.2 hc) hend h⟩
      cases h with
      | none hblanks => exact halone fun d hd => hblanks d (List.mem_of_mem_head? hd)
      | @cons blanks run rest runs hblanks hne hrun hend hrest =>
        cases blanks with
        | nil =>
          exact ⟨_, .cons (List.forall_mem_nil _) (List.cons_ne_nil c run)
            (List.forall_mem_cons.2 ⟨hc, hrun⟩) hend hrest⟩
        | cons b blanks =>
          refine halone fun d hd => hblanks d ?_
          rw [← Option.some.inj hd]
          exact List.mem_cons_self

/-- The words of a text are its runs. -/
theorem runs_iff {cs : List Char} {runs : List (List Char)} : Runs cs runs ↔ words cs = runs := by
  constructor
  · exact Runs.words_eq
  · rintro rfl
    obtain ⟨runs, h⟩ := exists_runs cs
    rwa [h.words_eq]

/-! ## The normal form -/

/-- Words with a space between them are found again. -/
theorem words_intercalate {ws : List (List Char)}
    (h : ∀ word ∈ ws, word ≠ [] ∧ ∀ c ∈ word, isBlank c = false) :
    words ([' '].intercalate ws) = ws := by
  induction ws with
  | nil => rfl
  | cons word rest ih =>
    obtain ⟨hne, hword⟩ := h word List.mem_cons_self
    have hrest := ih fun w hw => h w (List.mem_cons_of_mem _ hw)
    have hfirst := words_of_forall_not_blank hne hword
    have hspace : isBlank ' ' = true := by decide
    cases rest with
    | nil => simpa using hfirst
    | cons next rest =>
      rw [List.intercalate_cons_cons, List.append_assoc, List.singleton_append,
        words_append_cons hspace, hfirst, hrest]
      rfl

theorem words_normalize (s : String) : words (normalize s).toList = words s.toList := by
  rw [normalize, String.toList_ofList]
  exact words_intercalate fun _ => of_mem_words

theorem normalize_eq_iff {x y : String} :
    normalize x = normalize y ↔ words x.toList = words y.toList := by
  constructor
  · intro h
    rw [← words_normalize x, h, words_normalize]
  · intro h
    rw [normalize, normalize, h]

theorem normalize_eq_iff_exists_runs {x y : String} :
    normalize x = normalize y ↔ ∃ runs, Runs x.toList runs ∧ Runs y.toList runs := by
  simp only [normalize_eq_iff, runs_iff]
  constructor
  · exact fun h => ⟨_, rfl, h.symm⟩
  · rintro ⟨runs, hx, hy⟩
    rw [hx, hy]

theorem normalize_normalize (s : String) : normalize (normalize s) = normalize s :=
  normalize_eq_iff.2 (words_normalize s)

theorem isBlank_head?_intercalate {ws : List (List Char)}
    (h : ∀ word ∈ ws, word ≠ [] ∧ ∀ c ∈ word, isBlank c = false) (hne : ws ≠ []) :
    ∃ c, ([' '].intercalate ws).head? = some c ∧ isBlank c = false := by
  obtain ⟨word, rest, rfl⟩ := List.exists_cons_of_ne_nil hne
  obtain ⟨hword, hblank⟩ := h word List.mem_cons_self
  obtain ⟨c, cs, rfl⟩ := List.exists_cons_of_ne_nil hword
  refine ⟨c, ?_, hblank c List.mem_cons_self⟩
  cases rest with
  | nil => simp
  | cons next rest => simp [List.intercalate_cons_cons]

/-- A blank in a list of words is the space between two of them. -/
theorem eq_space_of_intercalate {ws : List (List Char)}
    (h : ∀ word ∈ ws, word ≠ [] ∧ ∀ c ∈ word, isBlank c = false) {before after : List Char}
    {c : Char} (heq : [' '].intercalate ws = before ++ c :: after) (hc : isBlank c = true) :
    c = ' ' ∧ (∃ b, before.getLast? = some b ∧ isBlank b = false) ∧
      ∃ d, after.head? = some d ∧ isBlank d = false := by
  induction ws generalizing before with
  | nil => simp at heq
  | cons word rest ih =>
    obtain ⟨⟨hne, hword⟩, hrest⟩ := List.forall_mem_cons.1 h
    have hinside (hmem : c ∈ word) : False := by
      rw [hword c hmem] at hc
      cases hc
    cases rest with
    | nil =>
      rw [List.intercalate_singleton] at heq
      exact (hinside (heq ▸ by simp)).elim
    | cons next rest =>
      rw [List.intercalate_cons_cons, List.append_assoc, List.singleton_append] at heq
      obtain ⟨more, rfl, hmore⟩ : ∃ more, before = word ++ more ∧
          ' ' :: [' '].intercalate (next :: rest) = more ++ c :: after := by
        rcases List.append_eq_append_iff.1 heq with ⟨more, hbefore, hmore⟩ | ⟨more, rfl, hmore⟩
        · exact ⟨more, hbefore, hmore⟩
        · cases more with
          | nil => exact ⟨[], by simp, hmore.symm⟩
          | cons b more =>
            obtain ⟨rfl, -⟩ := List.cons.inj hmore
            exact (hinside (by simp)).elim
      cases more with
      | nil =>
        obtain ⟨rfl, rfl⟩ := List.cons.inj hmore
        refine ⟨rfl, ⟨word.getLast hne, ?_, hword _ (List.getLast_mem hne)⟩, ?_⟩
        · rw [List.append_nil, List.getLast?_eq_some_getLast hne]
        · exact isBlank_head?_intercalate hrest (List.cons_ne_nil next rest)
      | cons b more =>
        obtain ⟨-, hmore⟩ := List.cons.inj hmore
        obtain ⟨hspace, ⟨last, hlast, hblank⟩, hafter⟩ := ih hrest hmore
        refine ⟨hspace, ⟨last, ?_, hblank⟩, hafter⟩
        rw [List.getLast?_append, List.getLast?_cons, hlast]
        rfl

/-- The words of a text are its longest runs without a blank, and two texts have the same normal
form if and only if they have the same ones in the same order. The words of the normal form are
those of the text, the only blanks in it are single spaces with other characters right before and
behind them, and it is its own normal form. -/
theorem normalize_keeps_words (x : String) :
    Runs x.toList (words x.toList) ∧
      (∀ y : String,
        normalize x = normalize y ↔ ∃ runs, Runs x.toList runs ∧ Runs y.toList runs) ∧
      words (normalize x).toList = words x.toList ∧
      (∀ before c after, (normalize x).toList = before ++ c :: after → isBlank c = true →
        c = ' ' ∧ (∃ b, before.getLast? = some b ∧ isBlank b = false) ∧
          ∃ d, after.head? = some d ∧ isBlank d = false) ∧
      normalize (normalize x) = normalize x := by
  refine ⟨runs_iff.2 rfl, fun y => normalize_eq_iff_exists_runs, words_normalize x, ?_,
    normalize_normalize x⟩
  intro before c after heq hc
  rw [normalize, String.toList_ofList] at heq
  exact eq_space_of_intercalate (fun _ => of_mem_words) heq hc

/-- Two words among tabs, an em space and a line feed. -/
def spacedText : String := "\ta\t\u2003b\n"

theorem normalize_keeps_words_spacedText :
    normalize spacedText = normalize "a b" ∧
      ∃ before after, (normalize spacedText).toList = before ++ ' ' :: after ∧
        (∃ b, before.getLast? = some b ∧ isBlank b = false) ∧
          ∃ d, after.head? = some d ∧ isBlank d = false := by
  obtain ⟨hruns, hsame, -, hspace, -⟩ := normalize_keeps_words spacedText
  have hwords : words spacedText.toList = words "a b".toList := by
    decide +kernel
  rw [hwords] at hruns
  have htext : (normalize spacedText).toList = ['a'] ++ ' ' :: ['b'] := by
    decide +kernel
  obtain ⟨-, hbefore, hafter⟩ := hspace ['a'] ' ' ['b'] htext rfl
  exact ⟨(hsame "a b").2 ⟨_, hruns, runs_iff.2 rfl⟩, ['a'], ['b'], htext, hbefore, hafter⟩

end Diagnosis.Text
