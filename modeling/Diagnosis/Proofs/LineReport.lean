import Diagnosis.Proofs.Sighting

/-!
# What a line reports as one of a shape

The records of a text and its sightings correspond one to one. So it can be told of each record by
which line and as one of which shape it was reported, and the records that one line reports as one
of one shape can be picked out of all records of the text (`Record.reportedAs`).

They are what the rule of the shape says about the line, at the path that the line has reached, and
nothing else (`Record.map_reportedAs`).
-/

namespace Diagnosis

open Text (Line)

/-! ## The findings of a line -/

/-- What a line reports as one of a shape. -/
def Text.Line.findingsAs (line : Line) (shape : Shape) : List Finding :=
  match shape.contribution? line.text with
  | some (.report findings) => findings
  | _ => []

/-- The findings of a line are those that it reports as one of each shape, in the order in which the
shapes are tried. -/
theorem Text.Line.findings_eq (line : Line) :
    line.findings = Shape.all.flatMap fun shape => (line.findingsAs shape).map (shape, ·) := by
  unfold findings contributions
  induction Shape.all with
  | nil => rfl
  | cons shape rest ih =>
    rw [List.flatMap_cons, ← ih, findingsAs, List.filterMap_cons]
    cases shape.contribution? line.text with
    | none => rfl
    | some c => cases c <;> rfl

/-- Among values that are kept with their keys, those of one key are the ones that it came with. -/
theorem filter_flatMap_map {α β : Type} [DecidableEq α] {keys : List α} (h : keys.Nodup)
    {key : α} (hkey : key ∈ keys) (values : α → List β) :
    (keys.flatMap fun k => (values k).map (k, ·)).filter (fun p => p.1 = key) =
      (values key).map (key, ·) := by
  have hself : ((values key).map (key, ·)).filter (fun p => p.1 = key) =
      (values key).map (key, ·) := by simp
  have hother {ks : List α} (hks : key ∉ ks) :
      (ks.flatMap fun k => (values k).map (k, ·)).filter (fun p => p.1 = key) = [] := by
    rw [List.filter_eq_nil_iff]
    intro p hp
    obtain ⟨k, hk, hp⟩ := List.mem_flatMap.1 hp
    obtain ⟨v, -, rfl⟩ := List.mem_map.1 hp
    simpa using fun heq : k = key => hks (heq ▸ hk)
  obtain ⟨front, rest, rfl⟩ := List.append_of_mem hkey
  obtain ⟨-, hrest, hdisjoint⟩ := List.nodup_append.1 h
  have hfront : key ∉ front := fun hmem => hdisjoint key hmem key List.mem_cons_self rfl
  rw [List.flatMap_append, List.flatMap_cons, List.filter_append, List.filter_append, hself,
    hother hfront, hother (List.nodup_cons.1 hrest).1, List.nil_append, List.append_nil]

theorem Text.Line.filter_findings (line : Line) (shape : Shape) :
    line.findings.filter (fun f => f.1 = shape) = (line.findingsAs shape).map (shape, ·) := by
  rw [findings_eq, filter_flatMap_map Shape.nodup_all (Shape.mem_all shape)]

/-! ## The sightings on a line -/

theorem sightingsAfter_append (start first second : List Line) :
    sightingsAfter start (first ++ second) =
      sightingsAfter start first ++ sightingsAfter (start ++ first) second := by
  induction first generalizing start with
  | nil => rw [List.append_nil]; rfl
  | cons line rest ih =>
    rw [List.cons_append, sightingsAfter, sightingsAfter, ih, List.append_assoc, List.append_assoc,
      List.singleton_append]

/-- A sighting is made on one of the lines behind the start. -/
theorem length_upTo_of_mem_sightingsAfter {start ls : List Line} {s : Sighting}
    (h : s ∈ sightingsAfter start ls) :
    start.length < s.upTo.length ∧ s.upTo.length ≤ start.length + ls.length := by
  induction ls generalizing start with
  | nil => cases h
  | cons line rest ih =>
    rw [List.length_cons]
    rcases List.mem_append.1 h with h | h
    · obtain ⟨f, -, rfl⟩ := List.mem_map.1 h
      rw [List.length_append, List.length_singleton]
      omega
    · have hlater := ih h
      rw [List.length_append, List.length_singleton] at hlater
      omega

/-- The sightings on a line are the findings of the line. -/
theorem filter_sightings (before : List Line) (line : Line) (after : List Line) :
    (sightings (before ++ line :: after)).filter (fun s => s.upTo = before ++ [line]) =
      line.findings.map fun f => ⟨before ++ [line], f.1, f.2⟩ := by
  have hlength : (before ++ [line]).length = before.length + 1 := by simp
  have hbefore : (sightingsAfter [] before).filter (fun s => s.upTo = before ++ [line]) = [] := by
    rw [List.filter_eq_nil_iff]
    intro s hs heq
    have hupTo := (length_upTo_of_mem_sightingsAfter hs).2
    rw [of_decide_eq_true heq, hlength, List.length_nil] at hupTo
    omega
  have hafter : (sightingsAfter (before ++ [line]) after).filter
      (fun s => s.upTo = before ++ [line]) = [] := by
    rw [List.filter_eq_nil_iff]
    intro s hs heq
    have hupTo := (length_upTo_of_mem_sightingsAfter hs).1
    rw [of_decide_eq_true heq] at hupTo
    omega
  rw [sightings, sightingsAfter_append, List.nil_append, sightingsAfter, List.filter_append,
    List.filter_append, hbefore, hafter, List.nil_append, List.append_nil, List.filter_eq_self]
  intro s hs
  obtain ⟨f, -, rfl⟩ := List.mem_map.1 hs
  exact decide_eq_true rfl

/-! ## The records of a line -/

/-- Of two lists that agree position by position, the entries of the one are picked out by a test on
the other. -/
theorem map_filter_zip {α β γ : Type} {f : α → γ} {g : β → γ} {xs : List α} {ys : List β}
    (h : xs.map f = ys.map g) (p : β → Bool) :
    (((xs.zip ys).filter fun q => p q.2).map Prod.fst).map f = (ys.filter p).map g := by
  induction xs generalizing ys with
  | nil =>
    cases ys with
    | nil => rfl
    | cons y ys => cases h
  | cons x xs ih =>
    cases ys with
    | nil => cases h
    | cons y ys =>
      obtain ⟨hhead, htail⟩ := List.cons.inj h
      rw [List.zip_cons_cons, List.filter_cons, List.filter_cons]
      by_cases hy : p y = true
      · rw [if_pos hy, if_pos hy, List.map_cons, List.map_cons, List.map_cons, ih htail, hhead]
      · rw [if_neg hy, if_neg hy, ih htail]

namespace Record

/-- The records of a text that one of its lines reports as one of a shape. The line is given by the
lines up to it, itself included. -/
def reportedAs (mode : PathMode) (text : String) (upTo : List Line) (shape : Shape) :
    List Record :=
  (((ofText mode text).zip (sightings (Text.lines text.toList))).filter fun p =>
    p.2.shape = shape ∧ p.2.upTo = upTo).map Prod.fst

/-- What a line reports as one of a shape is what the rule of the shape finds on it, at the path
that is reached on the line. -/
theorem map_reportedAs {α : Type} {f : Record → α}
    (hf : ∀ (r : Record) (suggestion : Option String), f { r with suggestion } = f r)
    (mode : PathMode) {text : String} {before after : List Line} {line : Line}
    (hlines : Text.lines text.toList = before ++ line :: after) (shape : Shape) :
    (reportedAs mode text (before ++ [line]) shape).map f =
      (line.findingsAs shape).map fun finding =>
        f (finding.recordAt shape.rule.scope (Nesting.after mode (before ++ [line])).path) := by
  have hfilter : (sightings (Text.lines text.toList)).filter
        (fun s => s.shape = shape ∧ s.upTo = before ++ [line]) =
      (line.findingsAs shape).map fun finding => ⟨before ++ [line], shape, finding⟩ := by
    simp only [Bool.decide_and]
    rw [← List.filter_filter, hlines, filter_sightings, List.filter_map]
    exact (congrArg (List.map _) (line.filter_findings shape)).trans List.map_map
  have hpick := map_filter_zip (map_ofLines hf mode (Text.lines text.toList))
    fun s => decide (s.shape = shape ∧ s.upTo = before ++ [line])
  rw [hfilter] at hpick
  exact hpick.trans List.map_map

end Record

end Diagnosis
