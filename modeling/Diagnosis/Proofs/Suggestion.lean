import Diagnosis.Reading
import Mathlib.Data.List.ModifyLast

/-!
# Laws of suggestions

Records are made from events by a fold that keeps the newest record first, so that a suggestion
finds the record that it goes to. Here the fold is described from outside.

A suggestion changes nothing about a record but its suggestion (`Record.map_ofEvents`), and of two
parts of the events the second one acts on the records of the first only through the names that it
suggests before its own first problem (`Record.ofEvents_append`).
-/

namespace Diagnosis

namespace Event

/-- The record of an event, if the event is a problem. -/
def record? : Event → Option Record
  | record r => some r
  | suggestion _ => none

/-- The event with its record changed. -/
def mapRecord (f : Record → Record) : Event → Event
  | record r => record (f r)
  | suggestion name => suggestion name

/-- The names that are suggested before the first problem. -/
def leadingNames : List Event → List String
  | suggestion name :: rest => name :: leadingNames rest
  | _ => []

theorem leadingNames_mapRecord (f : Record → Record) (events : List Event) :
    leadingNames (events.map (mapRecord f)) = leadingNames events := by
  induction events with
  | nil => rfl
  | cons event rest ih =>
    cases event with
    | record r => rfl
    | suggestion name => rw [List.map_cons, mapRecord, leadingNames, leadingNames, ih]

end Event

namespace Record

/-- The records, the last one with a suggestion in the place of its own if there is a new one. -/
def suggestLast : Option String → List Record → List Record
  | none, records => records
  | some name, records => records.modifyLast fun r => { r with suggestion := some name }

/-- The same for records of which the newest comes first. -/
def suggestHead : Option String → List Record → List Record
  | some name, last :: earlier => { last with suggestion := some name } :: earlier
  | _, records => records

theorem reverse_suggestHead (name? : Option String) (records : List Record) :
    (suggestHead name? records).reverse = suggestLast name? records.reverse := by
  cases name? with
  | none => cases records <;> rfl
  | some name =>
    cases records with
    | nil => rfl
    | cons last earlier =>
      simp only [suggestHead, suggestLast, List.reverse_cons]
      rw [List.modifyLast_concat]

theorem suggestHead_cons (name? : Option String) (last : Record) (earlier : List Record) :
    suggestHead name? (last :: earlier) = suggestHead name? [last] ++ earlier := by
  cases name? <;> rfl

theorem suggestHead_suggestHead (name? : Option String) (name : String) (records : List Record) :
    suggestHead name? (suggestHead (some name) records) =
      suggestHead (some (name?.getD name)) records := by
  cases name? <;> cases records <;> rfl

/-- Events act on the records before them through the names that they suggest before their own first
problem. -/
theorem foldl_attach (events : List Event) (records : List Record) :
    events.foldl Event.attach records =
      (ofEvents events).reverse ++ suggestHead (Event.leadingNames events).getLast? records := by
  induction events generalizing records with
  | nil => cases records <;> rfl
  | cons event rest ih =>
    cases event with
    | record r =>
      have hrest : ofEvents (.record r :: rest) =
          (rest.foldl Event.attach [r]).reverse := rfl
      have hnone :
          suggestHead (Event.leadingNames (.record r :: rest)).getLast? records = records := by
        cases records <;> rfl
      rw [hrest, List.reverse_reverse, hnone, ih [r], List.append_assoc, ← suggestHead_cons]
      exact ih (r :: records)
    | suggestion name =>
      have hrest : ofEvents (.suggestion name :: rest) = ofEvents rest := rfl
      have hattach : Event.attach records (.suggestion name) = suggestHead (some name) records := by
        cases records <;> rfl
      rw [List.foldl_cons, hattach, ih, hrest, suggestHead_suggestHead, Event.leadingNames,
        List.getLast?_cons]

/-- The records of two parts of the events are those of the one, the last of which may have got a
suggestion from the other part, and then those of the other. -/
theorem ofEvents_append (first second : List Event) :
    ofEvents (first ++ second) =
      suggestLast (Event.leadingNames second).getLast? (ofEvents first) ++ ofEvents second := by
  have hfirst : first.foldl Event.attach [] = (ofEvents first).reverse := by simp [ofEvents]
  rw [ofEvents, List.foldl_append, foldl_attach, hfirst, List.reverse_append, List.reverse_reverse,
    reverse_suggestHead, List.reverse_reverse]

/-- What does not look at suggestions is told of the records by the problems among the events. -/
theorem map_ofEvents {α : Type} {f : Record → α}
    (hf : ∀ (r : Record) (suggestion : Option String), f { r with suggestion } = f r)
    (events : List Event) :
    (ofEvents events).map f = (events.filterMap Event.record?).map f := by
  have hhead (name? : Option String) (records : List Record) :
      (suggestHead name? records).map f = records.map f := by
    cases name? <;> cases records <;> simp [suggestHead, hf]
  induction events with
  | nil => rfl
  | cons event rest ih =>
    rw [← List.singleton_append, ofEvents_append, List.map_append, List.filterMap_append,
      List.map_append, ih, ← List.reverse_reverse (ofEvents [event]), ← reverse_suggestHead,
      List.map_reverse, hhead]
    cases event <;> rfl

/-- A change of records that leaves suggestions alone can be made before suggestions are given. -/
theorem ofEvents_mapRecord {f : Record → Record}
    (hf : ∀ (r : Record) (suggestion : Option String),
      f { r with suggestion } = { f r with suggestion })
    (events : List Event) :
    ofEvents (events.map (Event.mapRecord f)) = (ofEvents events).map f := by
  have hattach (records : List Record) (event : Event) :
      Event.attach (records.map f) (event.mapRecord f) = (Event.attach records event).map f := by
    cases event with
    | record r => rfl
    | suggestion name =>
      cases records with
      | nil => rfl
      | cons last earlier =>
        simp only [Event.attach, Event.mapRecord, List.map_cons]
        rw [hf last (some name)]
  have hfold (records : List Record) :
      (events.map (Event.mapRecord f)).foldl Event.attach (records.map f) =
        (events.foldl Event.attach records).map f := by
    induction events generalizing records with
    | nil => rfl
    | cons event rest ih => rw [List.map_cons, List.foldl_cons, List.foldl_cons, hattach, ih]
  rw [ofEvents, ofEvents, List.map_reverse]
  exact congrArg List.reverse (hfold [])

end Record

end Diagnosis
