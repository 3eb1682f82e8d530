import Diagnosis.Text.Pieces

/-!
# Lists of property names

A message that properties are missing ends in their names, with commas between them. One form of the
message is read entry by entry. The other one is written as an English list: its last entry may
follow an "and", and a long list ends by counting the names that it leaves out ("and 3 more").
-/

namespace Diagnosis.PropertyList

/-- The entries between commas, without blanks at their ends. -/
def entries (cs : List Char) : List (List Char) := (Text.cutAt (· == ',') cs).map Text.strip

/-- An entry without the "and" in front. The word has to end there: `android` is a name. -/
def dropJoiner (entry : List Char) : List Char :=
  match "and".toList.isPrefixOf? entry with
  | some (c :: rest) => if Text.isBlank c then Text.stripLeft (c :: rest) else entry
  | _ => entry

/-- Whether an entry is a name, neither empty nor the count of what a list leaves out. -/
def isName (entry : List Char) : Bool := !entry.isEmpty && !Text.occursIn " more".toList entry

/-- Reads a list entry by entry. Empty entries are kept. -/
def read (s : String) : List String := (entries s.toList).map String.ofList

/-- Reads an English list: the names in it. -/
def readEnglish (s : String) : List String :=
  (((entries s.toList).map dropJoiner).filter isName).map String.ofList

end Diagnosis.PropertyList
