import Roster.Column.Basic
import Roster.Text.Blank

/-!
# Choosing columns

`Column.selection` turns requested names into columns. Names of no column are passed over, and a
column that is requested again, by either of its names, keeps its first place and spelling.

`columnNames` cuts a text of names with commas between them.
-/

namespace Roster

/-- The chosen columns so far, with one more request. -/
def Column.addRequest (chosen : List (Column × String)) (name : String) : List (Column × String) :=
  match Column.ofName? name with
  | some c => if chosen.any fun (d, _) => d == c then chosen else chosen ++ [(c, name)]
  | none => chosen

/-- The columns that requested names stand for, with the spellings first used. -/
def Column.selection (names : List String) : List (Column × String) :=
  names.foldl Column.addRequest []

/-- The names between the commas of a text, without the blanks around them. -/
def columnNames (text : String) : List String :=
  (text.toList.splitOn ',').map fun name => String.ofList (Text.trim name)

end Roster
