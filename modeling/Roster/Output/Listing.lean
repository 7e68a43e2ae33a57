import Roster.Column.Basic
import Roster.Number.Whole
import Roster.Output.Table

/-!
# Listings and messages

The list of columns for people (`columnListing`), and the lines by which the program tells what it
does and what has failed.
-/

namespace Roster

/-- The line of a column in a list, its path filled up to a width. -/
def columnLine (color : Bool) (width : Nat) (c : Column) : List Char :=
  [' ', ' '] ++ Style.green.apply color ['•'] ++ ' ' :: Style.cyan.apply color (pad width c.path.toList)
    ++ ' ' :: c.description.toList ++ ['\n']

/-- The columns under a heading, or all columns, with their number below. -/
def columnListing (color : Bool) (category : Option ColumnCategory) : String :=
  let columns := ColumnCategory.columnsUnder category
  let title :=
    match category with
    | some c => c.name ++ " columns:"
    | none => "Available columns:"
  let width := (columns.map fun c => c.path.length).foldl max 0
  String.ofList <|
    Style.bold.apply color title.toList ++ '\n' :: columns.flatMap (columnLine color width)
      ++ '\n' :: Style.boldGreen.apply color (Number.naturalText columns.length)
      ++ " columns\n".toList

/-- The line that tells a failure. -/
def errorLine (color : Bool) (message : String) : String :=
  String.ofList <|
    Style.boldRed.apply color "Error:".toList ++ ' ' :: Style.red.apply color message.toList ++ ['\n']

/-- The line that tells what goes on. -/
def infoLine (color : Bool) (message : String) : String :=
  String.ofList <| Style.boldBlue.apply color "Info:".toList ++ ' ' :: message.toList ++ ['\n']

end Roster
