import Roster.Command.Line
import Roster.Output.Format
import Roster.Query.Request
import Roster.Service

/-!
# Commands

What the program can be asked to do on its command line (`Command`), and how the words of the
command line say it (`Invocation.read`). Three switches may stand before the command or after it:
the settings file, the data file and the flag for more log output. After the command they win.
-/

namespace Roster

/-- What to do. -/
inductive Command
  | query (request : Request) (output : OutputFormat)
  | get (id : Int64) (output : OutputFormat)
  | search (term : String) (columns : Option String) (shape : Shape) (output : OutputFormat)
  | columns (category : Option String)
  | statistics (view : StatisticsView)
  | serve (host : Option String) (port : Option UInt16)
  deriving Repr, DecidableEq

/-- What to do, and on which data. -/
structure Invocation where
  settingsPath : Option String
  dataPath : Option String
  command : Command
  deriving Repr, DecidableEq

namespace Command

/-- The switches of every level. -/
def commonSwitches : List Switch := [
  { long := "config", short := some 'c', value := some .text },
  { long := "data", short := some 'd', value := some .text },
  { long := "verbose", short := some 'v' },
  { long := "help", short := some 'h' }]

/-- The names of the commands. -/
def names : List String :=
  ["query", "get", "search", "columns", "stats", "serve"]

/-- The level before the command. -/
def rootLevel : Level where
  switches := commonSwitches ++ [{ long := "version", short := some 'V' }]
  commands := names ++ ["help"]

/-- The switch for the format of output. -/
def outputSwitch : Switch :=
  { long := "output", short := some 'o', value := some (.member (OutputFormat.byName.map Prod.fst)) }

/-- The switch for the shape of rows. -/
def shapeSwitch : Switch :=
  { long := "format", short := some 'f', value := some (.member (Shape.byName.map Prod.fst)) }

/-- The switch for column names. -/
def columnsSwitch : Switch :=
  { long := "columns", value := some .text }

/-- A natural number below a bound. -/
def naturalKind (bound : Nat) : ValueKind :=
  .integer 0 (bound - 1)

/-- What may be given after the name of a command. -/
def level (name : String) : Level :=
  match name with
  | "query" =>
    { switches := commonSwitches ++ [
        columnsSwitch,
        { long := "page", value := some (naturalKind UInt32.size) },
        { long := "limit", value := some (naturalKind UInt32.size) },
        { long := "search", short := some 's', value := some .text },
        { long := "filters", value := some .text },
        { long := "sort-by", value := some .text },
        { long := "sort-order", value := some (.member (Direction.byName.map Prod.fst)) },
        shapeSwitch, outputSwitch] }
  | "get" =>
    { switches := commonSwitches ++ [outputSwitch]
      positional := some (.integer Int64.minValue.toInt Int64.maxValue.toInt, true) }
  | "search" =>
    { switches := commonSwitches ++ [columnsSwitch, shapeSwitch, outputSwitch]
      positional := some (.text, true) }
  | "columns" => { switches := commonSwitches ++ [{ long := "category", value := some .text }] }
  | "stats" =>
    { switches := commonSwitches
      positional := some (.member (StatisticsView.byName.map Prod.fst), false) }
  | _ =>
    { switches := commonSwitches ++ [
        { long := "host", value := some .text },
        { long := "port", value := some (naturalKind UInt16.size) }] }

end Command

namespace Command.Arguments

/-- The member of an enumeration that an option names, or a default. -/
def member {α : Type} (arguments : Arguments) (name : String) (members : List (String × α))
    (default : α) : α :=
  ((arguments.value? name).bind fun word => members.lookup word).getD default

/-- The number that an option gives. -/
def natural? (arguments : Arguments) (name : String) : Option Nat :=
  ((arguments.value? name).bind fun word => Number.integer? word.toList).map Int.toNat

/-- The word of 32 bits that an option gives. -/
def word32? (arguments : Arguments) (name : String) : Option UInt32 :=
  (arguments.natural? name).map UInt32.ofNat

/-- The request that the options of a query make. -/
def request (arguments : Arguments) : Request where
  columns := ((arguments.value? "columns").filter fun s => !s.isEmpty).map columnNames
  page := arguments.word32? "page"
  limit := arguments.word32? "limit"
  search := arguments.value? "search"
  filters := arguments.value? "filters"
  sortBy := arguments.value? "sort-by"
  direction := arguments.member "sort-order" Direction.byName .ascending
  shape := arguments.member "format" Shape.byName .nested

/-- The command of a name with its arguments. -/
def command (name : String) (arguments : Arguments) : Command :=
  let output := arguments.member "output" OutputFormat.byName
  let word := arguments.positional.getD ""
  match name with
  | "query" => .query arguments.request (output .table)
  | "get" =>
    .get ((Number.int64? word.toList).getD 0) (output .json)
  | "search" =>
    .search word (arguments.value? "columns") (arguments.member "format" Shape.byName .nested)
      (output .table)
  | "columns" => .columns (arguments.value? "category")
  | "stats" => .statistics ((StatisticsView.byName.lookup word).getD .overview)
  | _ => .serve (arguments.value? "host") ((arguments.natural? "port").map UInt16.ofNat)

end Command.Arguments

open Command in
/-- Reads the words of a command line. The command `help` is followed by the name of a command or
by nothing. -/
def Invocation.read (words : List String) : Except Refusal Invocation := do
  let (before, command) ← Arguments.read rootLevel words
  match command with
  | none => throw .invalid
  | some ("help", rest) =>
    if rest.isEmpty || rest.any rootLevel.commands.contains && rest.length == 1 then throw .help
    else throw .invalid
  | some (name, rest) =>
    let (after, _) ← Arguments.read (level name) rest
    return {
      settingsPath := after.value? "config" <|> before.value? "config"
      dataPath := after.value? "data" <|> before.value? "data"
      command := after.command name }

end Roster
