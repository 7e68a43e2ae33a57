import Roster.Command.Basic
import Roster.Output.Listing
import Roster.Web.Address

/-!
# Running commands

`Service.execute` does what a command says and gives the text to print. `run` is a whole run of
the program: it reads the command line, loads settings and records from a tree of files, executes
the command, and says what is printed and with which code the program ends.
-/

namespace Roster

/-- What a run of the program leaves behind. -/
structure Outcome where
  exitCode : UInt32
  stdout : String := ""
  stderr : String := ""
  deriving Repr, DecidableEq

namespace Service

/-- The answer to a request, if its page is allowed, in a format. -/
def queryText (s : Service) (color : Bool) (request : Request) (output : OutputFormat) :
    Except Failure String :=
  return output.answer color (← s.answerChecked request)

/-- A single record in a format. -/
def recordText (s : Service) (color : Bool) (id : Int64) (output : OutputFormat) :
    Except Failure String :=
  return output.rows color [(← s.find id).row]

/-- The answer to a search in a format. -/
def searchText (s : Service) (color : Bool) (term : String) (columns : Option String)
    (shape : Shape) (output : OutputFormat) : String :=
  output.answer color <|
    s.search term ((columns.filter fun names => !names.isEmpty).map columnNames) shape

/-- A view of the statistics as JSON over several lines. -/
def statisticsText (s : Service) (view : StatisticsView) : String :=
  (s.statistics view).pretty

end Service

/-- The list of columns under the heading of a name, or of all columns. -/
def columnsText (color : Bool) (category : Option String) : Except Failure String :=
  match category with
  | none => .ok (columnListing color none)
  | some name =>
    match ColumnCategory.ofName? name with
    | some c => .ok (columnListing color (some c))
    | none => .error (.parameter "category" (.notCategory name))

/-- The settings of a server that is to listen elsewhere. -/
def ServerSettings.override (settings : ServerSettings) (host : Option String)
    (port : Option UInt16) : ServerSettings :=
  { settings with host := host.getD settings.host, port := port.getD settings.port }

/-- The line that tells where records are served. -/
def servingLine (color : Bool) (s : Service) (server : ServerSettings) : String :=
  infoLine color <|
    "Serving " ++ toString s.store.size ++ " records on http://" ++ server.address

/-- Why serving ends: the address is none, or there is no network to listen on. -/
def ServerSettings.servingFailure (server : ServerSettings) : Failure :=
  match server.listenAddress with
  | .ok address => .listening address
  | .error failure => failure

/-- What a failure leaves behind. -/
def Outcome.ofFailure (color : Bool) (failure : Failure) : Outcome :=
  { exitCode := 1, stderr := errorLine color failure.message }

/-- What the text of a command leaves behind. -/
def Outcome.ofText (color : Bool) : Except Failure String → Outcome
  | .ok text => { exitCode := 0, stdout := text ++ "\n" }
  | .error failure => .ofFailure color failure

/-- Executes a command. -/
def Service.execute (s : Service) (color : Bool) : Command → Outcome
  | .query request output => .ofText color (s.queryText color request output)
  | .get id output => .ofText color (s.recordText color id output)
  | .search term columns shape output =>
    .ofText color (.ok (s.searchText color term columns shape output))
  | .columns category => .ofText color (columnsText color category)
  | .statistics view => .ofText color (.ok (s.statisticsText view))
  | .serve host port =>
    let server := s.settings.server.override host port
    let failed := Outcome.ofFailure color server.servingFailure
    { failed with stderr := servingLine color s server ++ failed.stderr }

/-- The settings of an invocation. -/
def Invocation.settings (invocation : Invocation) (tree : FileTree) : Except Failure Settings := do
  let settings ←
    match invocation.settingsPath with
    | none => .ok {}
    | some path => (Settings.read tree path).mapError .settings
  return { settings with dataPath := invocation.dataPath.getD settings.dataPath }

/-- Loads the records of an invocation and executes its command. -/
def Invocation.run (invocation : Invocation) (tree : FileTree) (color : Bool) : Outcome :=
  match invocation.settings tree >>= Service.load tree with
  | .ok service => service.execute color invocation.command
  | .error failure => .ofFailure color failure

/-- How the program is used. -/
def usage : String :=
  "Usage: datatable [OPTIONS] <COMMAND>\n\n"
    ++ "Commands: query, get, search, columns, stats, serve, help\n\n"
    ++ "Options: -c, --config <CONFIG>; -d, --data <DATA>; -v, --verbose; -h, --help; -V, --version\n"

/-- A run of the program with the words of its command line. -/
def run (tree : FileTree) (color : Bool) (words : List String) : Outcome :=
  match Invocation.read words with
  | .ok invocation => invocation.run tree color
  | .error .invalid => { exitCode := 2, stderr := usage }
  | .error .help => { exitCode := 0, stdout := usage }
  | .error .version => { exitCode := 0, stdout := "datatable 0.1.0\n" }

end Roster
