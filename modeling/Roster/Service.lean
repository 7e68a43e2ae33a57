import Roster.Settings
import Roster.Files.Source
import Roster.Query.Answer
import Roster.Statistics.Json

/-!
# The service

A `Service` is a store of records under settings: what every surface of the program talks to. It
is opened on the files that the settings name (`Service.load`) or on records (`Service.ofRecords`).
-/

namespace Roster

/-- Records under settings. -/
structure Service where
  settings : Settings
  store : Store

/-- The four views of the statistics. -/
inductive StatisticsView
  | overview
  | summary
  | cities
  | companies
  deriving Repr, DecidableEq

/-- The views by their names. -/
def StatisticsView.byName : List (String × StatisticsView) :=
  [("overview", .overview), ("summary", .summary), ("cities", .cities), ("companies", .companies)]

/-- The settings in a file. -/
def Settings.read (tree : FileTree) (path : String) : Except SettingsFailure Settings :=
  match tree.readText path with
  | .error fault => .error (.unreadable path fault)
  | .ok text =>
    match decoder.ofText text with
    | .ok settings => .ok settings
    | .error fault => .error (.badText fault)

namespace Service

/-- The service on the files that the settings name. -/
def load (tree : FileTree) (settings : Settings) : Except Failure Service :=
  match loadStore tree settings.dataPath with
  | .ok store => .ok ⟨settings, store⟩
  | .error cause => .error (.source cause)

/-- The service on records that are given as such. -/
def ofRecords (settings : Settings) (records : List Record) : Except Failure Service :=
  match storeOfRecords records with
  | .ok store => .ok ⟨settings, store⟩
  | .error cause => .error (.source cause)

/-- The answer to a request, whatever it asks. -/
def answer (s : Service) (q : Request) : Answer :=
  Roster.answer s.store.records q

/-- The answer to a request, if its page is allowed. -/
def answerChecked (s : Service) (q : Request) : Except Failure Answer :=
  match q.check s.settings.maxLimit with
  | .ok () => .ok (s.answer q)
  | .error fault => .error fault.failure

/-- The answer to a search. The empty term finds nothing. -/
def search (s : Service) (term : String) (columns : Option (List String)) (shape : Shape) : Answer :=
  if term.isEmpty then .empty shape
  else s.answer { columns, search := some term, shape }

/-- The record with an id, if it keeps the rules. -/
def find (s : Service) (id : Int64) : Except Failure Record :=
  match s.store.find? id with
  | none => .error (.lookup (.unknownId id))
  | some r =>
    match r.check with
    | .ok () => .ok r
    | .error fault => .error (.lookup (.badRecord id fault))

/-- A view of the statistics, in JSON. -/
def statistics (s : Service) : StatisticsView → Json
  | .overview => (overview s.store.records).json
  | .summary => (summary s.store.records).json
  | .cities => cityBreakdownJson (cityBreakdown s.store.records)
  | .companies => companyBreakdownJson (companyBreakdown s.store.records)

end Service

/-- Columns with their descriptions, by path. -/
def describeColumns (columns : List Column) : List (String × Json) :=
  columns.map fun c => (c.path, .string c.description)

/-- The paths of the columns under each heading. -/
def categoryListing : List (String × Json) :=
  ColumnCategory.all.map fun c => (c.name, .strings (c.columns.map Column.path))

end Roster
