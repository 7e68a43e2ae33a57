import Roster.Files.Glob
import Roster.Failure
import Roster.Record.Json

/-!
# Data files

Records come from one file, or from all files that match a pattern, in the order of their paths. A
location is a pattern if it holds `*` or `?`, and of what a pattern matches only files with the
extension `json` count, in any letter case. Loading stops at the first file that cannot be read or
holds something else than a JSON array of records.
-/

namespace Roster

/-- Whether a location stands for several files. -/
def isPattern (location : String) : Bool :=
  location.toList.contains '*' || location.toList.contains '?'

/-- The part of a file name after its last dot, if there is something before it. -/
def extension? (name : String) : Option String :=
  match (name.toList.splitOn '.').reverse with
  | last :: before :: rest => if before.isEmpty && rest.isEmpty then none else some (String.ofList last)
  | _ => none

/-- Whether a path is that of a data file by its extension. -/
def hasDataExtension (path : String) : Bool :=
  match ((pathNames path).filter fun s => s != "" && s != ".").getLast? with
  | some ".." => false
  | some name =>
    match extension? name with
    | some e => e.toList.map Char.toLower == "json".toList
    | none => false
  | none => false

/-- The paths of the data files that a location stands for. -/
def dataPaths (tree : FileTree) (location : String) : Except SourceFailure (List String) :=
  if isPattern location then
    match GlobPattern.ofText? location with
    | none => .error (.badPattern location)
    | some pattern =>
      let found := ((tree.select pattern).map Place.path).filter fun path =>
        tree.isFile path && hasDataExtension path
      if found.isEmpty then .error (.noMatch location) else .ok (found.mergeSort pathPrecedes)
  else if tree.isFile location then .ok [location]
  else .error (.noFile location)

/-- The records in a file. -/
def readRecords (tree : FileTree) (path : String) : Except SourceFailure (List Record) :=
  match tree.readText path with
  | .error .notFound => .error (.noFile path)
  | .error fault => .error (.unreadable path fault)
  | .ok text =>
    match (Decoder.list Record.decoder).ofText text with
    | .ok records => .ok records
    | .error fault => .error (.badText path fault)

/-- The records in the files that a location stands for, one file after the other. -/
def loadRecords (tree : FileTree) (location : String) : Except SourceFailure (List Record) := do
  let paths ← dataPaths tree location
  return (← paths.mapM (readRecords tree)).flatten

/-- The store of the records that a location stands for. -/
def loadStore (tree : FileTree) (location : String) : Except SourceFailure Store := do
  let records ← loadRecords tree location
  match Store.ofRecords records ("file:" ++ location) with
  | .ok store => return store
  | .error fault => throw (.badRecords fault)

/-- The store of records that are given as such. -/
def storeOfRecords (records : List Record) : Except SourceFailure Store :=
  match Store.ofRecords records ("memory:" ++ toString records.length ++ " records") with
  | .ok store => .ok store
  | .error fault => .error (.badRecords fault)

end Roster
