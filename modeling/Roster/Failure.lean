import Roster.Files.Tree
import Roster.Record.Rules
import Roster.Store.Basic
import Roster.Query.Request
import Roster.Json.Decode
import Roster.Number.Whole

/-!
# Failures

Everything that can go wrong is a cause (`Failure`), and `Failure.message` is the wording of every
cause.
-/

namespace Roster

/-- Why no records could be loaded. -/
inductive SourceFailure
  /-- A path leads to no file. -/
  | noFile (path : String)
  /-- A pattern matches no data file. -/
  | noMatch (pattern : String)
  | badPattern (pattern : String)
  /-- The text of a file is no JSON array of records. -/
  | badText (path : String) (fault : JsonFault)
  | badRecords (fault : StoreFault)
  | unreadable (path : String) (fault : ReadFault)
  deriving Repr, DecidableEq

/-- Why a single record is not shown. -/
inductive LookupFailure
  | unknownId (id : Int64)
  | badRecord (id : Int64) (fault : RecordFault)
  deriving Repr, DecidableEq

/-- Why the value of a parameter is refused. -/
inductive ParameterFault
  | missing
  | notInteger (value : String)
  | notShape (value : String)
  | notDirection (value : String)
  | notCategory (value : String)
  | belowOne
  /-- The value is not between 1 and a bound. -/
  | outside (greatest : UInt32)
  deriving Repr, DecidableEq

/-- Why there are no settings, or none that can be used. -/
inductive SettingsFailure
  | unreadable (path : String) (fault : ReadFault)
  | badText (fault : JsonFault)
  | badAddress (address : String)
  deriving Repr, DecidableEq

/-- What can go wrong. -/
inductive Failure
  | source (cause : SourceFailure)
  | lookup (cause : LookupFailure)
  | parameter (name : String) (fault : ParameterFault)
  | settings (cause : SettingsFailure)
  /-- The server cannot listen on a valid address. -/
  | listening (address : String)
  deriving Repr, DecidableEq

/-- The wording of a fault in a JSON text. -/
def JsonFault.message : JsonFault → String
  | .malformed => "the text is not well-formed JSON"
  | .mismatch => "a value has the wrong shape"

/-- A word of 64 bits in decimal. -/
def idText (id : Int64) : String :=
  String.ofList (Number.integerText id.toInt)

/-- The wording of a fault among records. -/
def StoreFault.message : StoreFault → String
  | .nonPositiveId position id =>
    "record at position " ++ toString position ++ " has non-positive id " ++ idText id
  | .duplicateId id => "duplicate id " ++ idText id

/-- The wording of a cause, without the kind of failure. -/
def SourceFailure.message : SourceFailure → String
  | .noFile path => "Data file not found: " ++ path
  | .noMatch pattern => "Data file not found: no files found matching pattern: " ++ pattern
  | .badPattern pattern =>
    "Invalid JSON data: invalid pattern '" ++ pattern ++ "': the wildcards do not form a pattern"
  | .badText path fault => "Invalid JSON data: " ++ path ++ ": " ++ fault.message
  | .badRecords fault => "Invalid record: " ++ fault.message
  | .unreadable path fault => "I/O failure: failed to read " ++ path ++ ": " ++ fault.message

/-- The wording of a cause, without the kind of failure. -/
def LookupFailure.message : LookupFailure → String
  | .unknownId id => "User with ID " ++ idText id ++ " not found"
  | .badRecord id fault => "Invalid user data for ID " ++ idText id ++ ": " ++ fault.message

/-- The wording of a fault. -/
def ParameterFault.message : ParameterFault → String
  | .missing => "field required"
  | .notInteger value => "'" ++ value ++ "' is not a valid integer"
  | .notShape value => "'" ++ value ++ "' must match ^(nested|flat)$"
  | .notDirection value => "'" ++ value ++ "' must match ^(asc|desc)$"
  | .notCategory value => "'" ++ value ++ "' must be one of basic, address, company"
  | .belowOne => "must be greater than or equal to 1"
  | .outside greatest => "must be between 1 and " ++ toString greatest.toNat

/-- The wording of a fault in the parameter of a name. -/
def parameterMessage (name : String) (fault : ParameterFault) : String :=
  "Invalid parameter '" ++ name ++ "': " ++ fault.message

/-- The wording of a cause, without the kind of failure. -/
def SettingsFailure.message : SettingsFailure → String
  | .unreadable path fault => "Failed to read " ++ path ++ ": " ++ fault.message
  | .badText fault => "Failed to parse config: " ++ fault.message
  | .badAddress address =>
    "invalid listen address '" ++ address ++ "': invalid socket address syntax"

/-- The wording of a failure. -/
def Failure.message : Failure → String
  | .source cause => "Data source error: " ++ cause.message
  | .lookup cause => "Lookup error: " ++ cause.message
  | .parameter name fault => "Request error: " ++ parameterMessage name fault
  | .settings cause => "Configuration error: " ++ cause.message
  | .listening address => "Internal error: failed to bind " ++ address ++ ": no network"

/-- The refusal of a page as a failure. -/
def PageFault.failure : PageFault → Failure
  | .page => .parameter "page" .belowOne
  | .limit greatest => .parameter "limit" (.outside greatest)

end Roster
