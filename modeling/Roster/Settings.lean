import Roster.Json.Decode

/-!
# Settings

Where the records are, where to listen and what is allowed. Settings are read from JSON, and what
is left out keeps its default.
-/

namespace Roster

/-- Where the server listens and whose pages may use it. -/
structure ServerSettings where
  host : String := "0.0.0.0"
  port : UInt16 := 8000
  /-- The allowed origins; none means any. -/
  corsOrigins : List String :=
    ["http://localhost:8080", "http://localhost:3000", "http://localhost:5173"]
  deriving Repr, DecidableEq

/-- All settings. -/
structure Settings where
  /-- A data file, or a pattern for several. -/
  dataPath : String := "dummy_db/data.json"
  server : ServerSettings := {}
  /-- The greatest number of records on a page. -/
  maxLimit : UInt32 := 100
  logLevel : String := "info"
  deriving Repr, DecidableEq

/-- The address to listen on, as host and port with a colon between them. -/
def ServerSettings.address (s : ServerSettings) : String :=
  s.host ++ ":" ++ toString s.port.toNat

open Decoder in
/-- Reads the settings of the server. -/
def ServerSettings.decoder : Decoder ServerSettings :=
  record [
    field "host" string fun s x => { s with host := x },
    field "port" uint16 fun s x => { s with port := x },
    field "cors_origins" (list string) fun s x => { s with corsOrigins := x }] {}

namespace Settings

/-- The default settings. -/
def default : Settings := {}

open Decoder in
/-- Reads settings. Each group of settings is a structure of its own. -/
def decoder : Decoder Settings :=
  record [
    field "data" (record [field "path" string fun _ x => x] default.dataPath)
      fun s x => { s with dataPath := x },
    field "server" ServerSettings.decoder fun s x => { s with server := x },
    field "query" (record [field "max_limit" uint32 fun _ x => x] default.maxLimit)
      fun s x => { s with maxLimit := x },
    field "logging" (record [field "level" string fun _ x => x] default.logLevel)
      fun s x => { s with logLevel := x }] default

/-- The settings as JSON. -/
def json (s : Settings) : Json :=
  .object [
    ("data", .object [("path", .string s.dataPath)]),
    ("server", .object [
      ("host", .string s.server.host),
      ("port", .nat s.server.port.toNat),
      ("cors_origins", .strings s.server.corsOrigins)]),
    ("query", .object [("max_limit", .nat s.maxLimit.toNat)]),
    ("logging", .object [("level", .string s.logLevel)])]

end Settings

end Roster
