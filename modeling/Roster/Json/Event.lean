import Roster.Json.Basic

/-!
# JSON events

A JSON text is a row of events: scalars, names, and the starts and ends of arrays and objects.
Literals are kept as events even where they name no value: a string with half of a surrogate pair,
a number beyond the range of floating-point values. Nothing is wrong with them until a value is
asked for.

`Json.events` is the row of events of a value, and `Json.ofEvents?` builds the value again. Where
an object names a field twice the later value takes the place of the earlier one.
-/

namespace Roster

/-- A step in reading a JSON text. -/
inductive JsonEvent
  | null
  | bool (value : Bool)
  | number (value : Option JsonNumber)
  | string (value : Option String)
  | startArray
  | endArray
  | startObject
  | key (name : Option String)
  | endObject
  deriving Repr, DecidableEq

namespace Json

mutual

/-- The events of a value. -/
def events : Json → List JsonEvent
  | .null => [.null]
  | .bool b => [.bool b]
  | .number n => [.number (some n)]
  | .string s => [.string (some s)]
  | .array items => .startArray :: itemEvents items ++ [.endArray]
  | .object fields => .startObject :: fieldEvents fields ++ [.endObject]

/-- The events of items. -/
def itemEvents : List Json → List JsonEvent
  | [] => []
  | item :: items => events item ++ itemEvents items

/-- The events of fields. -/
def fieldEvents : List (String × Json) → List JsonEvent
  | [] => []
  | (key, value) :: fields => .key (some key) :: events value ++ fieldEvents fields

end

/-- How deep arrays and objects may lie within each other in a value. -/
def depthLimit : Nat := 127

mutual

/-- Builds the value that comes first among events, with room for `depth` levels. -/
def build (fuel depth : Nat) (events : List JsonEvent) : Option (Json × List JsonEvent) :=
  match fuel with
  | 0 => none
  | fuel + 1 =>
    match events with
    | .null :: rest => some (.null, rest)
    | .bool b :: rest => some (.bool b, rest)
    | .number (some n) :: rest => some (.number n, rest)
    | .string (some s) :: rest => some (.string s, rest)
    | .startArray :: rest =>
      if depth == 0 then none
      else (buildItems fuel (depth - 1) rest).map fun (items, rest) => (.array items, rest)
    | .startObject :: rest =>
      if depth == 0 then none
      else (buildFields fuel (depth - 1) [] rest).map fun (fields, rest) => (.object fields, rest)
    | _ => none

/-- Builds the items up to the end of an array. -/
def buildItems (fuel depth : Nat) (events : List JsonEvent) :
    Option (List Json × List JsonEvent) :=
  match fuel with
  | 0 => none
  | fuel + 1 =>
    match events with
    | .endArray :: rest => some ([], rest)
    | events => do
      let (item, rest) ← build fuel depth events
      let (items, rest) ← buildItems fuel depth rest
      return (item :: items, rest)

/-- Builds the fields up to the end of an object, after those given. -/
def buildFields (fuel depth : Nat) (fields : List (String × Json)) (events : List JsonEvent) :
    Option (List (String × Json) × List JsonEvent) :=
  match fuel with
  | 0 => none
  | fuel + 1 =>
    match events with
    | .endObject :: rest => some (fields, rest)
    | .key (some key) :: rest => do
      let (value, rest) ← build fuel depth rest
      buildFields fuel depth (Fields.insert key value fields) rest
    | _ => none

end

/-- The value that a row of events stands for. -/
def ofEvents? (events : List JsonEvent) : Option Json :=
  (build (2 * events.length + 1) depthLimit events).map Prod.fst

end Json

end Roster
