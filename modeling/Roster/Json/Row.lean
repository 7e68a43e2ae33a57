import Roster.Json.Basic

/-!
# Rows

A `Row` is a JSON object whose fields have different names: one line of an answer. Rows are built
by `Row.insert` from the empty row, so their fields stand in the order in which they were first
given.

`Fields.insertAt` gives a value to a name inside named objects, which are made where they are
missing.
-/

namespace Roster

/-- Fields with names that are all different. -/
structure Row where
  fields : List (String × Json)
  nodup : (Fields.keys fields).Nodup

namespace Row

/-- The row without fields. -/
def empty : Row :=
  ⟨[], by simp⟩

instance : Inhabited Row := ⟨empty⟩

/-- The row with a value for a name. -/
def insert (key : String) (value : Json) (row : Row) : Row :=
  ⟨Fields.insert key value row.fields, Fields.nodup_keys_insert row.nodup key value⟩

/-- The row of fields of which a later one replaces an earlier one of the same name. -/
def ofFields (fields : List (String × Json)) : Row :=
  fields.foldl (fun row field => row.insert field.1 field.2) empty

/-- The value of a name. -/
def get? (key : String) (row : Row) : Option Json :=
  Fields.get? key row.fields

/-- The names in order. -/
def keys (row : Row) : List String :=
  Fields.keys row.fields

theorem get?_insert (key other : String) (value : Json) (row : Row) :
    (row.insert key value).get? other = if key = other then some value else row.get? other :=
  Fields.get?_insert key other value row.fields

theorem keys_insert (key : String) (value : Json) (row : Row) :
    (row.insert key value).keys = if key ∈ row.keys then row.keys else row.keys ++ [key] :=
  Fields.keys_insert key value row.fields

/-- The row as a value. -/
def json (row : Row) : Json :=
  .object row.fields

/-- The row that a value is. -/
def ofJson? (json : Json) : Option Row :=
  json.fields?.map ofFields

/-- The row with those of its fields that a test accepts. -/
def filter (test : Json → Bool) (row : Row) : Row :=
  ⟨row.fields.filter fun field => test field.2,
    row.nodup.sublist (List.filter_sublist.map Prod.fst)⟩

end Row

namespace Fields

/-- The fields of the object that a name has as its value, or none. -/
def subfields (key : String) (fields : List (String × Json)) : List (String × Json) :=
  ((get? key fields).bind Json.fields?).getD []

/-- Gives a value to the name at the end of a path through objects. -/
def insertAt : List String → Json → List (String × Json) → List (String × Json)
  | [], _, fields => fields
  | [key], value, fields => insert key value fields
  | key :: path, value, fields =>
    insert key (.object (insertAt path value (subfields key fields))) fields

end Fields

namespace Row

/-- Gives a value to the name at the end of a path that starts in the row. -/
def insertAt (path : List String) (value : Json) (row : Row) : Row :=
  match path with
  | [] => row
  | [key] => row.insert key value
  | key :: path =>
    row.insert key (.object (Fields.insertAt path value (Fields.subfields key row.fields)))

/-- Makes sure that a name has an object as its value. -/
def insertObject (key : String) (row : Row) : Row :=
  row.insert key (.object (Fields.subfields key row.fields))

end Row

end Roster
