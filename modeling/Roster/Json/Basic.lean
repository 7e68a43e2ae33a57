import Roster.Number.Binary64
import Roster.Json.Fields

/-!
# JSON values

A number is an integer that fits 64 bits with or without a sign, or else a binary floating-point
value. An object keeps its fields in order.
-/

namespace Roster

open Number

/-- A number of a JSON value. -/
inductive JsonNumber
  | integer (value : Int)
  | double (value : Binary64)
  deriving Repr, DecidableEq

/-- A JSON value. -/
inductive Json
  | null
  | bool (value : Bool)
  | number (value : JsonNumber)
  | string (value : String)
  | array (items : List Json)
  | object (fields : List (String × Json))
  deriving Repr

namespace Json

/-- An integer. -/
def int (n : Int) : Json :=
  .number (.integer n)

/-- A natural number. -/
def nat (n : Nat) : Json :=
  int (n : Int)

/-- A list of texts. -/
def strings (texts : List String) : Json :=
  .array (texts.map .string)

/-- A value, or `null` if there is none. -/
def optional {α : Type} (encode : α → Json) : Option α → Json
  | some a => encode a
  | none => .null

/-- The fields of an object. -/
def fields? : Json → Option (List (String × Json))
  | .object fields => some fields
  | _ => none

/-- Whether a value is the object without fields. -/
def isEmptyObject : Json → Bool
  | .object [] => true
  | _ => false

end Json

end Roster
