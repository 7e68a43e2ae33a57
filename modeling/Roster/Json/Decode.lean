import Roster.Json.Reader

/-!
# Reading typed values from JSON

A `Decoder` takes the events of one value of a given shape from the front of a row of events. It
fails in one of two ways: the text is `malformed` where the events end too early or a literal that
is asked for names no value; otherwise a value has the wrong shape (`mismatch`).

The shape of a structure is a list of named fields (`Decoder.record`). It is read from an object
or from an array.

* In an object a field may come anywhere, but only once; other fields are ignored, whatever they
  hold.
* In an array the fields come in their order, and only those at the end may be left out. Anything
  after the last field breaks the text.
* Which fields may be left out is said for objects and arrays apart (`Decoder.Presence`).

A member of an enumeration (`Decoder.member`) is its name, or an object whose only field has that
name and the value `null`.
-/

namespace Roster

/-- Why no value can be read. -/
inductive JsonFault
  /-- The text breaks the grammar of JSON. -/
  | malformed
  /-- A value has not the shape that is asked for. -/
  | mismatch
  deriving Repr, DecidableEq

/-- Takes a value from the front of a row of events. -/
def Decoder (α : Type) : Type :=
  List JsonEvent → Except JsonFault (α × List JsonEvent)

namespace Decoder

/-- Takes the next event, which has to name a value if it is a literal. -/
def next : Decoder JsonEvent
  | [] => .error .malformed
  | .number none :: _ => .error .malformed
  | .string none :: _ => .error .malformed
  | .key none :: _ => .error .malformed
  | event :: events => .ok (event, events)

/-- Gives a value and takes nothing. -/
def pure {α : Type} (a : α) : Decoder α :=
  fun events => .ok (a, events)

/-- Fails. -/
def fail {α : Type} (fault : JsonFault) : Decoder α :=
  fun _ => .error fault

/-- Takes one value and then another one that may depend on it. -/
def bind {α β : Type} (first : Decoder α) (second : α → Decoder β) : Decoder β :=
  fun events => do
    let (a, events) ← first events
    second a events

instance : Monad Decoder where
  pure := Decoder.pure
  bind := Decoder.bind

/-- Passes over one value of any shape, inside which `depth` containers are open. -/
def skipFrom : Nat → List JsonEvent → Except JsonFault (List JsonEvent)
  | _, [] => .error .malformed
  | depth, .startArray :: events => skipFrom (depth + 1) events
  | depth, .startObject :: events => skipFrom (depth + 1) events
  | depth, .key _ :: events => skipFrom depth events
  | depth, .endArray :: events => if depth ≤ 1 then .ok events else skipFrom (depth - 1) events
  | depth, .endObject :: events => if depth ≤ 1 then .ok events else skipFrom (depth - 1) events
  | depth, .null :: events => if depth == 0 then .ok events else skipFrom depth events
  | depth, .bool _ :: events => if depth == 0 then .ok events else skipFrom depth events
  | depth, .number _ :: events => if depth == 0 then .ok events else skipFrom depth events
  | depth, .string _ :: events => if depth == 0 then .ok events else skipFrom depth events

/-- Passes over one value of any shape. -/
def skip : Decoder Unit :=
  fun events => (skipFrom 0 events).map fun events => ((), events)

/-- A truth value. -/
def bool : Decoder Bool := do
  match ← next with
  | .bool b => return b
  | _ => fail .mismatch

/-- A text. -/
def string : Decoder String := do
  match ← next with
  | .string (some s) => return s
  | _ => fail .mismatch

/-- An integer between two bounds. -/
def integer (least greatest : Int) : Decoder Int := do
  match ← next with
  | .number (some (.integer n)) => if least ≤ n ∧ n ≤ greatest then return n else fail .mismatch
  | _ => fail .mismatch

/-- A natural number below a bound. -/
def natural (bound : Nat) : Decoder Nat := do
  return (← integer 0 (bound - 1)).toNat

/-- A signed word of 64 bits. -/
def int64 : Decoder Int64 := do
  return Int64.ofInt (← integer Int64.minValue.toInt Int64.maxValue.toInt)

/-- An unsigned word of 32 bits. -/
def uint32 : Decoder UInt32 := do
  return UInt32.ofNat (← natural UInt32.size)

/-- An unsigned word of 16 bits. -/
def uint16 : Decoder UInt16 := do
  return UInt16.ofNat (← natural UInt16.size)

/-- A value, or `null` for none. -/
def optional {α : Type} (decoder : Decoder α) : Decoder (Option α)
  | .null :: events => .ok (none, events)
  | events => (decoder events).map fun (a, events) => (some a, events)

/-- A value of any shape. -/
def json : Decoder Json :=
  fun events =>
    match Json.build (2 * events.length + 1) Json.depthLimit events with
    | some found => .ok found
    | none => .error .malformed

/-- The items up to the end of an array. -/
def items {α : Type} (decoder : Decoder α) (fuel : Nat) (read : List α) : Decoder (List α) :=
  fun events =>
    match fuel with
    | 0 => .error .malformed
    | fuel + 1 =>
      match events with
      | .endArray :: events => .ok (read.reverse, events)
      | events => do
        let (a, events) ← decoder events
        items decoder fuel (a :: read) events

/-- An array of values of one shape. -/
def list {α : Type} (decoder : Decoder α) : Decoder (List α) := do
  match ← next with
  | .startArray => fun events => items decoder (events.length + 1) [] events
  | _ => fail .mismatch

/-- The member of an enumeration that has a name. -/
def named {α : Type} (members : List (String × α)) (name : String) : Decoder α :=
  match members.lookup name with
  | some a => pure a
  | none => fail .mismatch

/-- A member of an enumeration. -/
def member {α : Type} (members : List (String × α)) : Decoder α := do
  match ← next with
  | .string (some name) => named members name
  | .startObject =>
    match ← next with
    | .key (some name) =>
      let a ← named members name
      match ← next with
      | .null =>
        match ← next with
        | .endObject => return a
        | _ => fail .malformed
      | _ => fail .mismatch
    | _ => fail .malformed
  | _ => fail .malformed

/-- Where a field has to be given. -/
inductive Presence
  | nowhere
  | inArrays
  | everywhere
  deriving Repr, DecidableEq

/-- A field of a structure: its name, where it has to be given, and how a value that is read
changes the structure. -/
structure Field (σ : Type) where
  name : String
  presence : Presence
  read : σ → Decoder σ

/-- A field that may be left out. -/
def field {σ α : Type} (name : String) (decoder : Decoder α) (set : σ → α → σ) : Field σ :=
  ⟨name, .nowhere, fun s => do return set s (← decoder)⟩

/-- A field that may be left out of objects, but not of arrays. -/
def arrayField {σ α : Type} (name : String) (decoder : Decoder α) (set : σ → α → σ) : Field σ :=
  ⟨name, .inArrays, fun s => do return set s (← decoder)⟩

/-- A field that has to be given. -/
def requiredField {σ α : Type} (name : String) (decoder : Decoder α) (set : σ → α → σ) : Field σ :=
  ⟨name, .everywhere, fun s => do return set s (← decoder)⟩

/-- The fields up to the end of an object, of which some have been given before. -/
def objectFields {σ : Type} (fields : List (Field σ)) (fuel : Nat) (given : List String) (s : σ) :
    Decoder σ := do
  match fuel with
  | 0 => fail .malformed
  | fuel + 1 =>
    match ← next with
    | .endObject =>
      if fields.all fun f => f.presence != .everywhere || given.contains f.name then return s
      else fail .mismatch
    | .key (some name) =>
      match fields.find? fun f => f.name == name with
      | some f =>
        if given.contains name then fail .mismatch
        else objectFields fields fuel (name :: given) (← f.read s)
      | none =>
        skip
        objectFields fields fuel given s
    | _ => fail .malformed

/-- The fields up to the end of an array. -/
def arrayFields {σ : Type} : List (Field σ) → σ → Decoder σ
  | [], s => do
    match ← next with
    | .endArray => return s
    | _ => fail .malformed
  | f :: fields, s => fun events =>
    match events with
    | .endArray :: rest =>
      if (f :: fields).all (·.presence == .nowhere) then .ok (s, rest) else .error .mismatch
    | events => (do arrayFields fields (← f.read s) : Decoder σ) events

/-- A structure with the given fields, which starts out as `init`. -/
def record {σ : Type} (fields : List (Field σ)) (init : σ) : Decoder σ := do
  match ← next with
  | .startObject => fun events => objectFields fields (events.length + 1) [] init events
  | .startArray => arrayFields fields init
  | _ => fail .mismatch

/-- Reads the value of a whole text. -/
def ofText {α : Type} (decoder : Decoder α) (text : String) : Except JsonFault α := do
  let reading := Json.read text
  let (a, _) ← decoder reading.events
  if reading.isWhole then return a else .error .malformed

/-- Reads the first value of a text, whatever follows it. -/
def ofTextStart {α : Type} (decoder : Decoder α) (text : String) : Except JsonFault α := do
  return (← decoder (Json.read text).events).1

/-- Reads a value that is given as such. -/
def ofJson {α : Type} (decoder : Decoder α) (json : Json) : Except JsonFault α := do
  return (← decoder json.events).1

end Decoder

end Roster
