import Roster.Json.Event
import Roster.Json.Literal
import Roster.Text.Basic

/-!
# Reading JSON

`Json.read` turns a text into events. It goes on until the first value is complete, and then says
what text follows, or until the text breaks the grammar, and then says so; the events up to there
are given either way. So a reader of the events can tell which comes first, a fault of its own or
one of the text.

`Json.parse?` is the value of a whole text.
-/

namespace Roster

/-- The events of a text up to the end of the first value, and what follows that value; or those
up to the place where the text is malformed. -/
structure JsonReading where
  events : List JsonEvent
  rest : Option (List Char)
  deriving Repr

/-- Whether a character may stand between the parts of a JSON text. -/
def Json.isSpace (c : Char) : Bool :=
  c == ' ' || c == '\n' || c == '\t' || c == '\r'

/-- Whether nothing but spaces follows the value that was read. -/
def JsonReading.isWhole (reading : JsonReading) : Bool :=
  match reading.rest with
  | some rest => rest.all Json.isSpace
  | none => false

namespace Json

/-- An array or an object that is not closed yet. -/
inductive Container
  | array
  | object
  deriving Repr, DecidableEq

/-- What the grammar asks for next. -/
inductive Expectation
  /-- A value. -/
  | value
  /-- An item or the end of an array that has no item yet. -/
  | firstItem
  /-- A name or the end of an object that has no field yet. -/
  | firstKey
  /-- A name. -/
  | nextKey
  /-- The colon after a name. -/
  | colon
  /-- A comma or the end of the container, after a value. -/
  | separator
  deriving Repr, DecidableEq

/-- The containers that are open, the innermost one first, and what comes next. -/
structure ReaderState where
  containers : List Container
  expected : Expectation
  deriving Repr, DecidableEq

/-- One step of the grammar: an event or none, the state after it and the text that follows. -/
abbrev Step := Option JsonEvent × ReaderState × List Char

/-- Reads the start of a value: a whole scalar, or an opening bracket. -/
def valueStep? (outer : List Container) (cs : List Char) : Option Step :=
  match cs with
  | [] => none
  | c :: rest =>
    if c = '[' then some (some .startArray, ⟨.array :: outer, .firstItem⟩, rest)
    else if c = '{' then some (some .startObject, ⟨.object :: outer, .firstKey⟩, rest)
    else if c = '"' then
      (literal? rest).map fun (s, rest) => (some (.string s), ⟨outer, .separator⟩, rest)
    else if c = '-' ∨ c.isDigit then
      (numeral? cs).map fun (n, rest) => (some (.number n), ⟨outer, .separator⟩, rest)
    else if c = 'n' then
      (['u', 'l', 'l'].isPrefixOf? rest).map fun rest =>
        (some .null, ⟨outer, .separator⟩, rest)
    else if c = 't' then
      (['r', 'u', 'e'].isPrefixOf? rest).map fun rest =>
        (some (.bool true), ⟨outer, .separator⟩, rest)
    else if c = 'f' then
      (['a', 'l', 's', 'e'].isPrefixOf? rest).map fun rest =>
        (some (.bool false), ⟨outer, .separator⟩, rest)
    else none

/-- Reads a name. -/
def keyStep? (outer : List Container) : List Char → Option Step
  | '"' :: rest => (literal? rest).map fun (s, rest) => (some (.key s), ⟨outer, .colon⟩, rest)
  | _ => none

/-- Takes one step at a text that does not start with a space. -/
def step? (state : ReaderState) (cs : List Char) : Option Step :=
  match state.expected, state.containers, cs with
  | .value, outer, cs => valueStep? outer cs
  | .firstItem, .array :: outer, ']' :: rest => some (some .endArray, ⟨outer, .separator⟩, rest)
  | .firstItem, outer, cs => valueStep? outer cs
  | .firstKey, .object :: outer, '}' :: rest => some (some .endObject, ⟨outer, .separator⟩, rest)
  | .firstKey, outer, cs => keyStep? outer cs
  | .nextKey, outer, cs => keyStep? outer cs
  | .colon, outer, ':' :: rest => some (none, ⟨outer, .value⟩, rest)
  | .separator, .array :: outer, ',' :: rest => some (none, ⟨.array :: outer, .value⟩, rest)
  | .separator, .array :: outer, ']' :: rest => some (some .endArray, ⟨outer, .separator⟩, rest)
  | .separator, .object :: outer, ',' :: rest => some (none, ⟨.object :: outer, .nextKey⟩, rest)
  | .separator, .object :: outer, '}' :: rest =>
    some (some .endObject, ⟨outer, .separator⟩, rest)
  | _, _, _ => none

/-- Takes steps until no container is open after a value, and collects the events, the last one
first. Every step takes a character at least, so the length of the text is enough of them. -/
def readSteps : Nat → ReaderState → List JsonEvent → List Char → JsonReading
  | 0, _, events, _ => ⟨events.reverse, none⟩
  | steps + 1, state, events, cs =>
    if state.expected == .separator && state.containers.isEmpty then ⟨events.reverse, some cs⟩
    else
      match step? state (cs.dropWhile isSpace) with
      | none => ⟨events.reverse, none⟩
      | some (some event, state, rest) => readSteps steps state (event :: events) rest
      | some (none, state, rest) => readSteps steps state events rest

/-- Reads the first value of a text. -/
def read (text : String) : JsonReading :=
  let cs := text.toList
  readSteps (cs.length + 1) ⟨[], .value⟩ [] cs

/-- The value of a text. -/
def parse? (text : String) : Option Json :=
  let reading := read text
  if reading.isWhole then ofEvents? reading.events else none

end Json

end Roster
