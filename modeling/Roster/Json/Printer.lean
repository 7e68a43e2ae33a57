import Roster.Json.Basic
import Roster.Number.Shortest

/-!
# Writing JSON

* `compact` writes a value on one line without blanks.
* `pretty` writes each item and each field on a line of its own, indented by two blanks for each
  level; an empty array or object stays on its line.
* In a string the quote, the backslash and the characters below U+0020 are escaped, five of them
  by a letter and the others by four hexadecimal digits (`escape`). Everything else stands for
  itself.
-/

namespace Roster.Json

open Number

/-- A hexadecimal digit. -/
def hexDigit (n : Nat) : Char :=
  Nat.digitChar (n % 16)

/-- A character inside a string. -/
def escape (c : Char) : List Char :=
  if c = '"' then ['\\', '"']
  else if c = '\\' then ['\\', '\\']
  else if c = '\x08' then ['\\', 'b']
  else if c = '\x0C' then ['\\', 'f']
  else if c = '\n' then ['\\', 'n']
  else if c = '\r' then ['\\', 'r']
  else if c = '\t' then ['\\', 't']
  else if c.toNat < 0x20 then
    ['\\', 'u', '0', '0', hexDigit (c.toNat / 16), hexDigit c.toNat]
  else [c]

/-- A string in quotes. -/
def stringText (s : String) : List Char :=
  '"' :: s.toList.flatMap escape ++ ['"']

/-- The text of a decimal with a point: in full if its first digit stands for at least `10 ^ -5`
and less than `10 ^ 16`, otherwise with an exponent. -/
def decimalText (d : Decimal) : List Char :=
  let point := d.exponent + d.length
  if 0 ≤ d.exponent && point ≤ 16 then d.positionalText ++ ['.', '0']
  else if -5 < point && point ≤ 16 then d.positionalText
  else d.scientificText

/-- The text of a floating-point value; one that is no finite number is written as `null`. -/
def doubleText : Binary64 → List Char
  | .finite negative m e =>
    (if negative then ['-'] else []) ++
      if m == 0 then ['0', '.', '0'] else decimalText (shortest .even m e)
  | _ => ['n', 'u', 'l', 'l']

/-- The text of a number. -/
def numberText : JsonNumber → List Char
  | .integer n => integerText n
  | .double v => doubleText v

mutual

/-- The value on one line, without blanks. -/
def compactText : Json → List Char
  | .null => ['n', 'u', 'l', 'l']
  | .bool true => ['t', 'r', 'u', 'e']
  | .bool false => ['f', 'a', 'l', 's', 'e']
  | .number n => numberText n
  | .string s => stringText s
  | .array items => '[' :: compactItems items ++ [']']
  | .object fields => '{' :: compactFields fields ++ ['}']

/-- Items with commas between them. -/
def compactItems : List Json → List Char
  | [] => []
  | [item] => compactText item
  | item :: items => compactText item ++ ',' :: compactItems items

/-- Fields with commas between them. -/
def compactFields : List (String × Json) → List Char
  | [] => []
  | [(key, value)] => stringText key ++ ':' :: compactText value
  | (key, value) :: fields =>
    stringText key ++ ':' :: compactText value ++ ',' :: compactFields fields

end

/-- A line break and the blanks of a level. -/
def newline (level : Nat) : List Char :=
  '\n' :: List.replicate (2 * level) ' '

mutual

/-- The value over several lines, the first of which stands at the given level. -/
def prettyText (level : Nat) : Json → List Char
  | .array (item :: items) =>
    '[' :: newline (level + 1) ++ prettyText (level + 1) item
      ++ prettyItems (level + 1) items ++ newline level ++ [']']
  | .object ((key, value) :: fields) =>
    '{' :: newline (level + 1) ++ stringText key ++ ':' :: ' ' :: prettyText (level + 1) value
      ++ prettyFields (level + 1) fields ++ newline level ++ ['}']
  | .array [] => ['[', ']']
  | .object [] => ['{', '}']
  | .null => ['n', 'u', 'l', 'l']
  | .bool true => ['t', 'r', 'u', 'e']
  | .bool false => ['f', 'a', 'l', 's', 'e']
  | .number n => numberText n
  | .string s => stringText s

/-- Further items, each after a comma and a line break. -/
def prettyItems (level : Nat) : List Json → List Char
  | [] => []
  | item :: items => ',' :: newline level ++ prettyText level item ++ prettyItems level items

/-- Further fields, each after a comma and a line break. -/
def prettyFields (level : Nat) : List (String × Json) → List Char
  | [] => []
  | (key, value) :: fields =>
    ',' :: newline level ++ stringText key ++ ':' :: ' ' :: prettyText level value
      ++ prettyFields level fields

end

/-- The value on one line. -/
def compact (json : Json) : String :=
  String.ofList (compactText json)

/-- The value over several lines. -/
def pretty (json : Json) : String :=
  String.ofList (prettyText 0 json)

end Roster.Json
