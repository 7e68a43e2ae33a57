import Roster.Output.Cell

/-!
# Comma-separated values

`Csv.text` writes records of fields, a record on a line. A field is put in quotes if it holds a
comma, a quote or a line break, and a quote in it is written twice. A record without any character
is written as two quotes, so that its line is not empty. `Csv.text?` writes nothing where records
have different numbers of fields.

`Csv.records?` reads a text of this form. It passes over empty lines, and the last line need not
have an end.

`Csv.ofRows` makes records of rows: first the names, then the cells of each row under them.
-/

namespace Roster.Csv

/-- Whether a character makes quotes necessary. -/
def isSpecial (c : Char) : Bool :=
  c == ',' || c == '"' || c == '\n' || c == '\r'

/-- A field. -/
def fieldText (field : List Char) : List Char :=
  if field.any isSpecial then
    '"' :: field.flatMap (fun c => if c = '"' then ['"', '"'] else [c]) ++ ['"']
  else field

/-- A record, with the end of its line. -/
def recordText (fields : List (List Char)) : List Char :=
  let text := [','].intercalate (fields.map fieldText)
  (if text.isEmpty then ['"', '"'] else text) ++ ['\n']

/-- Records, one on a line. -/
def text (records : List (List (List Char))) : List Char :=
  records.flatMap recordText

/-- Records, one on a line, if each has as many fields as the one before it. -/
def text? : List (List (List Char)) → Option (List Char)
  | [] => some []
  | [record] => some (recordText record)
  | record :: next :: records =>
    if record.length = next.length then
      (text? (next :: records)).map (recordText record ++ ·)
    else none

/-- The place of a reader in a record. -/
inductive Place
  /-- At the start of a field. -/
  | fieldStart
  /-- In a field without quotes. -/
  | plain
  /-- In a field with quotes. -/
  | quoted
  /-- After a quote in a field with quotes. -/
  | quote
  deriving Repr, DecidableEq

/-- Reads records, given the fields of the current one and the characters of the current field,
the last ones first. -/
def readFrom (place : Place) (fields : List (List Char)) (field : List Char) :
    List Char → Option (List (List (List Char)))
  | [] =>
    match place with
    | .fieldStart => if fields.isEmpty then some [] else some [(field :: fields).reverse]
    | .quoted => none
    | _ => some [(field.reverse :: fields).reverse]
  | c :: cs =>
    match place with
    | .fieldStart =>
      if c = '"' then readFrom .quoted fields [] cs
      else if c = ',' then readFrom .fieldStart ([] :: fields) [] cs
      else if c = '\n' then
        if fields.isEmpty then readFrom .fieldStart [] [] cs
        else (readFrom .fieldStart [] [] cs).map (([] :: fields).reverse :: ·)
      else readFrom .plain fields [c] cs
    | .plain =>
      if c = ',' then readFrom .fieldStart (field.reverse :: fields) [] cs
      else if c = '\n' then
        (readFrom .fieldStart [] [] cs).map ((field.reverse :: fields).reverse :: ·)
      else readFrom .plain fields (c :: field) cs
    | .quoted =>
      if c = '"' then readFrom .quote fields field cs
      else readFrom .quoted fields (c :: field) cs
    | .quote =>
      if c = '"' then readFrom .quoted fields ('"' :: field) cs
      else if c = ',' then readFrom .fieldStart (field.reverse :: fields) [] cs
      else if c = '\n' then
        (readFrom .fieldStart [] [] cs).map ((field.reverse :: fields).reverse :: ·)
      else none

/-- The records of a text. -/
def records? (cs : List Char) : Option (List (List (List Char))) :=
  readFrom .fieldStart [] [] cs

/-- The records of rows. Without any name there is no record of names. -/
def ofRows (rows : List Row) : List (List (List Char)) :=
  let names := headers rows
  let cells := rows.map fun row => names.map row.cell
  if names.isEmpty then cells else names.map String.toList :: cells

end Roster.Csv
