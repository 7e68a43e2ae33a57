import Roster.Text.Basic

/-!
# Media types

`MediaType.ofText?` reads a media type: a type and a subtype with a slash between them, and
parameters after semicolons. The value of a parameter is a token, which may be missing at the end
of the text, or stands between quotes. `MediaType.isJson` says whether a type stands for JSON,
either by its subtype or by the suffix after the last plus sign.
-/

namespace Roster.Web

/-- A type and its subtype, in lower case. -/
structure MediaType where
  type : List Char
  subtype : List Char
  deriving Repr, DecidableEq

/-- Whether a character may stand in a token. -/
def isTokenChar (c : Char) : Bool :=
  c.isAlphanum || "!#$%&'*+-.^_`|~".toList.contains c

/-- Whether a character may stand between quotes. -/
def isQuotedChar (c : Char) : Bool :=
  0x20 ≤ c.toNat && c.toNat < 0x7F

/-- Reads the name of a parameter and the equals sign after it. -/
def parameterName? (cs : List Char) : Option (List Char) :=
  match cs.dropWhile isTokenChar with
  | '=' :: rest => if (cs.takeWhile isTokenChar).isEmpty then none else some rest
  | _ => none

/-- Reads the value of a parameter and a semicolon after it, and gives what comes then. A quote
that follows the opening one at once does not close it. -/
def parameterValue? (cs : List Char) : Option (List Char) :=
  match cs with
  | '"' :: cs =>
    match cs with
    | [] => none
    | first :: rest =>
      if !isQuotedChar first then none
      else
        match rest.dropWhile fun c => isQuotedChar c && c != '"' with
        | '"' :: rest =>
          match rest.dropWhile (· == ' ') with
          | [] => some []
          | ';' :: rest => some rest
          | _ => none
        | _ => none
  | cs =>
    match cs.dropWhile isTokenChar with
    | [] => some []
    | ';' :: rest => if (cs.takeWhile isTokenChar).isEmpty then none else some rest
    | _ => none

/-- Whether a text is a row of parameters. Every parameter takes a character at least, so the
length of the text is enough of them. -/
def areParameters : Nat → List Char → Bool
  | 0, cs => cs.isEmpty
  | count + 1, cs =>
    match cs.dropWhile (· == ' ') with
    | [] => true
    | cs =>
      match (parameterName? cs).bind parameterValue? with
      | some rest => areParameters count rest
      | none => false

namespace MediaType

/-- Reads a media type. -/
def ofText? (text : String) : Option MediaType :=
  let cs := text.toList
  let type := cs.takeWhile isTokenChar
  match cs.dropWhile isTokenChar with
  | '/' :: rest =>
    let subtype := rest.takeWhile isTokenChar
    let found : MediaType := ⟨type.map Char.toLower, subtype.map Char.toLower⟩
    if type.isEmpty then none
    else
      match rest.dropWhile isTokenChar with
      | [] => some found
      | ';' :: parameters =>
        if !subtype.isEmpty && areParameters parameters.length parameters then some found else none
      | _ => none
  | _ => none

/-- The subtype before its last plus sign, and the suffix after it. A plus sign that comes first
is no such sign. -/
def structuredSubtype (m : MediaType) : List Char × Option (List Char) :=
  match (m.subtype.drop 1).reverse.span (· != '+') with
  | (_, []) => (m.subtype, none)
  | (suffix, _ :: before) => (m.subtype.take 1 ++ before.reverse, some suffix.reverse)

/-- Whether a media type stands for JSON. -/
def isJson (m : MediaType) : Bool :=
  let json := "json".toList
  let (subtype, suffix) := m.structuredSubtype
  m.type == "application".toList && (subtype == json || suffix == some json)

end MediaType

end Roster.Web
