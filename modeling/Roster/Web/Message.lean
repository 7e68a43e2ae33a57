import Roster.Json.Printer

/-!
# Messages

The requests and responses of HTTP. The names of headers are compared without regard to the case
of ASCII letters, and of headers with the same name the first one counts.
-/

namespace Roster.Web

/-- A request. -/
structure HttpRequest where
  method : String := "GET"
  target : String
  headers : List (String × String) := []
  body : String := ""
  deriving Repr, DecidableEq

/-- A response. -/
structure HttpResponse where
  status : Nat
  headers : List (String × String) := []
  body : String := ""
  deriving Repr, DecidableEq

/-- A text with its ASCII letters in lower case. -/
def asciiLower (text : String) : String :=
  String.ofList (text.toList.map Char.toLower)

/-- The value of a header. -/
def HttpRequest.header? (r : HttpRequest) (name : String) : Option String :=
  (r.headers.find? fun header => asciiLower header.1 == asciiLower name).map Prod.snd

namespace HttpResponse

/-- The response with further headers. -/
def withHeaders (r : HttpResponse) (headers : List (String × String)) : HttpResponse :=
  { r with headers := r.headers ++ headers }

/-- A response without a body. -/
def empty (status : Nat) : HttpResponse :=
  { status }

/-- A response in JSON. -/
def ofJson (status : Nat) (json : Json) : HttpResponse :=
  { status, headers := [("content-type", "application/json")], body := json.compact }

/-- A response in plain text. -/
def ofText (status : Nat) (text : String) : HttpResponse :=
  { status, headers := [("content-type", "text/plain; charset=utf-8")], body := text }

/-- A refusal with its reason, in JSON. -/
def refusal (status : Nat) (detail : String) : HttpResponse :=
  ofJson status (.object [("detail", .string detail)])

end HttpResponse

end Roster.Web
