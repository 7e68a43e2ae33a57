import Roster.Web.Message

/-!
# Origins

Whose pages may use the server (`OriginPolicy`), and the headers that tell a browser so. Under
`any` every page may read what it gets, but without credentials. Under `only` the pages of the
listed origins may, with credentials; a preflight is granted whatever it asks for, and it is the
missing name of the origin that stops the others.
-/

namespace Roster.Web

/-- Whose pages may use the server. -/
inductive OriginPolicy
  | any
  | only (origins : List String)
  deriving Repr, DecidableEq

/-- Whether a text can be the value of a header. -/
def isHeaderValue (text : String) : Bool :=
  text.toList.all fun c => c == '\t' || (0x20 ≤ c.toNat && c.toNat != 0x7F)

namespace OriginPolicy

/-- The policy of a list of origins, which allows any if it is empty. What cannot be the value of
a header is passed over. -/
def ofList (origins : List String) : OriginPolicy :=
  if origins.isEmpty then .any else .only (origins.filter isHeaderValue)

/-- The headers of every response to a request. -/
def headers (policy : OriginPolicy) (r : HttpRequest) : List (String × String) :=
  match policy with
  | .any => [("access-control-allow-origin", "*")]
  | .only origins =>
    let granted := (r.header? "origin").filter origins.contains
    (granted.map fun origin => ("access-control-allow-origin", origin)).toList
      ++ [("access-control-allow-credentials", "true")]

/-- A header that gives back what the request asks for in another one. -/
def granting (r : HttpRequest) (asked granted : String) : List (String × String) :=
  ((r.header? asked).map fun value => (granted, value)).toList

/-- The further headers of the response to a preflight. -/
def preflightHeaders (policy : OriginPolicy) (r : HttpRequest) : List (String × String) :=
  match policy with
  | .any => [("access-control-allow-methods", "*"), ("access-control-allow-headers", "*")]
  | .only _ =>
    granting r "access-control-request-method" "access-control-allow-methods"
      ++ granting r "access-control-request-headers" "access-control-allow-headers"

end OriginPolicy

end Roster.Web
