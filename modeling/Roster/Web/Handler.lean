import Roster.Web.MediaType
import Roster.Web.Origins
import Roster.Web.Parameters
import Roster.Web.Route

/-!
# Handling requests

`Service.respond` is the response of a service to a request. It looks at the path first, then at
the method, and only then at parameters and body. A request of the method `OPTIONS` is a preflight
and always granted; `HEAD` gives what `GET` gives, without the body.

What can go wrong has a status of its own (`Failure.status`): 404 if there is no such record, 422
if the request is at fault, 500 if the data are.
-/

namespace Roster

/-- The status of the response that tells a failure. -/
def Failure.status : Failure → Nat
  | .lookup (.unknownId _) => 404
  | .parameter _ _ => 422
  | _ => 500

/-- The reason that the response gives for a failure. -/
def Failure.detail : Failure → String
  | .lookup cause => cause.message
  | .parameter name fault => parameterMessage name fault
  | failure => failure.message

namespace Web

/-- The response to a failure. -/
def failureResponse (failure : Failure) : HttpResponse :=
  .refusal failure.status failure.detail

/-- The response with an answer, or to a failure. -/
def answerResponse : Except Failure Answer → HttpResponse
  | .ok a => .ofJson 200 a.json
  | .error failure => failureResponse failure

/-- The response to a query in which a name is given twice. -/
def repeatedName (name : String) : HttpResponse :=
  .ofText 400 <| "Failed to deserialize query string: duplicate field " ++ name

/-- The response to a path in which a name is no UTF-8. -/
def badName (parameter : String) : HttpResponse :=
  .ofText 400 <| "Invalid URL: Invalid UTF-8 in `" ++ parameter ++ "`"

/-- The state of the service. -/
def healthResponse (s : Service) : HttpResponse :=
  .ofJson 200 <| .object [
    ("status", .string "healthy"),
    ("service", .string "datatable-engine"),
    ("version", .string "0.1.0"),
    ("records", .nat s.store.size),
    ("endpoints", .object [
      ("data", .string "/api/data/"),
      ("columns", .string "/api/columns/"),
      ("stats", .string "/api/stats/")])]

/-- The answer to a query in the query string. -/
def dataResponse (s : Service) (pairs : List (String × String)) : HttpResponse :=
  match DataParameters.ofPairs pairs with
  | .error name => repeatedName name
  | .ok parameters => answerResponse (parameters.request >>= s.answerChecked)

/-- Whether the body of a request is meant to be JSON. -/
def hasJsonBody (r : HttpRequest) : Bool :=
  (((r.header? "content-type").bind MediaType.ofText?).map MediaType.isJson).getD false

/-- The answer to a query in the body. What follows the first value of the body is not looked at. -/
def bodyResponse (s : Service) (r : HttpRequest) : HttpResponse :=
  if !hasJsonBody r then .refusal 422 "Expected request with `Content-Type: application/json`"
  else
    match Request.decoder.ofTextStart r.body with
    | .ok q => answerResponse (s.answerChecked q)
    | .error .malformed =>
      .refusal 422 <| "Failed to parse the request body as JSON: " ++ JsonFault.malformed.message
    | .error .mismatch =>
      .refusal 422 <|
        "Failed to deserialize the JSON body into the target type: " ++ JsonFault.mismatch.message

/-- The answer to a search. -/
def searchResponse (s : Service) (pairs : List (String × String)) : HttpResponse :=
  match SearchParameters.ofPairs pairs with
  | .error name => repeatedName name
  | .ok parameters =>
    answerResponse do
      match parameters.q with
      | none => throw (.parameter "q" .missing)
      | some term =>
        return s.search term ((given parameters.columns).map columnNames)
          (← shapeOf parameters.format)

/-- A single record. -/
def recordResponse (s : Service) (name : String) : HttpResponse :=
  match segmentText? name with
  | none => badName "id"
  | some text =>
    match Number.int64? text.toList with
    | none => failureResponse (.parameter "user_id" (.notInteger text))
    | some id =>
      match s.find id with
      | .ok r => .ofJson 200 r.json
      | .error failure => failureResponse failure

/-- All columns. -/
def columnsResponse : HttpResponse :=
  .ofJson 200 <| .object [
    ("total", .nat Column.all.length),
    ("columns", .object (describeColumns Column.all)),
    ("categories", .object categoryListing),
    ("description", .string "Available columns for data selection")]

/-- The columns under a heading. -/
def categoryResponse (name : String) : HttpResponse :=
  match segmentText? name with
  | none => badName "category"
  | some text =>
    match ColumnCategory.ofName? text with
    | none => .refusal 404 <| "Unknown column category '" ++ text ++ "'"
    | some category =>
      .ofJson 200 <| .object [
        ("total", .nat category.columns.length),
        ("columns", .object (describeColumns category.columns)),
        ("category", .string category.name)]

/-- What a route gives. -/
def getResponse (s : Service) (route : Route) (pairs : List (String × String)) : HttpResponse :=
  match route with
  | .health => healthResponse s
  | .data => dataResponse s pairs
  | .search => searchResponse s pairs
  | .record id => recordResponse s id
  | .columns => columnsResponse
  | .category name => categoryResponse name
  | .statistics view => .ofJson 200 (s.statistics view)

/-- The response of a route, before the policy on origins adds its headers. -/
def routeResponse (s : Service) (route : Route) (pairs : List (String × String))
    (r : HttpRequest) : HttpResponse :=
  if !route.methods.contains r.method then { status := 405, headers := [route.allowHeader] }
  else if r.method == "POST" then bodyResponse s r
  else if r.method == "HEAD" then { getResponse s route pairs with body := "" }
  else getResponse s route pairs

end Web

open Web

/-- The response of a service to a request. -/
def Service.respond (s : Service) (r : HttpRequest) : HttpResponse :=
  let target := Target.ofText r.target
  let route := Route.ofPath? target.path
  let policy := OriginPolicy.ofList s.settings.server.corsOrigins
  let response : HttpResponse :=
    if r.method == "OPTIONS" then
      { status := 200
        headers := (route.map Route.allowHeader).toList ++ policy.preflightHeaders r }
    else
      match route with
      | some route => routeResponse s route (queryPairs target.query) r
      | none => .empty 404
  response.withHeaders (policy.headers r)

end Roster
