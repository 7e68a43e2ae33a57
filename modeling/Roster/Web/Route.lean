import Roster.Service
import Roster.Web.Target

/-!
# Routes

What the paths of the server stand for. A path is taken as the names between its slashes; the
lists and single records may also be reached with a slash at the end. A path that is a route by
its fixed names is never taken as one with a name of its own in the last place.
-/

namespace Roster.Web

/-- What a path stands for. Names inside a path are kept with their escapes. -/
inductive Route
  | health
  | data
  | search
  | record (id : String)
  | columns
  | category (name : String)
  | statistics (view : StatisticsView)
  deriving Repr, DecidableEq

namespace Route

/-- The route of the names below the root of the interface. -/
def ofNames? : List String → Option Route
  | ["data"] | ["data", ""] => some .data
  | ["data", "search"] | ["data", "search", ""] => some .search
  | ["data", id] => if id.isEmpty then none else some (.record id)
  | ["data", id, ""] => some (.record id)
  | ["columns"] | ["columns", ""] => some .columns
  | ["columns", name] => if name.isEmpty then none else some (.category name)
  | ["stats"] | ["stats", ""] => some (.statistics .overview)
  | ["stats", "summary"] => some (.statistics .summary)
  | ["stats", "cities"] => some (.statistics .cities)
  | ["stats", "companies"] => some (.statistics .companies)
  | _ => none

/-- The route of a path. -/
def ofPath? (path : String) : Option Route :=
  match pathNames path with
  | ["", ""] => some .health
  | "" :: "api" :: names => ofNames? names
  | _ => none

/-- The methods of a route. -/
def methods : Route → List String
  | .data => ["GET", "HEAD", "POST"]
  | _ => ["GET", "HEAD"]

/-- The header that names the methods of a route. -/
def allowHeader (route : Route) : String × String :=
  ("allow", String.ofList ([','].intercalate (route.methods.map String.toList)))

end Route

end Roster.Web
