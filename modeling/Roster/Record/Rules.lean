import Roster.Record.Basic
import Roster.Text.Basic

/-!
# The rules for complete records

`Record.check` goes through the rules in a fixed order and names the first that a record breaks: a
name and a user name of limited length, a mail address with an `@`, a website that is empty or
looks like one, and the presence of every other field.
-/

namespace Roster

open Text

/-- The rule that a record breaks. -/
inductive RecordFault
  /-- A text is empty, absent or longer than a number of characters. -/
  | length (field : String) (greatest : Nat)
  /-- The mail address has no `@`. -/
  | emailFormat
  /-- The website has neither a usual beginning nor a dot. -/
  | websiteFormat
  /-- A field is absent. -/
  | missing (field : String)
  deriving Repr, DecidableEq

/-- The wording of a broken rule. -/
def RecordFault.message : RecordFault → String
  | .length field greatest => field ++ " must be between 1 and " ++ toString greatest ++ " characters"
  | .emailFormat => "Invalid email format"
  | .websiteFormat => "Invalid website format"
  | .missing field => field ++ " is required"

/-- Whether a text is there and has at least one and at most `greatest` characters. -/
def hasLength (greatest : Nat) (text : Option String) : Bool :=
  match text with
  | some s => 1 ≤ s.length && s.length ≤ greatest
  | none => false

/-- Whether a text is empty, starts like a web address or has a dot. -/
def looksLikeWebsite (website : String) : Bool :=
  let cs := website.toList
  cs.isEmpty || "http://".toList.isPrefixOf cs || "https://".toList.isPrefixOf cs
    || "www.".toList.isPrefixOf cs || cs.contains '.'

/-- A value that has to be there. -/
def required {α : Type} (field : String) : Option α → Except RecordFault α
  | some a => .ok a
  | none => .error (.missing field)

/-- Breaks off with a fault unless a rule holds. -/
def demand (rule : Bool) (fault : RecordFault) : Except RecordFault Unit :=
  if rule then .ok () else .error fault

/-- Checks the parts of a position. -/
def Geo.check (g : Geo) : Except RecordFault Unit := do
  let _ ← required "address.geo.lat" g.lat
  let _ ← required "address.geo.lng" g.lng

/-- Checks the parts of an address. -/
def Address.check (a : Address) : Except RecordFault Unit := do
  let _ ← required "address.street" a.street
  let _ ← required "address.suite" a.suite
  let _ ← required "address.city" a.city
  let _ ← required "address.zipcode" a.zipcode
  let geo ← required "address.geo" a.geo
  geo.check

/-- Checks the parts of a company. -/
def Company.check (c : Company) : Except RecordFault Unit := do
  let _ ← required "company.name" c.name
  let _ ← required "company.catchPhrase" c.catchPhrase
  let _ ← required "company.bs" c.bs

/-- Checks a record against every rule. -/
def Record.check (r : Record) : Except RecordFault Unit := do
  demand (hasLength 100 r.name) (.length "name" 100)
  demand (hasLength 50 r.username) (.length "username" 50)
  let email ← required "email" r.email
  demand (email.toList.contains '@') .emailFormat
  let website ← required "website" r.website
  demand (looksLikeWebsite website) .websiteFormat
  let _ ← required "phone" r.phone
  let address ← required "address" r.address
  address.check
  let company ← required "company" r.company
  company.check

end Roster
