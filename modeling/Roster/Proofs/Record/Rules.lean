import Roster.Record.Rules

/-!
# Complete records

What it takes for a record to keep the rules (`Record.IsComplete`), and that the check finds no fault
exactly then (`Record.check_eq_ok_iff`).

A check is a row of steps, each of which lets it go on or ends it with a fault. So it ends well if
every step lets it go on (`step_bind_eq_ok_iff`), be it that a value is there
(`required_bind_eq_ok_iff`) or that a rule holds (`demand_eq_ok_iff`).
-/

namespace Roster

open Text

/-! ## Steps -/

section Steps

variable {α β : Type}

theorem step_bind_eq_ok_iff {step : Except RecordFault Unit} {next : Unit → Except RecordFault β}
    {b : β} : (step >>= next) = .ok b ↔ step = .ok () ∧ next () = .ok b := by
  cases step with
  | error fault => simp [bind, Except.bind]
  | ok => simp [bind, Except.bind]

theorem required_bind_eq_ok_iff {field : String} {value : Option α}
    {next : α → Except RecordFault β} {b : β} :
    (required field value >>= next) = .ok b ↔ ∃ a, value = some a ∧ next a = .ok b := by
  cases value with
  | none => simp [required, bind, Except.bind]
  | some a => simp [required, bind, Except.bind]

theorem demand_eq_ok_iff {rule : Bool} {fault : RecordFault} :
    demand rule fault = .ok () ↔ rule = true := by
  cases rule <;> simp [demand]

end Steps

/-! ## Rules -/

/-- Whether a text has between one and a number of characters. -/
def HasLength (greatest : Nat) (s : String) : Prop :=
  1 ≤ s.length ∧ s.length ≤ greatest

/-- Whether a website is empty, starts like a web address or has a dot. -/
def IsWebsite (s : String) : Prop :=
  s = "" ∨ "http://".toList <+: s.toList ∨ "https://".toList <+: s.toList ∨
    "www.".toList <+: s.toList ∨ '.' ∈ s.toList

/-- Whether both parts of a position are there. -/
structure Geo.IsComplete (g : Geo) : Prop where
  lat : ∃ s, g.lat = some s
  lng : ∃ s, g.lng = some s

/-- Whether all parts of an address are there. -/
structure Address.IsComplete (a : Address) : Prop where
  street : ∃ s, a.street = some s
  suite : ∃ s, a.suite = some s
  city : ∃ s, a.city = some s
  zipcode : ∃ s, a.zipcode = some s
  geo : ∃ g, a.geo = some g ∧ g.IsComplete

/-- Whether all parts of a company are there. -/
structure Company.IsComplete (c : Company) : Prop where
  name : ∃ s, c.name = some s
  catchPhrase : ∃ s, c.catchPhrase = some s
  bs : ∃ s, c.bs = some s

/-- Whether a record keeps every rule: its names have their length, its mail address has an `@`, its
website may be one, and nothing else is absent. -/
structure Record.IsComplete (r : Record) : Prop where
  name : ∃ s, r.name = some s ∧ HasLength 100 s
  username : ∃ s, r.username = some s ∧ HasLength 50 s
  email : ∃ s, r.email = some s ∧ '@' ∈ s.toList
  website : ∃ s, r.website = some s ∧ IsWebsite s
  phone : ∃ s, r.phone = some s
  address : ∃ a, r.address = some a ∧ a.IsComplete
  company : ∃ c, r.company = some c ∧ c.IsComplete

theorem hasLength_iff {greatest : Nat} {text : Option String} :
    hasLength greatest text = true ↔ ∃ s, text = some s ∧ HasLength greatest s := by
  cases text with
  | none => simp [hasLength]
  | some s => simp [hasLength, HasLength]

theorem looksLikeWebsite_iff {s : String} : looksLikeWebsite s = true ↔ IsWebsite s := by
  simp [looksLikeWebsite, IsWebsite, or_assoc]

/-! ## Checks -/

theorem Geo.check_eq_ok_iff {g : Geo} : g.check = .ok () ↔ g.IsComplete := by
  simp only [check, required_bind_eq_ok_iff]
  constructor
  · rintro ⟨lat, hlat, lng, hlng, -⟩
    exact ⟨⟨lat, hlat⟩, ⟨lng, hlng⟩⟩
  · rintro ⟨⟨lat, hlat⟩, ⟨lng, hlng⟩⟩
    exact ⟨lat, hlat, lng, hlng, rfl⟩

theorem Address.check_eq_ok_iff {a : Address} : a.check = .ok () ↔ a.IsComplete := by
  simp only [check, required_bind_eq_ok_iff, Geo.check_eq_ok_iff]
  constructor
  · rintro ⟨street, hstreet, suite, hsuite, city, hcity, zipcode, hzipcode, hgeo⟩
    exact ⟨⟨street, hstreet⟩, ⟨suite, hsuite⟩, ⟨city, hcity⟩, ⟨zipcode, hzipcode⟩, hgeo⟩
  · rintro ⟨⟨street, hstreet⟩, ⟨suite, hsuite⟩, ⟨city, hcity⟩, ⟨zipcode, hzipcode⟩, hgeo⟩
    exact ⟨street, hstreet, suite, hsuite, city, hcity, zipcode, hzipcode, hgeo⟩

theorem Company.check_eq_ok_iff {c : Company} : c.check = .ok () ↔ c.IsComplete := by
  simp only [check, required_bind_eq_ok_iff]
  constructor
  · rintro ⟨name, hname, catchPhrase, hcatchPhrase, bs, hbs, -⟩
    exact ⟨⟨name, hname⟩, ⟨catchPhrase, hcatchPhrase⟩, ⟨bs, hbs⟩⟩
  · rintro ⟨⟨name, hname⟩, ⟨catchPhrase, hcatchPhrase⟩, ⟨bs, hbs⟩⟩
    exact ⟨name, hname, catchPhrase, hcatchPhrase, bs, hbs, rfl⟩

/-- A record passes the check exactly if it keeps every rule. -/
theorem Record.check_eq_ok_iff {r : Record} : r.check = .ok () ↔ r.IsComplete := by
  simp only [check, step_bind_eq_ok_iff, demand_eq_ok_iff, required_bind_eq_ok_iff, hasLength_iff,
    looksLikeWebsite_iff, List.contains_iff_mem, Address.check_eq_ok_iff, Company.check_eq_ok_iff]
  constructor
  · rintro ⟨hname, husername, email, hemail, hat, website, hwebsite, hlooks, phone, hphone,
      address, haddress, hparts, hcompany⟩
    exact ⟨hname, husername, ⟨email, hemail, hat⟩, ⟨website, hwebsite, hlooks⟩, ⟨phone, hphone⟩,
      ⟨address, haddress, hparts⟩, hcompany⟩
  · rintro ⟨hname, husername, ⟨email, hemail, hat⟩, ⟨website, hwebsite, hlooks⟩, ⟨phone, hphone⟩,
      ⟨address, haddress, hparts⟩, hcompany⟩
    exact ⟨hname, husername, email, hemail, hat, website, hwebsite, hlooks, phone, hphone,
      address, haddress, hparts, hcompany⟩

end Roster
