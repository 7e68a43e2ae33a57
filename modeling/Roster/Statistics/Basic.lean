import Roster.Record.Basic
import Roster.Number.Binary64
import Roster.Statistics.Ascending
import Roster.Statistics.Tally

/-!
# Statistics

Four views of a list of records.

* `overview`: the different cities, companies and mail domains.
* `summary`: how complete the records are, the five most common of each, and the mean number of
  users for each city.
* `cityBreakdown`: for each city its users, zip codes and companies.
* `companyBreakdown`: for each company its users and cities, and the words it uses about itself in
  the first record that names it.

A city, a company or a mail address that is empty counts as absent.
-/

namespace Roster

open Number

/-- A text, unless it is empty. -/
def nonEmptyText (s : Option String) : Option String :=
  s.filter fun s => !s.isEmpty

namespace Record

/-- The city of a record. -/
def city? (r : Record) : Option String :=
  nonEmptyText (r.address.bind Address.city)

/-- The zip code of a record. -/
def zipcode? (r : Record) : Option String :=
  nonEmptyText (r.address.bind Address.zipcode)

/-- The name of the company of a record. -/
def company? (r : Record) : Option String :=
  nonEmptyText (r.company.bind Company.name)

/-- What follows the last `@` of the mail address of a record, or all of it if there is none. -/
def emailDomain? (r : Record) : Option String :=
  (nonEmptyText r.email).map fun email =>
    String.ofList (((email.toList.splitOn '@').getLast?).getD [])

end Record

/-- The different values among records. -/
structure Overview where
  totalUsers : Nat
  uniqueCities : Nat
  uniqueCompanies : Nat
  uniqueEmailDomains : Nat
  cities : List String
  companies : List String
  emailDomains : List String
  deriving Repr, DecidableEq

/-- The different values among records. -/
def overview (records : List Record) : Overview :=
  let cities := Ascending.ofTexts (records.filterMap Record.city?)
  let companies := Ascending.ofTexts (records.filterMap Record.company?)
  let domains := Ascending.ofTexts (records.filterMap Record.emailDomain?)
  { totalUsers := records.length
    uniqueCities := cities.length
    uniqueCompanies := companies.length
    uniqueEmailDomains := domains.length
    cities := cities
    companies := companies
    emailDomains := domains }

/-- How many records have something. -/
structure DataQuality where
  usersWithAddress : Nat
  usersWithCompany : Nat
  usersWithEmail : Nat
  usersWithPhone : Nat
  deriving Repr, DecidableEq

/-- How users are spread over cities. -/
structure GeographicDistribution where
  totalCities : Nat
  usersPerCity : Binary64
  deriving Repr, DecidableEq

/-- Counts and the most common values. -/
structure Summary where
  totalUsers : Nat
  dataQuality : DataQuality
  topCities : List (String × Nat)
  topCompanies : List (String × Nat)
  topEmailDomains : List (String × Nat)
  geographicDistribution : GeographicDistribution
  deriving Repr, DecidableEq

/-- How many values a list of the most common ones has. -/
def topSize : Nat := 5

/-- How many records have something. -/
def dataQuality (records : List Record) : DataQuality :=
  { usersWithAddress := records.countP fun r => r.address.isSome
    usersWithCompany := records.countP fun r => r.company.isSome
    usersWithEmail := records.countP fun r => (nonEmptyText r.email).isSome
    usersWithPhone := records.countP fun r => (nonEmptyText r.phone).isSome }

/-- Counts and the most common values. -/
def summary (records : List Record) : Summary :=
  let cities := Tally.ofList (records.filterMap Record.city?)
  let companies := Tally.ofList (records.filterMap Record.company?)
  let domains := Tally.ofList (records.filterMap Record.emailDomain?)
  { totalUsers := records.length
    dataQuality := dataQuality records
    topCities := cities.mostCommon topSize
    topCompanies := companies.mostCommon topSize
    topEmailDomains := domains.mostCommon topSize
    geographicDistribution :=
      { totalCities := cities.size
        usersPerCity :=
          if cities.size == 0 then .zero false
          else .ofFraction false records.length cities.size } }

/-- What is known of a city. -/
structure CityStats where
  userCount : Nat
  zipcodes : List String
  companies : List String
  deriving Repr, DecidableEq

/-- The different values that a text adds to, if it is there. -/
def addText (s : Option String) (texts : List String) : List String :=
  match s with
  | some s => Ascending.insertText s texts
  | none => texts

/-- What is known of a city, with one more record of it. -/
def CityStats.add (r : Record) (s : CityStats) : CityStats :=
  { userCount := s.userCount + 1
    zipcodes := addText r.zipcode? s.zipcodes
    companies := addText r.company? s.companies }

/-- What is known of cities, with one more record. -/
def addToCities (cities : List (String × CityStats)) (r : Record) : List (String × CityStats) :=
  match r.city? with
  | some city => Ascending.updateEntry city (fun s => (s.getD ⟨0, [], []⟩).add r) cities
  | none => cities

/-- The cities of records, ascending, with what is known of each. -/
def cityBreakdown (records : List Record) : List (String × CityStats) :=
  records.foldl addToCities []

/-- What is known of a company. -/
structure CompanyStats where
  employeeCount : Nat
  citiesPresent : List String
  catchPhrase : String
  bs : String
  deriving Repr, DecidableEq

/-- What the first record of a company says of it, before the record is counted. -/
def CompanyStats.ofFirst (r : Record) : CompanyStats :=
  { employeeCount := 0
    citiesPresent := []
    catchPhrase := (r.company.bind Company.catchPhrase).getD ""
    bs := (r.company.bind Company.bs).getD "" }

/-- What is known of a company, with one more record of it. -/
def CompanyStats.add (r : Record) (s : CompanyStats) : CompanyStats :=
  { s with
    employeeCount := s.employeeCount + 1
    citiesPresent := addText r.city? s.citiesPresent }

/-- What is known of companies, with one more record. -/
def addToCompanies (companies : List (String × CompanyStats)) (r : Record) :
    List (String × CompanyStats) :=
  match r.company? with
  | some name =>
    Ascending.updateEntry name (fun s => (s.getD (.ofFirst r)).add r) companies
  | none => companies

/-- The companies of records, ascending, with what is known of each. -/
def companyBreakdown (records : List Record) : List (String × CompanyStats) :=
  records.foldl addToCompanies []

end Roster
