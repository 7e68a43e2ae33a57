import Roster.Statistics.Basic
import Roster.Json.Basic

/-!
# Statistics as JSON

The fields of every view stand in a fixed order. The sizes of lists are given beside the lists.
-/

namespace Roster

/-- The overview in JSON. -/
def Overview.json (o : Overview) : Json :=
  .object [
    ("total_users", .nat o.totalUsers),
    ("unique_cities", .nat o.uniqueCities),
    ("unique_companies", .nat o.uniqueCompanies),
    ("unique_email_domains", .nat o.uniqueEmailDomains),
    ("cities", .strings o.cities),
    ("companies", .strings o.companies),
    ("email_domains", .strings o.emailDomains)]

/-- Counts by text. -/
def countsJson (counts : List (String × Nat)) : Json :=
  .object (counts.map fun (s, n) => (s, .nat n))

/-- The summary in JSON. -/
def Summary.json (s : Summary) : Json :=
  .object [
    ("total_users", .nat s.totalUsers),
    ("data_quality", .object [
      ("users_with_address", .nat s.dataQuality.usersWithAddress),
      ("users_with_company", .nat s.dataQuality.usersWithCompany),
      ("users_with_email", .nat s.dataQuality.usersWithEmail),
      ("users_with_phone", .nat s.dataQuality.usersWithPhone)]),
    ("top_cities", countsJson s.topCities),
    ("top_companies", countsJson s.topCompanies),
    ("top_email_domains", countsJson s.topEmailDomains),
    ("geographic_distribution", .object [
      ("total_cities", .nat s.geographicDistribution.totalCities),
      ("users_per_city_avg", .number (.double s.geographicDistribution.usersPerCity))])]

/-- What is known of a city, in JSON. -/
def CityStats.json (s : CityStats) : Json :=
  .object [
    ("user_count", .nat s.userCount),
    ("unique_zipcodes", .nat s.zipcodes.length),
    ("unique_companies", .nat s.companies.length),
    ("zipcodes", .strings s.zipcodes),
    ("companies", .strings s.companies)]

/-- The breakdown by city in JSON. -/
def cityBreakdownJson (cities : List (String × CityStats)) : Json :=
  .object [
    ("cities", .object (cities.map fun (city, s) => (city, s.json))),
    ("total_cities", .nat cities.length)]

/-- What is known of a company, in JSON. -/
def CompanyStats.json (s : CompanyStats) : Json :=
  .object [
    ("employee_count", .nat s.employeeCount),
    ("cities_present", .strings s.citiesPresent),
    ("city_count", .nat s.citiesPresent.length),
    ("catchphrase", .string s.catchPhrase),
    ("business_strategy", .string s.bs)]

/-- The breakdown by company in JSON. -/
def companyBreakdownJson (companies : List (String × CompanyStats)) : Json :=
  .object [
    ("companies", .object (companies.map fun (name, s) => (name, s.json))),
    ("total_companies", .nat companies.length)]

end Roster
