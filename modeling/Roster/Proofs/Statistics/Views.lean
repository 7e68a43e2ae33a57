import Roster.Json.Leaves
import Roster.Proofs.Statistics.Breakdown
import Roster.Proofs.Statistics.Tally
import Roster.Statistics.Json

/-!
# The views of the statistics side by side

The overview, the summary and the two breakdowns are made of the same records in four ways.
`ViewsAgree` says what they have in common, and `viewsAgree` that they have it whatever the records
are. Sizes that are given only in JSON are read there.

- **Counts** (`exists_of_mem_mostCommon`): what a tally lists as most common is a group with this
  count.
- **Sizes**: a tally has as many texts as the ascending list of them
  (`size_ofList_eq_length_ofTexts`), and what stands in JSON under a key is what is known under it
  (`at?_object_of_mem`).
-/

namespace Roster

open Ascending

/-! ## Counts and sizes -/

/-- What is listed as most common stands among the groups of the same texts with the same count. -/
theorem exists_of_mem_mostCommon {σ : Type} {entries : List (String × σ)} {size : σ → Nat}
    {texts : List String} (hkeys : Fields.keys entries = ofTexts texts)
    (hcount : ∀ key s, (key, s) ∈ entries → size s = texts.count key) {key : String} {n most : Nat}
    (h : (key, n) ∈ (Tally.ofList texts).mostCommon most) :
    ∃ s, (key, s) ∈ entries ∧ size s = n := by
  obtain ⟨hmem, rfl⟩ := Tally.counted_of_mem_mostCommon h
  have hkey : key ∈ Fields.keys entries := by
    rw [hkeys]
    exact mem_ofTexts.mpr hmem
  obtain ⟨entry, hentry, rfl⟩ := List.mem_map.mp hkey
  exact ⟨entry.2, hentry, hcount _ _ hentry⟩

/-- Different texts are as many in a tally as in the ascending list of them. -/
theorem size_ofList_eq_length_ofTexts (texts : List String) :
    (Tally.ofList texts).size = (ofTexts texts).length := by
  have hperm : texts.eraseDups.Perm (ofTexts texts) := by
    rw [List.perm_ext_iff_of_nodup (Text.nodup_eraseDups texts) (nodup_ofTexts texts)]
    exact fun s => List.mem_eraseDups.trans mem_ofTexts.symm
  rw [Tally.size_ofList, hperm.length_eq]

private theorem length_keys {α : Type} (fields : List (String × α)) :
    (Fields.keys fields).length = fields.length :=
  List.length_map Prod.fst

private theorem isSome_nonEmptyText (s : Option String) :
    (nonEmptyText s).isSome = s.any fun s => !s.isEmpty :=
  Option.isSome_filter

/-! ## In JSON -/

theorem Fields.get?_mapValues {α β : Type} (f : α → β) (key : String)
    (fields : List (String × α)) :
    get? key (fields.map fun (k, v) => (k, f v)) = (get? key fields).map f := by
  induction fields with
  | nil => rfl
  | cons field fields ih =>
    by_cases h : field.1 = key
    · simp [get?, h]
    · simp [get?, h, ih]

/-- What stands under the key of an entry, where entries are the first field of an object. -/
theorem at?_object_of_mem {σ : Type} (json : σ → Json) {entries : List (String × σ)} {key : String}
    {s : σ} (hnodup : (Fields.keys entries).Nodup) (h : (key, s) ∈ entries) (name : String)
    (others : List (String × Json)) (path : List String) :
    (Json.object ((name, .object (entries.map fun (k, s) => (k, json s))) :: others)).at?
        (name :: key :: path)
      = (json s).at? path := by
  have hget : Fields.get? key (entries.map fun (k, s) => (k, json s)) = some (json s) := by
    rw [Fields.get?_mapValues, (Fields.get?_eq_some_iff hnodup).mpr h, Option.map_some]
  simp [Json.at?, Json.fields?, Fields.get?, hget]

/-! ## All views -/

/-- What the four views of records have in common. -/
structure ViewsAgree (records : List Record) : Prop where
  /-- The overview lists the cities of the breakdown by city. -/
  cities : (overview records).cities = Fields.keys (cityBreakdown records)
  /-- The overview lists the companies of the breakdown by company. -/
  companies : (overview records).companies = Fields.keys (companyBreakdown records)
  /-- Every number of cities is the length of that list. -/
  citySizes :
    (overview records).uniqueCities = (overview records).cities.length ∧
    (summary records).geographicDistribution.totalCities = (overview records).cities.length ∧
    (cityBreakdownJson (cityBreakdown records)).at? ["total_cities"]
      = some (.nat (overview records).cities.length)
  /-- Every number of companies is the length of that list. -/
  companySizes :
    (overview records).uniqueCompanies = (overview records).companies.length ∧
    (companyBreakdownJson (companyBreakdown records)).at? ["total_companies"]
      = some (.nat (overview records).companies.length)
  /-- The number of mail domains is the length of their list. -/
  emailDomainSize :
    (overview records).uniqueEmailDomains = (overview records).emailDomains.length
  /-- A company is listed under a city exactly if the city is listed under the company. -/
  duality : ∀ city s company t, (city, s) ∈ cityBreakdown records →
    (company, t) ∈ companyBreakdown records → (company ∈ s.companies ↔ city ∈ t.citiesPresent)
  /-- The summary counts in a city the users that the breakdown counts. -/
  topCities : ∀ city n, (city, n) ∈ (summary records).topCities →
    ∃ s, (city, s) ∈ cityBreakdown records ∧ s.userCount = n
  /-- The summary counts in a company the employees that the breakdown counts. -/
  topCompanies : ∀ company n, (company, n) ∈ (summary records).topCompanies →
    ∃ t, (company, t) ∈ companyBreakdown records ∧ t.employeeCount = n
  /-- The overview lists the mail domains that the summary counts. -/
  topEmailDomains : ∀ domain n, (domain, n) ∈ (summary records).topEmailDomains →
    domain ∈ (overview records).emailDomains
  /-- Every record with a city is counted in one city. -/
  users : ((cityBreakdown records).map fun entry => entry.2.userCount).sum
    = records.countP fun r => (r.address.bind Address.city).any fun city => !city.isEmpty
  /-- Every record with the name of a company is counted in one company. -/
  employees : ((companyBreakdown records).map fun entry => entry.2.employeeCount).sum
    = records.countP fun r => (r.company.bind Company.name).any fun name => !name.isEmpty
  /-- The sizes that are given for a city are the lengths of its lists. -/
  sizesInCity : ∀ city s, (city, s) ∈ cityBreakdown records →
    (cityBreakdownJson (cityBreakdown records)).at? ["cities", city, "unique_zipcodes"]
      = some (.nat s.zipcodes.length) ∧
    (cityBreakdownJson (cityBreakdown records)).at? ["cities", city, "unique_companies"]
      = some (.nat s.companies.length)
  /-- The size that is given for a company is the length of its list. -/
  sizeInCompany : ∀ company t, (company, t) ∈ companyBreakdown records →
    (companyBreakdownJson (companyBreakdown records)).at? ["companies", company, "city_count"]
      = some (.nat t.citiesPresent.length)
  /-- The lists of the overview ascend. -/
  ascending : IsAscending (overview records).cities ∧ IsAscending (overview records).companies ∧
    IsAscending (overview records).emailDomains
  /-- The lists of a city ascend. -/
  ascendingInCity : ∀ city s, (city, s) ∈ cityBreakdown records →
    IsAscending s.zipcodes ∧ IsAscending s.companies
  /-- The list of a company ascends. -/
  ascendingInCompany : ∀ company t, (company, t) ∈ companyBreakdown records →
    IsAscending t.citiesPresent

/-- **The views of the statistics agree**, whatever the records are. -/
theorem viewsAgree (records : List Record) : ViewsAgree records where
  cities := (keys_cityBreakdown records).symm
  companies := (keys_companyBreakdown records).symm
  citySizes := by
    have hlength : (overview records).cities.length = (cityBreakdown records).length := by
      rw [← length_keys, keys_cityBreakdown, overview]
    refine ⟨rfl, size_ofList_eq_length_ofTexts _, ?_⟩
    rw [hlength]
    rfl
  companySizes := by
    have hlength : (overview records).companies.length = (companyBreakdown records).length := by
      rw [← length_keys, keys_companyBreakdown, overview]
    refine ⟨rfl, ?_⟩
    rw [hlength]
    rfl
  emailDomainSize := rfl
  duality := by
    intro city s company t hcity hcompany
    rw [mem_companies_iff hcity, mem_citiesPresent_iff hcompany]
    exact exists_congr fun r => and_congr_right fun _ => and_comm
  topCities := fun _ _ =>
    exists_of_mem_mostCommon (keys_cityBreakdown records) fun _ _ => userCount_of_mem
  topCompanies := fun _ _ =>
    exists_of_mem_mostCommon (keys_companyBreakdown records) fun _ _ => employeeCount_of_mem
  topEmailDomains := by
    intro domain n h
    exact mem_ofTexts.mpr (Tally.mem_entries_ofList.mp (Tally.mem_of_mem_mostCommon h)).1
  users := by
    simp only [sum_userCount, Record.city?, isSome_nonEmptyText]
  employees := by
    simp only [sum_employeeCount, Record.company?, isSome_nonEmptyText]
  sizesInCity := by
    intro city s h
    have hat := at?_object_of_mem CityStats.json (nodup_keys_cityBreakdown records) h "cities"
      [("total_cities", .nat (cityBreakdown records).length)]
    exact ⟨hat ["unique_zipcodes"], hat ["unique_companies"]⟩
  sizeInCompany := by
    intro company t h
    exact at?_object_of_mem CompanyStats.json (nodup_keys_companyBreakdown records) h "companies"
      [("total_companies", .nat (companyBreakdown records).length)] ["city_count"]
  ascending := ⟨isAscending_ofTexts _, isAscending_ofTexts _, isAscending_ofTexts _⟩
  ascendingInCity := by
    intro city s h
    rw [zipcodes_of_mem h, companies_of_mem h]
    exact ⟨isAscending_ofTexts _, isAscending_ofTexts _⟩
  ascendingInCompany := by
    intro company t h
    rw [citiesPresent_of_mem h]
    exact isAscending_ofTexts _

end Roster
