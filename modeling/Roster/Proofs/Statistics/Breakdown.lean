import Roster.Proofs.Statistics.Ascending
import Roster.Statistics.Basic

/-!
# What a breakdown says of a city and of a company

Both breakdowns are groups of records (`cityBreakdown_eq_groups`, `companyBreakdown_eq_groups`), so
what they say of a city or of a company is read off the records that have it.

- **Counts** (`userCount_of_mem`, `employeeCount_of_mem`): how many records have it.
- **Lists** (`zipcodes_of_mem`, `companies_of_mem`, `citiesPresent_of_mem`): the different texts
  that these records have beside it.
- **Both sides** (`mem_companies_iff`, `mem_citiesPresent_iff`): a company is listed under a city,
  and the city under the company, if a record has the two.
-/

namespace Roster

open Ascending

variable {records : List Record}

/-- The texts that are gathered from records one after the other. -/
theorem foldl_addText (text? : Record → Option String) (records : List Record)
    (sorted : List String) :
    records.foldl (fun texts r => addText (text? r) texts) sorted
      = (records.filterMap text?).foldl (fun sorted s => insertText s sorted) sorted := by
  induction records generalizing sorted with
  | nil => rfl
  | cons r records ih =>
    rw [List.foldl_cons, ih]
    cases htext : text? r with
    | none => rw [List.filterMap_cons_none htext, addText]
    | some s => rw [List.filterMap_cons_some htext, addText, List.foldl_cons]

/-- A text is gathered from the records of a group if one of these has it. -/
theorem mem_gathered_iff {key? text? : Record → Option String} {key text : String} :
    text ∈ ofTexts ((records.filter fun r => key? r == some key).filterMap text?) ↔
      ∃ r ∈ records, key? r = some key ∧ text? r = some text := by
  rw [mem_ofTexts, List.mem_filterMap]
  simp only [List.mem_filter, beq_iff_eq, and_assoc]

/-! ## Cities -/

section Cities

variable {city : String} {s : CityStats}

theorem cityBreakdown_eq_groups (records : List Record) :
    cityBreakdown records
      = groups Record.city? (fun r s => (s.getD ⟨0, [], []⟩).add r) records :=
  rfl

/-- The cities that are broken down are those of the records. -/
theorem keys_cityBreakdown (records : List Record) :
    Fields.keys (cityBreakdown records) = ofTexts (records.filterMap Record.city?) := by
  rw [cityBreakdown_eq_groups, keys_groups]

theorem nodup_keys_cityBreakdown (records : List Record) :
    (Fields.keys (cityBreakdown records)).Nodup := by
  rw [keys_cityBreakdown]
  exact nodup_ofTexts _

private theorem userCount_add (r : Record) (s : Option CityStats) :
    ((s.getD ⟨0, [], []⟩).add r).userCount = (s.map CityStats.userCount).getD 0 + 1 := by
  cases s <;> rfl

theorem userCount_of_mem (h : (city, s) ∈ cityBreakdown records) :
    s.userCount = (records.filterMap Record.city?).count city :=
  count_of_mem_groups userCount_add h

/-- The users of all cities are the records that have a city. -/
theorem sum_userCount (records : List Record) :
    ((cityBreakdown records).map fun entry => entry.2.userCount).sum
      = records.countP fun r => r.city?.isSome := by
  rw [cityBreakdown_eq_groups, sum_groups userCount_add]

theorem zipcodes_of_mem (h : (city, s) ∈ cityBreakdown records) :
    s.zipcodes
      = ofTexts ((records.filter fun r => r.city? == some city).filterMap Record.zipcode?) := by
  rw [ofTexts, ← foldl_addText]
  exact reading_of_mem_groups (fun r s => by cases s <;> rfl) h

theorem companies_of_mem (h : (city, s) ∈ cityBreakdown records) :
    s.companies
      = ofTexts ((records.filter fun r => r.city? == some city).filterMap Record.company?) := by
  rw [ofTexts, ← foldl_addText]
  exact reading_of_mem_groups (fun r s => by cases s <;> rfl) h

/-- The companies of a city are those that a record has beside it. -/
theorem mem_companies_iff (h : (city, s) ∈ cityBreakdown records) {company : String} :
    company ∈ s.companies ↔ ∃ r ∈ records, r.city? = some city ∧ r.company? = some company := by
  rw [companies_of_mem h, mem_gathered_iff]

end Cities

/-! ## Companies -/

section Companies

variable {company : String} {s : CompanyStats}

theorem companyBreakdown_eq_groups (records : List Record) :
    companyBreakdown records
      = groups Record.company? (fun r s => (s.getD (.ofFirst r)).add r) records :=
  rfl

/-- The companies that are broken down are those of the records. -/
theorem keys_companyBreakdown (records : List Record) :
    Fields.keys (companyBreakdown records) = ofTexts (records.filterMap Record.company?) := by
  rw [companyBreakdown_eq_groups, keys_groups]

theorem nodup_keys_companyBreakdown (records : List Record) :
    (Fields.keys (companyBreakdown records)).Nodup := by
  rw [keys_companyBreakdown]
  exact nodup_ofTexts _

private theorem employeeCount_add (r : Record) (s : Option CompanyStats) :
    ((s.getD (.ofFirst r)).add r).employeeCount
      = (s.map CompanyStats.employeeCount).getD 0 + 1 := by
  cases s <;> rfl

theorem employeeCount_of_mem (h : (company, s) ∈ companyBreakdown records) :
    s.employeeCount = (records.filterMap Record.company?).count company :=
  count_of_mem_groups employeeCount_add h

/-- The employees of all companies are the records that have a company. -/
theorem sum_employeeCount (records : List Record) :
    ((companyBreakdown records).map fun entry => entry.2.employeeCount).sum
      = records.countP fun r => r.company?.isSome := by
  rw [companyBreakdown_eq_groups, sum_groups employeeCount_add]

theorem citiesPresent_of_mem (h : (company, s) ∈ companyBreakdown records) :
    s.citiesPresent
      = ofTexts ((records.filter fun r => r.company? == some company).filterMap
          Record.city?) := by
  rw [ofTexts, ← foldl_addText]
  exact reading_of_mem_groups (fun r s => by cases s <;> rfl) h

/-- The cities of a company are those that a record has beside it. -/
theorem mem_citiesPresent_iff (h : (company, s) ∈ companyBreakdown records) {city : String} :
    city ∈ s.citiesPresent ↔ ∃ r ∈ records, r.company? = some company ∧ r.city? = some city := by
  rw [citiesPresent_of_mem h, mem_gathered_iff]

end Companies

end Roster
