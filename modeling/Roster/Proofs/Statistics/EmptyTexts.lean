import Roster.Proofs.Statistics.Breakdown
import Roster.Proofs.Statistics.Tally
import Roster.Proofs.Text.Cutting

/-!
# Empty texts in statistics

A city, a company or a zip code that is empty counts as absent, and `emptyTextsSkipped` says that no
view has an empty text among them. With mail domains it is the address that must not be empty: an
address that ends in `@` has an empty domain, and this one is counted.

- **Texts of a record** (`Record.city?_ne_empty` and its like, `Record.emailDomain?_eq_empty_iff`):
  which of them can be empty.
- **Lists and tallies** (`empty_notMem_ofTexts`, `empty_notMem_keys_mostCommon`): they have no text
  that no record has.
-/

namespace Roster

open Ascending

/-! ## Texts of a record -/

theorem nonEmptyText_eq_some_iff {s : Option String} {t : String} :
    nonEmptyText s = some t ↔ s = some t ∧ t ≠ "" := by
  rw [nonEmptyText, Option.filter_eq_some_iff, Bool.not_eq_true', ← Bool.not_eq_true,
    String.isEmpty_iff]

theorem nonEmptyText_ne_empty (s : Option String) : nonEmptyText s ≠ some "" :=
  fun h => (nonEmptyText_eq_some_iff.mp h).2 rfl

namespace Record

theorem city?_ne_empty (r : Record) : r.city? ≠ some "" :=
  nonEmptyText_ne_empty _

theorem zipcode?_ne_empty (r : Record) : r.zipcode? ≠ some "" :=
  nonEmptyText_ne_empty _

theorem company?_ne_empty (r : Record) : r.company? ≠ some "" :=
  nonEmptyText_ne_empty _

/-- Whether the mail address of a record ends in `@`. -/
def EndsInAt (r : Record) : Prop :=
  ∃ email, r.email = some email ∧ ['@'] <:+ email.toList

/-- What follows the last `@` of an address is nothing exactly if the address ends there. -/
theorem domain_eq_empty_iff {email : String} (h : email ≠ "") :
    String.ofList (((email.toList.splitOn '@').getLast?).getD []) = "" ↔
      ['@'] <:+ email.toList := by
  have hlast := List.getLast?_eq_some_getLast (List.splitOn_ne_nil '@' email.toList)
  have hempty : email.toList ≠ [] := fun hnil => h (String.toList_eq_nil_iff.mp hnil)
  have hpiece : (email.toList.splitOn '@').getLast? = some [] ↔
      email.toList = [] ∨ ['@'] <:+ email.toList := Text.getLast?_splitOn_eq_nil_iff
  rw [or_iff_right hempty, hlast, Option.some.injEq] at hpiece
  rw [hlast, Option.getD_some, ← hpiece, ← String.toList_eq_nil_iff, String.toList_ofList]

theorem emailDomain?_eq_empty_iff {r : Record} : r.emailDomain? = some "" ↔ r.EndsInAt := by
  rw [emailDomain?, Option.map_eq_some_iff]
  refine exists_congr fun email => ?_
  rw [nonEmptyText_eq_some_iff, and_assoc]
  refine and_congr_right fun _ => ⟨fun ⟨hne, h⟩ => (domain_eq_empty_iff hne).mp h, fun h => ?_⟩
  have hne : email ≠ "" := by
    rintro rfl
    simp at h
  exact ⟨hne, (domain_eq_empty_iff hne).mpr h⟩

end Record

/-! ## Lists and tallies -/

section Lists

variable {records : List Record} {text? : Record → Option String}

theorem empty_notMem_ofTexts (h : ∀ r, text? r ≠ some "") (records : List Record) :
    "" ∉ ofTexts (records.filterMap text?) := by
  rw [mem_ofTexts, List.mem_filterMap]
  rintro ⟨r, -, hr⟩
  exact h r hr

theorem exists_of_mem_keys_mostCommon {text : String} {n : Nat}
    (h : text ∈ Fields.keys ((Tally.ofList (records.filterMap text?)).mostCommon n)) :
    ∃ r ∈ records, text? r = some text := by
  obtain ⟨entry, hentry, rfl⟩ := List.mem_map.mp h
  exact List.mem_filterMap.mp (Tally.counted_of_mem_mostCommon hentry).1

theorem empty_notMem_keys_mostCommon (h : ∀ r, text? r ≠ some "") (records : List Record)
    (n : Nat) : "" ∉ Fields.keys ((Tally.ofList (records.filterMap text?)).mostCommon n) := by
  intro hmem
  obtain ⟨r, -, hr⟩ := exists_of_mem_keys_mostCommon hmem
  exact h r hr

end Lists

/-! ## All views -/

/-- Where the statistics of records have an empty text. -/
structure EmptyTextsSkipped (records : List Record) : Prop where
  /-- The overview lists no empty city. -/
  cities : "" ∉ (overview records).cities
  /-- Nor an empty company. -/
  companies : "" ∉ (overview records).companies
  /-- It lists the empty mail domain exactly if an address ends in `@`. -/
  emailDomains : "" ∈ (overview records).emailDomains ↔ ∃ r ∈ records, r.EndsInAt
  /-- The summary counts no empty city. -/
  topCities : "" ∉ Fields.keys (summary records).topCities
  /-- Nor an empty company. -/
  topCompanies : "" ∉ Fields.keys (summary records).topCompanies
  /-- It counts the empty mail domain only if an address ends in `@`. -/
  topEmailDomains :
    "" ∈ Fields.keys (summary records).topEmailDomains → ∃ r ∈ records, r.EndsInAt
  /-- No empty city is broken down. -/
  cityNames : "" ∉ Fields.keys (cityBreakdown records)
  /-- Nor an empty company. -/
  companyNames : "" ∉ Fields.keys (companyBreakdown records)
  /-- A city has no empty zip code and no empty company. -/
  inCity : ∀ city s, (city, s) ∈ cityBreakdown records → "" ∉ s.zipcodes ∧ "" ∉ s.companies
  /-- A company has no empty city. -/
  inCompany : ∀ company s, (company, s) ∈ companyBreakdown records → "" ∉ s.citiesPresent

/-- **Empty texts are skipped** in all views of the statistics, but for the domains of mail addresses
that end in `@`. -/
theorem emptyTextsSkipped (records : List Record) : EmptyTextsSkipped records where
  cities := empty_notMem_ofTexts Record.city?_ne_empty records
  companies := empty_notMem_ofTexts Record.company?_ne_empty records
  emailDomains := by
    simp only [overview, mem_ofTexts, List.mem_filterMap, Record.emailDomain?_eq_empty_iff]
  topCities := empty_notMem_keys_mostCommon Record.city?_ne_empty records topSize
  topCompanies := empty_notMem_keys_mostCommon Record.company?_ne_empty records topSize
  topEmailDomains := by
    intro h
    obtain ⟨r, hr, hempty⟩ := exists_of_mem_keys_mostCommon h
    exact ⟨r, hr, Record.emailDomain?_eq_empty_iff.mp hempty⟩
  cityNames := by
    rw [keys_cityBreakdown]
    exact empty_notMem_ofTexts Record.city?_ne_empty records
  companyNames := by
    rw [keys_companyBreakdown]
    exact empty_notMem_ofTexts Record.company?_ne_empty records
  inCity := by
    intro city s h
    rw [zipcodes_of_mem h, companies_of_mem h]
    exact ⟨empty_notMem_ofTexts Record.zipcode?_ne_empty _,
      empty_notMem_ofTexts Record.company?_ne_empty _⟩
  inCompany := by
    intro company s h
    rw [citiesPresent_of_mem h]
    exact empty_notMem_ofTexts Record.city?_ne_empty _

/-- An address that ends in `@` has its empty domain listed and counted. -/
theorem emptyDomain_listed :
    let records : List Record := [{ id := 1, email := some "a@" }]
    "" ∈ (overview records).emailDomains ∧ "" ∈ Fields.keys (summary records).topEmailDomains := by
  intro records
  have hdomains : (summary records).topEmailDomains = _ :=
    Tally.mostCommon_ofList_of_pairwise (by decide +kernel) topSize
  rw [hdomains]
  decide +kernel

end Roster
