import Roster.Proofs.Statistics.MostCommon
import Roster.Proofs.Statistics.Views

/-!
# Statistics and the order of records

`SameStatistics` says what the statistics of the same records in two orders have in common, and
`sameStatistics_of_perm` that they have it in whatever orders the records stand.

- **Entries** (`Fields.eq_of_keys`): two breakdowns are the same if they have the same names in the
  same order and say the same under each of them.
- **Words** (`words_of_mem`): what a company says about itself is taken from the first record that
  names it, so this alone can change in a breakdown.
- **Tallies** (`Tally.map_snd_mostCommon_of_perm`): which texts are listed as most common may depend
  on their order, but not the counts that are listed.
-/

namespace Roster

open Ascending

variable {records permuted : List Record}

theorem ofTexts_filterMap_of_perm (h : records.Perm permuted) (text? : Record → Option String) :
    ofTexts (permuted.filterMap text?) = ofTexts (records.filterMap text?) :=
  ofTexts_eq_of_perm (h.filterMap text?).symm

theorem overview_of_perm (h : records.Perm permuted) : overview permuted = overview records := by
  simp only [overview, ofTexts_filterMap_of_perm h, h.length_eq]

/-! ## Breakdowns -/

theorem cityBreakdown_of_perm (h : records.Perm permuted) :
    cityBreakdown permuted = cityBreakdown records := by
  refine Fields.eq_of_keys ?_ fun city s t hs ht => ?_
  · rw [keys_cityBreakdown, keys_cityBreakdown, ofTexts_filterMap_of_perm h]
  · have hcount : s.userCount = t.userCount := by
      rw [userCount_of_mem hs, userCount_of_mem ht, (h.filterMap Record.city?).count_eq]
    have hzipcodes : s.zipcodes = t.zipcodes := by
      rw [zipcodes_of_mem hs, zipcodes_of_mem ht, ofTexts_filterMap_of_perm (h.filter _)]
    have hcompanies : s.companies = t.companies := by
      rw [companies_of_mem hs, companies_of_mem ht, ofTexts_filterMap_of_perm (h.filter _)]
    calc s = ⟨s.userCount, s.zipcodes, s.companies⟩ := rfl
      _ = t := by rw [hcount, hzipcodes, hcompanies]

/-- What is known of a company, apart from the words that it uses about itself. -/
def CompanyStats.withoutWords (s : CompanyStats) : CompanyStats :=
  { s with catchPhrase := "", bs := "" }

/-- The breakdown by company, apart from the words of the companies. -/
def companyCounts (records : List Record) : List (String × CompanyStats) :=
  (companyBreakdown records).map fun (name, s) => (name, s.withoutWords)

private theorem mem_companyCounts {company : String} {s : CompanyStats} :
    (company, s) ∈ companyCounts records ↔
      ∃ t, (company, t) ∈ companyBreakdown records ∧ t.withoutWords = s := by
  simp [companyCounts]

theorem keys_companyCounts (records : List Record) :
    Fields.keys (companyCounts records) = ofTexts (records.filterMap Record.company?) := by
  rw [← keys_companyBreakdown, companyCounts, Fields.keys, List.map_map]
  rfl

theorem companyCounts_of_perm (h : records.Perm permuted) :
    companyCounts permuted = companyCounts records := by
  refine Fields.eq_of_keys ?_ fun company _ _ hcompany hcompany' => ?_
  · rw [keys_companyCounts, keys_companyCounts, ofTexts_filterMap_of_perm h]
  · obtain ⟨s, hs, rfl⟩ := mem_companyCounts.mp hcompany
    obtain ⟨t, ht, rfl⟩ := mem_companyCounts.mp hcompany'
    have hcount : s.employeeCount = t.employeeCount := by
      rw [employeeCount_of_mem hs, employeeCount_of_mem ht, (h.filterMap Record.company?).count_eq]
    have hcities : s.citiesPresent = t.citiesPresent := by
      rw [citiesPresent_of_mem hs, citiesPresent_of_mem ht, ofTexts_filterMap_of_perm (h.filter _)]
    rw [CompanyStats.withoutWords, CompanyStats.withoutWords, hcount, hcities]

/-- What is there first stays, whatever comes after it. -/
private theorem foldl_or {α β : Type} (f : α → β) (items : List α) (first : Option β) :
    items.foldl (fun kept a => kept.or (some (f a))) first = first.or (items.head?.map f) := by
  induction items generalizing first with
  | nil => simp
  | cons a items ih =>
    rw [List.foldl_cons, ih, Option.or_assoc]
    rfl

/-- What a company says about itself is taken from the first record that names it. -/
theorem words_of_mem {company : String} {s : CompanyStats}
    (h : (company, s) ∈ companyBreakdown records) :
    ∃ r, records.find? (fun r => r.company? == some company) = some r ∧
      s.catchPhrase = (r.company.bind Company.catchPhrase).getD "" ∧
      s.bs = (r.company.bind Company.bs).getD "" := by
  let words (s : CompanyStats) : Option (String × String) := some (s.catchPhrase, s.bs)
  have hwords : words s
      = (records.filter fun r => r.company? == some company).foldl
          (fun kept r => kept.or (words (.ofFirst r))) none :=
    reading_of_mem_groups (fun r s => by cases s <;> rfl) h
  rw [foldl_or, List.head?_filter, Option.none_or, eq_comm, Option.map_eq_some_iff] at hwords
  obtain ⟨r, hr, heq⟩ := hwords
  obtain ⟨hphrase, hbs⟩ := Prod.mk.inj heq
  exact ⟨r, hr, hphrase.symm, hbs.symm⟩

/-! ## Tallies -/

namespace Tally

variable {texts others : List String}

theorem entries_perm_of_perm (h : texts.Perm others) :
    (ofList texts).entries.Perm (ofList others).entries := by
  have hnodup (texts : List String) : (ofList texts).entries.Nodup :=
    (ofList texts).nodup_keys_entries.of_map Prod.fst
  refine (List.perm_ext_iff_of_nodup (hnodup texts) (hnodup others)).mpr fun (s, n) => ?_
  rw [mem_entries_ofList, mem_entries_ofList, h.mem_iff, h.count_eq]

private theorem pairwise_map_snd_sortedEntries (texts : List String) :
    ((ofList texts).sortedEntries.map Prod.snd).Pairwise (· ≥ ·) :=
  List.pairwise_map.mpr ((pairwise_sortedEntries texts).imp And.left)

/-- The greatest counts do not depend on the order in which the texts were added. -/
theorem map_snd_mostCommon_of_perm (h : texts.Perm others) (n : Nat) :
    ((ofList texts).mostCommon n).map Prod.snd = ((ofList others).mostCommon n).map Prod.snd := by
  have hperm : (ofList texts).sortedEntries.Perm (ofList others).sortedEntries :=
    (sortedEntries_perm _).trans ((entries_perm_of_perm h).trans (sortedEntries_perm _).symm)
  rw [mostCommon_eq_take, mostCommon_eq_take, List.map_take, List.map_take]
  congr 1
  exact List.Perm.eq_of_pairwise (fun _ _ _ _ hab hba => Nat.le_antisymm hba hab)
    (pairwise_map_snd_sortedEntries texts) (pairwise_map_snd_sortedEntries others)
    (hperm.map Prod.snd)

end Tally

/-! ## All views -/

theorem dataQuality_of_perm (h : records.Perm permuted) :
    dataQuality permuted = dataQuality records := by
  simp only [dataQuality, h.countP_eq]

theorem geographicDistribution_of_perm (h : records.Perm permuted) :
    (summary permuted).geographicDistribution = (summary records).geographicDistribution := by
  simp only [summary, size_ofList_eq_length_ofTexts, ofTexts_filterMap_of_perm h, h.length_eq]

/-- What the statistics of the same records in two orders have in common. -/
structure SameStatistics (records permuted : List Record) : Prop where
  /-- The overview is the same. -/
  overview : overview permuted = overview records
  /-- The breakdown by city is the same. -/
  cities : cityBreakdown permuted = cityBreakdown records
  /-- The breakdown by company is the same, apart from the words of the companies. -/
  companies : companyCounts permuted = companyCounts records
  /-- These are the words of the first record that names the company. -/
  words : ∀ company s, (company, s) ∈ companyBreakdown permuted →
    ∃ r, permuted.find? (fun r => r.company? == some company) = some r ∧
      s.catchPhrase = (r.company.bind Company.catchPhrase).getD "" ∧
      s.bs = (r.company.bind Company.bs).getD ""
  /-- The summary has the same number of users. -/
  totalUsers : (summary permuted).totalUsers = (summary records).totalUsers
  /-- The records are as complete. -/
  dataQuality : (summary permuted).dataQuality = (summary records).dataQuality
  /-- Users are spread over the cities in the same way. -/
  geographicDistribution :
    (summary permuted).geographicDistribution = (summary records).geographicDistribution
  /-- The counts of the most common cities are the same, from the greatest down. -/
  topCities : (summary permuted).topCities.map Prod.snd = (summary records).topCities.map Prod.snd
  /-- The counts of the most common companies are the same, from the greatest down. -/
  topCompanies :
    (summary permuted).topCompanies.map Prod.snd = (summary records).topCompanies.map Prod.snd
  /-- The counts of the most common mail domains are the same, from the greatest down. -/
  topEmailDomains :
    (summary permuted).topEmailDomains.map Prod.snd
      = (summary records).topEmailDomains.map Prod.snd

/-- **Statistics do not tell the order of the records**, but for the words of companies and for
which of several equally common texts are listed. -/
theorem sameStatistics_of_perm (h : records.Perm permuted) : SameStatistics records permuted where
  overview := overview_of_perm h
  cities := cityBreakdown_of_perm h
  companies := companyCounts_of_perm h
  words := fun _ _ => words_of_mem
  totalUsers := h.length_eq.symm
  dataQuality := dataQuality_of_perm h
  geographicDistribution := geographicDistribution_of_perm h
  topCities := Tally.map_snd_mostCommon_of_perm (h.filterMap Record.city?).symm topSize
  topCompanies := Tally.map_snd_mostCommon_of_perm (h.filterMap Record.company?).symm topSize
  topEmailDomains :=
    Tally.map_snd_mostCommon_of_perm (h.filterMap Record.emailDomain?).symm topSize

/-- Six users of one company from six cities, each with a word of their own for it. Backwards, the
company is said to use the word of the last one, and another city is left out of the five that are
listed, but all else is the same. -/
theorem sameStatistics_of_perm_backwards :
    let user (id : Int64) (city : String) : Record :=
      { id := id
        address := some { city := some city }
        company := some { name := some "Acme", catchPhrase := some city } }
    let users := [user 1 "Austin", user 2 "Boston", user 3 "Chicago", user 4 "Dallas",
      user 5 "El Paso", user 6 "Fresno"]
    users.Perm users.reverse ∧ SameStatistics users users.reverse ∧
      companyBreakdown users.reverse ≠ companyBreakdown users ∧
      (summary users.reverse).topCities ≠ (summary users).topCities := by
  intro user users
  have hperm : users.Perm users.reverse := (List.reverse_perm users).symm
  refine ⟨hperm, sameStatistics_of_perm hperm, by decide, ?_⟩
  have hcities : (summary users).topCities = _ := Tally.mostCommon_ofList_of_pairwise (by decide) topSize
  have hbackwards : (summary users.reverse).topCities = _ :=
    Tally.mostCommon_ofList_of_pairwise (by decide) topSize
  rw [hcities, hbackwards]
  decide

end Roster
