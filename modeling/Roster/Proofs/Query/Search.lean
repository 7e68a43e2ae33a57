import Roster.Proofs.Query.Selection
import Roster.Proofs.Text.Lowercase

/-!
# Search finds what is there

A search compares the lowercase form of its term with the lowercase form of a whole text. A term that
is copied from the text of a searched column therefore finds the record if its capital sigmas end
words in the term where they do so in the text (`Record.isFound_of_part`). `answer_search_of_part`
says this for answers, and `answer_search_sigma` shows a term that is missed.
-/

namespace Roster

open Text

/-- A record is found by a part of the text of a searched column. -/
theorem Record.isFound_of_part {r : Record} {c : Column} {v : FieldValue} (hc : c ∈ searchColumns)
    (hv : r.value? c = some v) {before part after : List Char}
    (htext : v.display.toList = before ++ part ++ after) (hkeeps : KeepsSigmas before part after) :
    r.IsFound (some (String.ofList part)) := by
  intro t ht _
  obtain rfl := Option.some.inj ht
  refine ⟨c, hc, v, hv, ?_⟩
  simp only [lowercase, String.toList_ofList, htext]
  exact lower_infix_lower hkeeps

/-- Without filters a request selects the records that its search finds. -/
theorem mem_select_of_filters_eq_none {q : Request} (h : q.filters = none) {records : List Record}
    {r : Record} : r ∈ q.select records ↔ r ∈ records ∧ r.IsFound q.search := by
  have hperm := applySort_perm q.sortBy q.direction
    (applyFilters q.filters (applySearch q.search records))
  rw [Request.select, hperm.mem_iff, mem_applyFilters, mem_applySearch, h]
  simp [Record.IsKept]

/-- **Search finds what is there.** The term is a part of the text of a searched column of a record,
and its capital sigmas end words where they do so in the text. Then the answer to a request with this
term and without filters counts the record, and has its row unless the row is on another page. -/
theorem answer_search_of_part {store : Store} {r : Record} (hr : r ∈ store.records) {c : Column}
    (hc : c ∈ searchColumns) {v : FieldValue} (hv : r.value? c = some v)
    {before part after : List Char} (htext : v.display.toList = before ++ part ++ after)
    (hkeeps : KeepsSigmas before part after) {q : Request}
    (hsearch : q.search = some (String.ofList part)) (hfilters : q.filters = none) :
    r ∈ q.select store.records ∧
    (answer store.records q).total = (q.select store.records).length ∧
    (q.IsWhole → r.project q.chosen? q.shape ∈ (answer store.records q).data) := by
  have hselected : r ∈ q.select store.records := by
    rw [mem_select_of_filters_eq_none hfilters, hsearch]
    exact ⟨hr, Record.isFound_of_part hc hv htext hkeeps⟩
  refine ⟨hselected, rfl, fun hwhole => ?_⟩
  rw [(answer_of_isWhole hwhole store.records).2]
  exact List.mem_map_of_mem hselected

/-- A term with two capital sigmas that stand inside a word there and in the name. -/
theorem answer_search_of_part_inner :
    ∃ store, Store.ofRecords [{ id := 1, name := "ΟΔΥΣΣΕΥΣ" }] "list" = .ok store ∧
      ({ id := 1, name := "ΟΔΥΣΣΕΥΣ" } : Record) ∈
        Request.select { search := some "ΥΣΣΕ" } store.records := by
  obtain ⟨store, hstore⟩ := Store.exists_ofRecords_iff.mpr
    (⟨by decide, by decide⟩ : Store.IsIndexable [{ id := 1, name := "ΟΔΥΣΣΕΥΣ" }])
  have hr : ({ id := 1, name := "ΟΔΥΣΣΕΥΣ" } : Record) ∈ store.records := by
    rw [Store.records_of_ofRecords hstore]
    exact List.mem_cons_self
  have htext : "ΟΔΥΣΣΕΥΣ".toList = ['Ο', 'Δ'] ++ ['Υ', 'Σ', 'Σ', 'Ε'] ++ ['Υ', 'Σ'] := by decide
  refine ⟨store, hstore, ?_⟩
  exact (answer_search_of_part hr (c := .name) (by decide) rfl htext (by decide +kernel) rfl rfl).1

/-- The last letter of the term ends a word there, but not in the name: the term is a part of the
name, and the record is neither counted nor shown. -/
theorem answer_search_sigma :
    ∃ store, Store.ofRecords [{ id := 1, name := "ΑΣΑ" }] "list" = .ok store ∧
      "ΑΣ".toList <:+: "ΑΣΑ".toList ∧
      (answer store.records { search := some "ΑΣ" }).total = 0 ∧
      (answer store.records { search := some "ΑΣ" }).data = [] := by
  obtain ⟨store, hstore⟩ := Store.exists_ofRecords_iff.mpr
    (⟨by decide, by decide⟩ : Store.IsIndexable [{ id := 1, name := "ΑΣΑ" }])
  have hnone : Request.select { search := some "ΑΣ" } store.records = [] := by
    rw [Store.records_of_ofRecords hstore]
    decide +kernel
  obtain ⟨htotal, hdata⟩ := answer_of_isWhole (q := { search := some "ΑΣ" }) (.inl rfl) store.records
  refine ⟨store, hstore, by decide, ?_, ?_⟩
  · rw [htotal, hnone]
    rfl
  · rw [hdata, hnone]
    rfl

end Roster
