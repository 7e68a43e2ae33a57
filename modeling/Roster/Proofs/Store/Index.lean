import Roster.Record.Sample
import Roster.Store.Basic

/-!
# Stores that could be made

What `Store.ofRecords` makes of a list of records, and what is known of a store because it has been
made.

- **The index** (`Indexes`): under an id it has the position of the record with this id, and under
  every other id nothing. One more record with a new id keeps this (`Indexes.insert`).
- **A run** (`addToIndex_append`): the records are indexed up to the first one with an id below one
  or an id that an earlier record has; there the run ends with a report of that record.
- **A store** holds the records that were given, in their order (`records_of_ofRecords`), and their
  ids are all different (`nodup_ids_of_ofRecords`). What it finds under an id is what stands in the
  list with that id (`find?_eq_some_iff`).
- **Acceptance and refusal** (`ofRecords_indexes_or_reports`): a store is made exactly of positive
  ids that are all different, and otherwise the first offender is reported.
-/

namespace Roster
namespace Store

/-! ## The index -/

/-- An index has the positions of records by their ids, and nothing else. -/
def Indexes (index : Std.HashMap Int64 Nat) (records : List Record) : Prop :=
  ∀ (id : Int64) (position : Nat),
    index[id]? = some position ↔ (records.map Record.id)[position]? = some id

/-- Records with positive ids that are all different. -/
structure IsIndexable (records : List Record) : Prop where
  pos : ∀ r ∈ records, 0 < r.id
  nodup : (records.map Record.id).Nodup

variable {records : List Record} {index : Std.HashMap Int64 Nat} {r : Record}

theorem indexes_empty : Indexes ∅ [] := by
  intro id position
  simp

theorem isIndexable_nil : IsIndexable [] :=
  ⟨by simp, by simp⟩

theorem Indexes.contains_iff (h : Indexes index records) (id : Int64) :
    index.contains id = true ↔ id ∈ records.map Record.id := by
  rw [Std.HashMap.contains_iff_mem, Std.HashMap.mem_iff_isSome_getElem?, Option.isSome_iff_exists,
    List.mem_iff_getElem?]
  exact exists_congr (h id)

/-- What stands at a position of a list with one more item at the end. -/
private theorem getElem?_concat_eq_some_iff {α : Type} {items : List α} {last item : α} {position : Nat} :
    (items ++ [last])[position]? = some item ↔
      items[position]? = some item ∨ position = items.length ∧ last = item := by
  rw [List.getElem?_append]
  split
  · rename_i hlt
    simp [Nat.ne_of_lt hlt]
  · rename_i hge
    have hnone : items[position]? = none := List.getElem?_eq_none (Nat.le_of_not_lt hge)
    rw [hnone, List.getElem?_singleton, Option.ite_none_right_eq_some]
    simp
    omega

/-- A record with a new id is indexed at the position after the others. -/
theorem Indexes.insert (h : Indexes index records) (hnew : r.id ∉ records.map Record.id) :
    Indexes (index.insert r.id records.length) (records ++ [r]) := by
  intro id position
  rw [Std.HashMap.getElem?_insert, List.map_append, List.map_singleton,
    getElem?_concat_eq_some_iff, List.length_map]
  by_cases hid : r.id = id
  · subst hid
    have hold : (records.map Record.id)[position]? ≠ some r.id :=
      fun heq => hnew (List.mem_of_getElem? heq)
    rw [if_pos (beq_self_eq_true r.id), or_iff_right hold, Option.some.injEq, and_iff_left rfl]
    exact eq_comm
  · rw [if_neg (by simpa using hid), h id position, or_iff_left fun hlast => hid hlast.2]

theorem IsIndexable.concat (h : IsIndexable records) (hpos : 0 < r.id)
    (hnew : r.id ∉ records.map Record.id) : IsIndexable (records ++ [r]) := by
  refine ⟨?_, ?_⟩
  · rw [List.forall_mem_append, List.forall_mem_singleton]
    exact ⟨h.pos, hpos⟩
  · rw [List.map_append, List.map_singleton, List.nodup_append]
    refine ⟨h.nodup, by simp, fun id hid other hother => ?_⟩
    obtain rfl := List.mem_singleton.mp hother
    exact fun heq => hnew (heq ▸ hid)

/-! ## A run -/

private theorem id_le_zero_iff : r.id ≤ 0 ↔ r.id.toInt ≤ 0 := by
  rw [Int64.le_iff_toInt_le, Int64.toInt_zero]

/-- What is reported of a record that cannot follow others: that its id is below one, and otherwise
that one of them has its id. -/
def IsReport (fault : StoreFault) (before : List Record) (r : Record) : Prop :=
  r.id ≤ 0 ∧ fault = .nonPositiveId before.length r.id ∨
    0 < r.id ∧ r.id ∈ before.map Record.id ∧ fault = .duplicateId r.id

/-- Adding records after others that are indexed already: either all of them are indexed, or those
before the first one that cannot be. -/
theorem addToIndex_append {done : List Record} (hindex : Indexes index done)
    (hdone : IsIndexable done) (records : List Record) :
    (∃ out, addToIndex done.length index records = .ok out ∧ Indexes out (done ++ records) ∧
      IsIndexable (done ++ records)) ∨
    (∃ fault before r after, addToIndex done.length index records = .error fault ∧
      records = before ++ r :: after ∧ IsIndexable (done ++ before) ∧
      IsReport fault (done ++ before) r) := by
  -- Each record that is added moves from the records to those that are done.
  induction records generalizing done index with
  | nil =>
    rw [List.append_nil]
    exact .inl ⟨index, rfl, hindex, hdone⟩
  | cons r records ih =>
    by_cases hpos : r.id ≤ 0
    · have hrun : addToIndex done.length index (r :: records)
          = .error (.nonPositiveId done.length r.id) := if_pos (id_le_zero_iff.mp hpos)
      refine .inr ⟨_, [], r, records, hrun, rfl, ?_, ?_⟩ <;> rw [List.append_nil]
      · exact hdone
      · exact .inl ⟨hpos, rfl⟩
    have hpos' : ¬ r.id.toInt ≤ 0 := mt id_le_zero_iff.mpr hpos
    by_cases hold : r.id ∈ done.map Record.id
    · have hrun : addToIndex done.length index (r :: records) = .error (.duplicateId r.id) :=
        (if_neg hpos').trans (if_pos ((hindex.contains_iff r.id).mpr hold))
      refine .inr ⟨_, [], r, records, hrun, rfl, ?_, ?_⟩ <;> rw [List.append_nil]
      · exact hdone
      · exact .inr ⟨Int64.not_le.mp hpos, hold, rfl⟩
    have hstep : addToIndex done.length index (r :: records)
        = addToIndex (done.length + 1) (index.insert r.id done.length) records :=
      (if_neg hpos').trans (if_neg (mt (hindex.contains_iff r.id).mp hold))
    have hrun := ih (hindex.insert hold) (hdone.concat (Int64.not_le.mp hpos) hold)
    simp only [List.length_append, List.length_singleton, List.append_assoc,
      List.singleton_append, ← hstep] at hrun
    refine hrun.imp_right ?_
    rintro ⟨fault, before, s, after, herror, rfl, hbefore, hreport⟩
    exact ⟨fault, r :: before, s, after, herror, rfl, hbefore, hreport⟩

/-- Making a store of records. -/
theorem ofRecords_cases (records : List Record) (origin : String) :
    (∃ index, ofRecords records origin = .ok ⟨records, index, origin⟩ ∧ Indexes index records ∧
      IsIndexable records) ∨
    (∃ fault before r after, ofRecords records origin = .error fault ∧
      records = before ++ r :: after ∧ IsIndexable before ∧ IsReport fault before r) := by
  refine (addToIndex_append indexes_empty isIndexable_nil records).imp ?_ ?_
  · rintro ⟨index, hrun, hindex, hrecords⟩
    rw [List.length_nil] at hrun
    exact ⟨index, by rw [ofRecords, hrun]; rfl, hindex, hrecords⟩
  · rintro ⟨fault, before, r, after, hrun, hsplit, hbefore, hreport⟩
    rw [List.length_nil] at hrun
    exact ⟨fault, before, r, after, by rw [ofRecords, hrun]; rfl, hsplit, hbefore, hreport⟩

/-- A record that is reported does not follow the others in a store. -/
theorem IsReport.not_isIndexable {fault : StoreFault} {before after : List Record}
    (h : IsReport fault before r) : ¬ IsIndexable (before ++ r :: after) := by
  intro hrecords
  rcases h with ⟨hpos, -⟩ | ⟨-, hold, -⟩
  · exact Int64.not_le.mpr (hrecords.pos r (by simp)) hpos
  · have hnodup := hrecords.nodup
    rw [List.map_append, List.map_cons, List.nodup_append] at hnodup
    exact hnodup.2.2 r.id hold r.id List.mem_cons_self rfl

/-- Nothing else is asked of records than positive ids that are all different. -/
theorem exists_ofRecords_iff {origin : String} :
    (∃ store, ofRecords records origin = .ok store) ↔ IsIndexable records := by
  rcases ofRecords_cases records origin with
    ⟨index, hok, -, hrecords⟩ | ⟨fault, before, r, after, herror, rfl, -, hreport⟩
  · exact ⟨fun _ => hrecords, fun _ => ⟨_, hok⟩⟩
  · refine ⟨fun ⟨store, hok⟩ => ?_, fun hrecords => absurd hrecords hreport.not_isIndexable⟩
    rw [herror] at hok
    cases hok

/-! ## Stores -/

section Made

variable {origin : String} {store : Store}

theorem ofRecords_eq_ok (h : ofRecords records origin = .ok store) :
    ∃ index, store = ⟨records, index, origin⟩ ∧ Indexes index records ∧ IsIndexable records := by
  rcases ofRecords_cases records origin with ⟨index, hok, hindex, hrecords⟩ | ⟨_, _, _, _, herror, -⟩
  · rw [hok] at h
    cases h
    exact ⟨index, rfl, hindex, hrecords⟩
  · rw [herror] at h
    cases h

theorem records_of_ofRecords (h : ofRecords records origin = .ok store) :
    store.records = records := by
  obtain ⟨_, rfl, -⟩ := ofRecords_eq_ok h
  rfl

theorem indexes_of_ofRecords (h : ofRecords records origin = .ok store) :
    Indexes store.index store.records := by
  obtain ⟨_, rfl, hindex, -⟩ := ofRecords_eq_ok h
  exact hindex

theorem nodup_ids_of_ofRecords (h : ofRecords records origin = .ok store) :
    (store.records.map Record.id).Nodup := by
  obtain ⟨_, rfl, -, hrecords⟩ := ofRecords_eq_ok h
  exact hrecords.nodup

/-- Records with different ids are different. -/
theorem nodup_records_of_ofRecords (h : ofRecords records origin = .ok store) :
    store.records.Nodup :=
  List.Pairwise.of_map Record.id (fun _ _ hne heq => hne (congrArg Record.id heq))
    (nodup_ids_of_ofRecords h)

/-- A position in the index is that of a record with the id. -/
theorem exists_of_getElem?_index (h : ofRecords records origin = .ok store) {id : Int64}
    {position : Nat} (hposition : store.index[id]? = some position) :
    ∃ r, store.records[position]? = some r ∧ r.id = id := by
  have hid := (indexes_of_ofRecords h id position).mp hposition
  rwa [List.getElem?_map, Option.map_eq_some_iff] at hid

/-- The index agrees with a look through all records. -/
theorem find?_eq_some_iff (h : ofRecords records origin = .ok store) {id : Int64} :
    store.find? id = some r ↔ r ∈ store.records ∧ r.id = id := by
  rw [find?, Option.bind_eq_some_iff, List.mem_iff_getElem?]
  constructor
  · rintro ⟨position, hposition, hr⟩
    obtain ⟨s, hs, hid⟩ := exists_of_getElem?_index h hposition
    obtain rfl : s = r := Option.some.inj (hs.symm.trans hr)
    exact ⟨⟨position, hr⟩, hid⟩
  · rintro ⟨⟨position, hr⟩, rfl⟩
    refine ⟨position, (indexes_of_ofRecords h r.id position).mpr ?_, hr⟩
    rw [List.getElem?_map, hr]
    rfl

/-- A store can be made of the sample records. -/
theorem exists_ofRecords_samples (origin : String) :
    ∃ store, ofRecords sampleRecords origin = .ok store ∧ store.records = sampleRecords := by
  obtain ⟨store, hstore⟩ := exists_ofRecords_iff.mpr
    (⟨by decide, by decide⟩ : IsIndexable sampleRecords)
  exact ⟨store, hstore, records_of_ofRecords hstore⟩

end Made

/-! ## Acceptance and refusal -/

/-- Whether the record at a position keeps the records from being stored: its id is below one, or an
earlier record has it. -/
def IsRefused (records : List Record) (position : Nat) : Prop :=
  ∃ r, records[position]? = some r ∧
    (r.id ≤ 0 ∨ r.id ∈ (records.take position).map Record.id)

/-- No record is refused before records that can be stored end. -/
theorem IsIndexable.not_isRefused {before after : List Record} (h : IsIndexable before)
    {position : Nat} (hlt : position < before.length) : ¬ IsRefused (before ++ after) position := by
  rintro ⟨r, hr, hoffence⟩
  rw [List.getElem?_append_left hlt] at hr
  rw [List.take_append_of_le_length (Nat.le_of_lt hlt)] at hoffence
  rcases hoffence with hpos | hold
  · exact Int64.not_le.mpr (h.pos r (List.mem_of_getElem? hr)) hpos
  · have hsplit : before = before.take position ++ r :: before.drop (position + 1) := by
      obtain ⟨hlt, rfl⟩ := List.getElem?_eq_some_iff.mp hr
      rw [List.getElem_cons_drop, List.take_append_drop]
    have hreport : IsReport (.duplicateId r.id) (before.take position) r :=
      .inr ⟨h.pos r (List.mem_of_getElem? hr), hold, rfl⟩
    exact hreport.not_isIndexable (hsplit ▸ h)

/-- **What a store is made of.** Records make a store exactly if their ids are positive and all
different. The store then has the records in their order, finds under an id the record that has it,
and its index leads to no other place. Otherwise the first record with an id below one or with an id
that an earlier record has is reported: as a bad id if it is below one, and else as a repeated one. -/
theorem ofRecords_indexes_or_reports (records : List Record) (origin : String) :
    ((∃ store, ofRecords records origin = .ok store) ↔
      (∀ r ∈ records, 0 < r.id) ∧ (records.map Record.id).Nodup) ∧
    (∀ store, ofRecords records origin = .ok store →
      store.records = records ∧
      (∀ n r, store.find? n = some r ↔ r ∈ records ∧ r.id = n) ∧
      ∀ (n : Int64) (position : Nat), store.index[n]? = some position →
        ∃ r, store.records[position]? = some r ∧ r.id = n) ∧
    (∀ fault, ofRecords records origin = .error fault →
      ∃ position r, records[position]? = some r ∧
        (∀ earlier < position, ¬ IsRefused records earlier) ∧
        (r.id ≤ 0 ∧ fault = .nonPositiveId position r.id ∨
          0 < r.id ∧ r.id ∈ (records.take position).map Record.id ∧
            fault = .duplicateId r.id)) := by
  refine ⟨?_, fun store hstore => ⟨records_of_ofRecords hstore, fun n r => ?_, fun n position =>
    exists_of_getElem?_index hstore⟩, fun fault hfault => ?_⟩
  · rw [exists_ofRecords_iff]
    exact ⟨fun h => ⟨h.pos, h.nodup⟩, fun h => ⟨h.1, h.2⟩⟩
  · rw [find?_eq_some_iff hstore, records_of_ofRecords hstore]
  · rcases ofRecords_cases records origin with
      ⟨_, hok, -⟩ | ⟨report, before, r, after, herror, rfl, hbefore, hreport⟩
    · rw [hok] at hfault
      cases hfault
    · obtain rfl : report = fault := Except.error.inj (herror.symm.trans hfault)
      refine ⟨before.length, r, by simp, fun earlier => hbefore.not_isRefused, ?_⟩
      rw [List.take_left]
      exact hreport

/-- Of an id that stands twice and one below one after it the repetition is reported. -/
theorem ofRecords_reports_repeated :
    ofRecords [{ id := 2 }, { id := 2 }, { id := -1 }] "list" = .error (.duplicateId 2) := by
  obtain ⟨haccepts, -, hreports⟩ :=
    ofRecords_indexes_or_reports [{ id := 2 }, { id := 2 }, { id := -1 }] "list"
  cases hrun : ofRecords [{ id := 2 }, { id := 2 }, { id := -1 }] "list" with
  | ok store => exact absurd (haccepts.mp ⟨store, hrun⟩).2 (by decide)
  | error fault =>
    obtain ⟨position, r, hr, hfirst, hreport⟩ := hreports fault hrun
    have hle : position ≤ 1 := Nat.le_of_not_lt fun hlt =>
      hfirst 1 hlt ⟨{ id := 2 }, rfl, .inr (by decide)⟩
    obtain rfl | rfl : position = 0 ∨ position = 1 := by omega
    · cases hr
      rcases hreport with ⟨hpos, -⟩ | ⟨-, hold, -⟩
      · exact absurd hpos (by decide)
      · exact absurd hold (by decide)
    · cases hr
      rcases hreport with ⟨hpos, -⟩ | ⟨-, -, rfl⟩
      · exact absurd hpos (by decide)
      · rfl

end Store
end Roster
