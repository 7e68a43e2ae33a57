import Roster.Files.Source
import Roster.Proofs.Query.Selection
import Roster.Proofs.Record.Json

/-!
# The whole answer is a data file

The answer to the request that asks for nothing in particular has the whole nested row of every
record (`data_default`). What is written of its rows is a data file for the same records:
`answer_default_readBack`.
-/

namespace Roster

open Decoder Json

/-- The rows of an answer as one value. -/
def Answer.dataJson (a : Answer) : Json :=
  .array (a.data.map Row.json)

theorem data_default (records : List Record) : (answer records {}).data = records.map Record.row := by
  obtain ⟨-, hdata⟩ := answer_of_isWhole (q := {}) (.inl rfl) records
  exact hdata

theorem dataJson_default (records : List Record) :
    (answer records {}).dataJson = .array (records.map Record.json) := by
  simp only [Answer.dataJson, data_default, List.map_map, Function.comp_def, Record.json_row]

/-- A file with the JSON of records is read as these records. -/
theorem readRecords_of_text {tree : FileTree} {path : String} {records : List Record}
    (htext : tree.readText path = .ok (Json.array (records.map Record.json)).compact) :
    readRecords tree path = .ok records := by
  unfold readRecords
  simp only [htext, (Record.decodes_array records).2]

/-- **The whole answer is a data file.** The rows of the answer to a request for nothing in particular
are decoded as the records of the store, in their order: as one JSON value, as its text, and as a
file that holds this text. From what is decoded a store can be made again, with the same records. -/
theorem answer_default_readBack {records : List Record} {origin : String} {store : Store}
    (h : Store.ofRecords records origin = .ok store) :
    let data := (answer store.records {}).dataJson
    (list Record.decoder).ofJson data = .ok store.records ∧
    (list Record.decoder).ofText data.compact = .ok store.records ∧
    (∀ (tree : FileTree) (path : String), tree.readText path = .ok data.compact →
      readRecords tree path = .ok store.records) ∧
    ∀ other, ∃ again, Store.ofRecords store.records other = .ok again ∧
      again.records = store.records := by
  intro data
  obtain ⟨hvalue, htext⟩ := Record.decodes_array store.records
  have hdata : data = .array (store.records.map Record.json) := dataJson_default store.records
  rw [hdata]
  refine ⟨hvalue, htext, fun tree path => readRecords_of_text, fun other => ?_⟩
  obtain ⟨again, hagain⟩ : ∃ again, Store.ofRecords store.records other = .ok again := by
    rw [Store.records_of_ofRecords h]
    exact Store.exists_ofRecords_iff.mpr (Store.exists_ofRecords_iff.mp ⟨store, h⟩)
  exact ⟨again, hagain, Store.records_of_ofRecords hagain⟩

/-- Records that lack everything, have an empty text, or have a part without parts of its own: none is
taken for another. -/
theorem answer_default_readBack_sparse :
    let records : List Record := [{ id := 3 }, { id := 1, name := "" },
      { id := 2, address := some {} }, { id := 4, address := some { geo := some {} } }]
    ∃ store, Store.ofRecords records "list" = .ok store ∧
      (list Record.decoder).ofText (answer store.records {}).dataJson.compact = .ok records := by
  intro records
  obtain ⟨store, hstore⟩ := Store.exists_ofRecords_iff.mpr
    (⟨by decide, by decide⟩ : Store.IsIndexable records)
  obtain ⟨-, htext, -⟩ := answer_default_readBack hstore
  rw [Store.records_of_ofRecords hstore] at htext
  refine ⟨store, hstore, ?_⟩
  rwa [Store.records_of_ofRecords hstore]

end Roster
