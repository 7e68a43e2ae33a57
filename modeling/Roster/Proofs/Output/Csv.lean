import Roster.Output.Format
import Roster.Proofs.Text.Cutting
import Roster.Proofs.Text.FirstSeen

/-!
# Comma-separated values read back

- **Fields** (`readFrom_fieldText_comma`, `readFrom_fieldText_newline`): the reader takes a written
  field and what ends it, quoted or not.
- **Records** (`readFrom_recordText`): a record is read from its line, also the record of one empty
  field, for which two quotes are written.
- **Rows** (`rows_csv_readBack`): what is written of rows is read as their names and their cells.
-/

namespace Roster

namespace Csv

variable {fields : List (List Char)} {field cs : List Char}

/-! ## Fields -/

/-- A reader in a field with quotes takes characters of which quotes are written twice. -/
private theorem readFrom_quoted_append (fields : List (List Char)) (field done cs : List Char) :
    readFrom .quoted fields done
        (field.flatMap (fun c => if c = '"' then ['"', '"'] else [c]) ++ cs)
      = readFrom .quoted fields (field.reverse ++ done) cs := by
  induction field generalizing done with
  | nil => rfl
  | cons c field ih =>
    rw [List.flatMap_cons, List.append_assoc, List.reverse_cons, List.append_assoc]
    by_cases hc : c = '"'
    · subst hc
      exact ih ('"' :: done)
    · rw [if_neg hc, List.singleton_append, readFrom, if_neg hc]
      exact ih (c :: done)

private theorem isSpecial_eq_false_iff {c : Char} :
    isSpecial c = false ↔ c ≠ ',' ∧ c ≠ '"' ∧ c ≠ '\n' ∧ c ≠ '\r' := by
  simp [isSpecial, and_assoc]

/-- A reader in a field without quotes takes characters that make none necessary. -/
private theorem readFrom_plain_append (h : field.any isSpecial = false) (fields : List (List Char))
    (done cs : List Char) :
    readFrom .plain fields done (field ++ cs)
      = readFrom .plain fields (field.reverse ++ done) cs := by
  induction field generalizing done with
  | nil => rfl
  | cons c field ih =>
    obtain ⟨hc, hfield⟩ := Bool.or_eq_false_iff.mp h
    obtain ⟨hcomma, -, hnewline, -⟩ := isSpecial_eq_false_iff.mp hc
    rw [List.cons_append, readFrom, if_neg hcomma, if_neg hnewline, ih hfield, List.reverse_cons,
      List.append_assoc]
    rfl

/-- After a written field the reader stands behind its last quote, or in the field, or at the start
of a field that is empty. -/
theorem readFrom_fieldText (fields : List (List Char)) (field cs : List Char) :
    readFrom .fieldStart fields [] (fieldText field ++ cs)
      = readFrom (if field.any isSpecial then .quote else if field = [] then .fieldStart else .plain)
          fields field.reverse cs := by
  rw [fieldText]
  split
  · rename_i hspecial
    have hquote : readFrom .quoted fields field.reverse ('"' :: cs)
        = readFrom .quote fields field.reverse cs := rfl
    rw [List.append_assoc, List.cons_append, readFrom, if_pos rfl, readFrom_quoted_append,
      List.append_nil]
    exact hquote
  · rename_i hspecial
    cases field with
    | nil => rfl
    | cons c field =>
      have hplain := Bool.or_eq_false_iff.mp (Bool.eq_false_iff.mpr hspecial)
      obtain ⟨hcomma, hquote, hnewline, -⟩ := isSpecial_eq_false_iff.mp hplain.1
      rw [if_neg (List.cons_ne_nil c field), List.cons_append, readFrom, if_neg hquote,
        if_neg hcomma, if_neg hnewline, readFrom_plain_append hplain.2, List.reverse_cons]

theorem readFrom_fieldText_comma (fields : List (List Char)) (field cs : List Char) :
    readFrom .fieldStart fields [] (fieldText field ++ ',' :: cs)
      = readFrom .fieldStart (field :: fields) [] cs := by
  rw [readFrom_fieldText]
  split
  · simp [readFrom]
  · split
    · rename_i hnil
      simp [readFrom, hnil]
    · simp [readFrom]

/-- The line of a record ends after its last field, unless nothing at all stands on it. -/
theorem readFrom_fieldText_newline (h : field = [] → fields ≠ []) (cs : List Char) :
    readFrom .fieldStart fields [] (fieldText field ++ '\n' :: cs)
      = (readFrom .fieldStart [] [] cs).map ((field :: fields).reverse :: ·) := by
  rw [readFrom_fieldText]
  split
  · simp [readFrom]
  · split
    · rename_i hnil
      simp [readFrom, hnil, h hnil]
    · simp [readFrom]

/-! ## Records -/

/-- The fields of a record are read one after the other up to the end of the line. -/
theorem readFrom_intercalate {record : List (List Char)} (hrecord : record ≠ [])
    (h : record = [[]] → fields ≠ []) (cs : List Char) :
    readFrom .fieldStart fields [] ([','].intercalate (record.map fieldText) ++ '\n' :: cs)
      = (readFrom .fieldStart [] [] cs).map ((fields.reverse ++ record) :: ·) := by
  induction record generalizing fields with
  | nil => exact absurd rfl hrecord
  | cons field record ih =>
    -- The last field ends the line. An empty one would be no record if it stood there alone, which
    -- `h` rules out.
    cases record with
    | nil =>
      have hfield : field = [] → fields ≠ [] := fun hnil => h (by rw [hnil])
      simpa [List.intercalate] using readFrom_fieldText_newline hfield cs
    | cons next record =>
      have htext : [','].intercalate ((field :: next :: record).map fieldText)
          = fieldText field ++ ',' :: [','].intercalate ((next :: record).map fieldText) := by
        simp [List.intercalate]
      rw [htext, List.append_assoc, List.cons_append, readFrom_fieldText_comma,
        ih (List.cons_ne_nil next record) fun _ => List.cons_ne_nil field fields]
      simp

theorem fieldText_eq_nil_iff : fieldText field = [] ↔ field = [] := by
  rw [fieldText]
  split
  · rename_i hspecial
    simp only [List.cons_append, List.cons_ne_nil, false_iff]
    rintro rfl
    cases hspecial
  · rfl

/-- Only the record of one empty field has no character. -/
private theorem intercalate_fieldText_eq_nil {record : List (List Char)} (hrecord : record ≠ [])
    (h : [','].intercalate (record.map fieldText) = []) : record = [[]] := by
  rcases Text.intercalate_singleton_eq_nil h with hnil | hsingle
  · exact absurd (List.map_eq_nil_iff.mp hnil) hrecord
  · obtain ⟨field, rfl, hfield⟩ := List.map_eq_singleton_iff.mp hsingle
    rw [fieldText_eq_nil_iff.mp hfield]

theorem readFrom_recordText {record : List (List Char)} (hrecord : record ≠ []) (cs : List Char) :
    readFrom .fieldStart [] [] (recordText record ++ cs)
      = (readFrom .fieldStart [] [] cs).map (record :: ·) := by
  rw [recordText]
  split
  · rename_i hempty
    rw [intercalate_fieldText_eq_nil hrecord (List.isEmpty_iff.mp hempty)]
    rfl
  · rename_i hempty
    have hsingle : record = [[]] → ([] : List (List Char)) ≠ [] := by
      rintro rfl
      exact absurd rfl hempty
    rw [List.append_assoc, List.singleton_append, readFrom_intercalate hrecord hsingle]
    rfl

/-- What is written of records that have fields is read as these records. -/
theorem records?_text {records : List (List (List Char))} (h : ∀ r ∈ records, r ≠ []) :
    records? (text records) = some records := by
  induction records with
  | nil => rfl
  | cons record records ih =>
    obtain ⟨hrecord, hrecords⟩ := List.forall_mem_cons.mp h
    rw [records?, text, List.flatMap_cons, readFrom_recordText hrecord]
    exact congrArg (Option.map (record :: ·)) (ih hrecords)

/-- Records with as many fields each are written. -/
theorem text?_eq_some {records : List (List (List Char))} {width : Nat}
    (h : ∀ r ∈ records, r.length = width) : text? records = some (text records) := by
  fun_induction text? records with
  | case1 => rfl
  | case2 record => simp [text]
  | case3 record next records hlength ih =>
    rw [ih (List.forall_mem_cons.mp h).2]
    rfl
  | case4 record next records hlength =>
    have hrecord := h record (by simp)
    have hnext := h next (by simp)
    exact absurd (hrecord.trans hnext.symm) hlength

end Csv

/-! ## Rows -/

/-- The names of rows are their keys in the order of first sight. -/
theorem headers_eq_eraseDups (rows : List Row) :
    headers rows = (rows.flatMap Row.keys).eraseDups := by
  rw [← Text.foldl_concat_new, List.foldl_flatMap]
  rfl

theorem headers_ne_nil {rows : List Row} (h : ∃ row ∈ rows, row.keys ≠ []) : headers rows ≠ [] := by
  obtain ⟨row, hrow, hkeys⟩ := h
  obtain ⟨key, hkey⟩ := List.exists_mem_of_ne_nil _ hkeys
  have hname : key ∈ headers rows := by
    rw [headers_eq_eraseDups, List.mem_eraseDups]
    exact List.mem_flatMap.mpr ⟨row, hrow, hkey⟩
  exact List.ne_nil_of_mem hname

theorem Row.cell_eq (row : Row) :
    row.cell = fun name => ((row.get? name).map cellText).getD [] := by
  funext name
  rw [cell]
  cases row.get? name <;> rfl

/-- The records of rows: one of their names, and one for each row with what it has under them. -/
theorem Csv.ofRows_eq_cons {rows : List Row} (h : headers rows ≠ []) :
    ofRows rows = (headers rows).map String.toList ::
      rows.map fun row => (headers rows).map fun name => ((row.get? name).map cellText).getD [] := by
  simp only [ofRows, List.isEmpty_eq_false_iff.mpr h, Bool.false_eq_true, if_false, Row.cell_eq]

/-- **Rows can be read back from what is written of them**, if any of them has a key. All records
have the same number of fields, so none is refused. The first one has the keys of the rows in the
order in which they are first seen, and each further one has what a row says under these, or nothing
where the row does not have the key. -/
theorem rows_csv_readBack (color : Bool) {rows : List Row} (h : ∃ row ∈ rows, row.keys ≠ []) :
    ∃ text records,
      Csv.text? (Csv.ofRows rows) = some text ∧
      OutputFormat.csv.rows color rows = String.ofList text ∧
      Csv.records? text = some records ∧
      records.length = 1 + rows.length ∧
      headers rows = (rows.flatMap Row.keys).eraseDups ∧
      (∀ record ∈ records, record.length = (headers rows).length) ∧
      records[0]? = some ((headers rows).map String.toList) ∧
      ∀ (i : Nat) (row : Row), rows[i]? = some row →
        records[i + 1]? = some ((headers rows).map fun name =>
          ((row.get? name).map cellText).getD []) := by
  have hnames : headers rows ≠ [] := headers_ne_nil h
  have hrecords := Csv.ofRows_eq_cons hnames
  have hlength : ∀ record ∈ Csv.ofRows rows, record.length = (headers rows).length := by
    rw [hrecords]
    simp
  have hfields : ∀ record ∈ Csv.ofRows rows, record ≠ [] := by
    intro record hrecord
    rw [← List.length_pos_iff_ne_nil, hlength record hrecord]
    exact List.length_pos_iff_ne_nil.mpr hnames
  refine ⟨Csv.text (Csv.ofRows rows), Csv.ofRows rows, Csv.text?_eq_some hlength, rfl,
    Csv.records?_text hfields, ?_, headers_eq_eraseDups rows, hlength, ?_, ?_⟩
  · rw [hrecords, List.length_cons, List.length_map, Nat.add_comm]
  · rw [hrecords]
    rfl
  · intro i row hrow
    rw [hrecords, List.getElem?_cons_succ, List.getElem?_map, hrow]
    rfl

/-- Two rows with different keys, of which one has a comma, quotes and a line break in its text. -/
def unevenRows : List Row :=
  [Row.empty.insert "note" (.string "a, \"b\"\n"), Row.empty.insert "rank" .null]

theorem rows_csv_readBack_uneven :
    (∃ row ∈ unevenRows, row.keys ≠ []) ∧
      Csv.records? (OutputFormat.csv.rows false unevenRows).toList
        = some [["note".toList, "rank".toList], ["a, \"b\"\n".toList, []], [[], "NULL".toList]] := by
  have hkeys : ∃ row ∈ unevenRows, row.keys ≠ [] := by decide
  obtain ⟨text, records, -, htext, hread, hlength, -, -, hnames, hcells⟩ :=
    rows_csv_readBack false hkeys
  refine ⟨hkeys, ?_⟩
  rw [htext, String.toList_ofList, hread]
  obtain ⟨names, first, second, rfl⟩ := List.length_eq_three.mp hlength
  have hfirst := hcells 0 _ rfl
  have hsecond := hcells 1 _ rfl
  rw [Option.some.inj hnames, Option.some.inj hfirst, Option.some.inj hsecond]
  decide

end Roster
