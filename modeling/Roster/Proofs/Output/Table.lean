import Mathlib.Algebra.Ring.Nat
import Roster.Proofs.Json.Lookup
import Roster.Proofs.Output.Csv
import Roster.Proofs.Text.Cutting

/-!
# Aligned tables

- **Lines** (`tableText_off`): without colours a table is a list of lines, each of which is an edge and boxes
  one after the other (`boxLine`). Whether a box is ruled or has a cell in it, it is as wide as the column and
  three characters more, so all lines are of the same length (`length_of_mem_tableLines`).
- **Cells** (`hasCell_boxLine`): a cell starts where the boxes before it end, and its column has room for it.
- **Both** (`table_aligned`): what is written of rows is as many lines as there are rows and four more, with the
  cells of a column below each other.
-/

namespace Roster

variable {rows : List Row} {row : Row} {name : String}

/-! ## Columns -/

theorem length_name_le_columnWidth (rows : List Row) (name : String) :
    name.toList.length ≤ columnWidth rows name := by
  rw [columnWidth, List.foldl_max, String.length_toList]
  omega

theorem length_cell_le_columnWidth (h : row ∈ rows) (name : String) :
    (row.cell name).length ≤ columnWidth rows name := by
  have hmem : (row.cell name).length ∈ rows.map fun row => (row.cell name).length :=
    List.mem_map_of_mem h
  have hmax := List.le_max?_getD_of_mem hmem (k := name.length)
  rw [columnWidth, List.foldl_max]
  omega

/-- A name of rows is a key of one of them. -/
private theorem exists_of_mem_headers (h : name ∈ headers rows) : ∃ row ∈ rows, name ∈ row.keys := by
  rwa [headers_eq_eraseDups, List.mem_eraseDups, List.mem_flatMap] at h

/-! ## Lines -/

/-- A line of boxes behind an edge. -/
def boxLine (edge : Char) (boxes : List (List Char)) : List Char :=
  edge :: boxes.flatten

/-- A box that is ruled, up to the next edge. -/
def ruledBox (edge : Char) (width : Nat) : List Char :=
  List.replicate (width + 2) '-' ++ [edge]

/-- A box with a cell in it, up to the next edge. -/
def cellBox (cell : List Char) : List Char :=
  ' ' :: cell ++ [' ', '|']

/-- The line of the columns of rows that has a text in each of them. -/
def textLine (rows : List Row) (text : String → List Char) : List Char :=
  boxLine '|' ((headers rows).map fun name => cellBox (pad (columnWidth rows name) (text name)))

/-- The line that is ruled over the columns of rows. -/
def ruleLine (rows : List Row) (edge : Char) : List Char :=
  boxLine edge ((headers rows).map fun name => ruledBox edge (columnWidth rows name))

/-- The lines of a table. -/
def tableLines (rows : List Row) : List (List Char) :=
  ruleLine rows '+' :: textLine rows String.toList :: ruleLine rows '|' ::
    (rows.map (fun row => textLine rows row.cell) ++ [ruleLine rows '+'])

/-- Without colours a table is its lines. -/
theorem tableText_off (h : rows ≠ []) :
    tableText false rows = (tableLines rows).flatMap (· ++ ['\n']) := by
  have hruled (edge : Char) :
      ruledLine edge (((headers rows).map fun name => (name, columnWidth rows name)).map Prod.snd)
        = ruleLine rows edge ++ ['\n'] := by
    simp [ruledLine, ruleLine, boxLine, ruledBox, List.flatMap_def, Function.comp_def]
  have hcells (text : String → List Char) :
      cellLine (((headers rows).map fun name => (name, columnWidth rows name)).map
          fun column => pad column.2 (text column.1))
        = textLine rows text ++ ['\n'] := by
    simp [cellLine, textLine, boxLine, cellBox, List.flatMap_def, Function.comp_def]
  simp only [tableText, List.isEmpty_eq_false_iff.mpr h, Bool.false_eq_true, if_false, Style.apply_off,
    hruled, hcells]
  simp [tableLines, List.flatMap_map, List.flatMap_append]

/-- A line of a table is ruled, or it has the names in it or the cells of a row. -/
theorem cases_of_mem_tableLines {line : List Char} (h : line ∈ tableLines rows) :
    (∃ edge, '\n' ≠ edge ∧ line = ruleLine rows edge) ∨ line = textLine rows String.toList ∨
      ∃ row ∈ rows, line = textLine rows row.cell := by
  simp only [tableLines, List.mem_cons, List.mem_append, List.mem_map, List.not_mem_nil, or_false] at h
  obtain rfl | rfl | rfl | ⟨row, hrow, rfl⟩ | rfl := h
  · exact .inl ⟨'+', by decide, rfl⟩
  · exact .inr (.inl rfl)
  · exact .inl ⟨'|', by decide, rfl⟩
  · exact .inr (.inr ⟨row, hrow, rfl⟩)
  · exact .inl ⟨'+', by decide, rfl⟩

theorem length_tableLines (rows : List Row) : (tableLines rows).length = rows.length + 4 := by
  simp [tableLines]

/-- The number of characters on each line of a table. -/
def lineLength (rows : List Row) : Nat :=
  1 + ((headers rows).map fun name => columnWidth rows name + 3).sum

/-- Boxes as wide as their columns and three characters more make up a line. -/
theorem length_boxLine {box : String → List Char}
    (h : ∀ name, (box name).length = columnWidth rows name + 3) (edge : Char) :
    (boxLine edge ((headers rows).map box)).length = lineLength rows := by
  rw [boxLine, List.length_cons, List.length_flatten, List.map_map, lineLength, Nat.add_comm]
  simp only [Function.comp_def, h]

private theorem length_ruledBox (edge : Char) (width : Nat) : (ruledBox edge width).length = width + 3 := by
  simp [ruledBox]

private theorem length_cellBox_pad {text : List Char} {width : Nat} (h : text.length ≤ width) :
    (cellBox (pad width text)).length = width + 3 := by
  simp only [cellBox, List.length_append, List.length_cons, List.length_nil, length_pad]
  omega

theorem length_ruleLine (rows : List Row) (edge : Char) :
    (ruleLine rows edge).length = lineLength rows :=
  length_boxLine (fun _ => length_ruledBox edge _) edge

theorem length_textLine {text : String → List Char}
    (h : ∀ name, (text name).length ≤ columnWidth rows name) :
    (textLine rows text).length = lineLength rows :=
  length_boxLine (fun name => length_cellBox_pad (h name)) '|'

theorem length_of_mem_tableLines {line : List Char} (h : line ∈ tableLines rows) :
    line.length = lineLength rows := by
  rcases cases_of_mem_tableLines h with ⟨edge, -, rfl⟩ | rfl | ⟨row, hrow, rfl⟩
  · exact length_ruleLine rows edge
  · exact length_textLine (length_name_le_columnWidth rows)
  · exact length_textLine (length_cell_le_columnWidth hrow)

/-! ## Line breaks -/

private theorem notMem_boxLine {boxes : List (List Char)} {edge c : Char} (hedge : c ≠ edge)
    (h : ∀ box ∈ boxes, c ∉ box) : c ∉ boxLine edge boxes := by
  rw [boxLine, List.mem_cons, List.mem_flatten, not_or]
  exact ⟨hedge, fun ⟨box, hbox, hc⟩ => h box hbox hc⟩

private theorem notMem_ruleLine {edge : Char} (hedge : '\n' ≠ edge) : '\n' ∉ ruleLine rows edge := by
  refine notMem_boxLine hedge (List.forall_mem_map.mpr fun name _ => ?_)
  simp [ruledBox, hedge]

private theorem notMem_textLine {text : String → List Char} (h : ∀ name ∈ headers rows, '\n' ∉ text name) :
    '\n' ∉ textLine rows text := by
  refine notMem_boxLine (by decide) (List.forall_mem_map.mpr fun name hname => ?_)
  simp [cellBox, pad, h name hname]

/-- Whether neither a key nor the text of a value goes on over several lines. -/
def Row.IsOnOneLine (row : Row) : Prop :=
  ∀ field ∈ row.fields, '\n' ∉ field.1.toList ∧ '\n' ∉ cellText field.2

theorem notMem_of_mem_tableLines (h : ∀ row ∈ rows, row.IsOnOneLine) {line : List Char}
    (hline : line ∈ tableLines rows) : '\n' ∉ line := by
  have hname (name : String) (hname : name ∈ headers rows) : '\n' ∉ name.toList := by
    obtain ⟨row, hrow, hkey⟩ := exists_of_mem_headers hname
    obtain ⟨field, hfield, rfl⟩ := List.mem_map.mp hkey
    exact (h row hrow field hfield).1
  have hcell {row : Row} (hrow : row ∈ rows) (name : String) : '\n' ∉ row.cell name := by
    rw [Row.cell]
    split
    · rename_i value hvalue
      exact (h row hrow _ (Fields.mem_of_get? hvalue)).2
    · exact List.not_mem_nil
  rcases cases_of_mem_tableLines hline with ⟨edge, hedge, rfl⟩ | rfl | ⟨row, hrow, rfl⟩
  · exact notMem_ruleLine hedge
  · exact notMem_textLine hname
  · exact notMem_textLine fun name _ => hcell hrow name

/-! ## Cells -/

/-- Whether a line has a text at a place, filled up with blanks to a width that is enough for all of it. -/
structure HasCell (line : List Char) (start width : Nat) (text : List Char) : Prop where
  fits : text.length ≤ width
  shown : (line.drop start).take width = text ++ List.replicate (width - text.length) ' '

/-- The place at which the cells of a column start: behind an edge, the columns before it and a blank. -/
def cellStart (rows : List Row) (j : Nat) : Nat :=
  ((headers rows).take j |>.map fun name => columnWidth rows name + 3).sum + 2

/-- A cell stands behind the boxes before it and a blank. -/
theorem hasCell_boxLine {before after : List (List Char)} {text : List Char} {start width : Nat}
    (hfits : text.length ≤ width) (hstart : start = before.flatten.length + 2) :
    HasCell (boxLine '|' (before ++ cellBox (pad width text) :: after)) start width text := by
  refine ⟨hfits, ?_⟩
  have hline : boxLine '|' (before ++ cellBox (pad width text) :: after)
      = ('|' :: before.flatten ++ [' ']) ++ (pad width text ++ ([' ', '|'] ++ after.flatten)) := by
    simp [boxLine, cellBox]
  have hlength : start = ('|' :: before.flatten ++ [' ']).length := by simp [hstart]
  have hwidth : (pad width text).length = width := by
    rw [length_pad]
    exact Nat.max_eq_right hfits
  rw [hline, hlength, List.drop_left, List.take_left' hwidth, pad]

theorem hasCell_textLine {text : String → List Char}
    (h : ∀ name, (text name).length ≤ columnWidth rows name) {j : Nat}
    (hname : (headers rows)[j]? = some name) :
    HasCell (textLine rows text) (cellStart rows j) (columnWidth rows name) (text name) := by
  obtain ⟨hj, rfl⟩ := List.getElem?_eq_some_iff.mp hname
  have hsplit : headers rows
      = (headers rows).take j ++ (headers rows)[j] :: (headers rows).drop (j + 1) := by
    rw [List.getElem_cons_drop, List.take_append_drop]
  rw [textLine]
  conv in List.map _ _ => rw [hsplit]
  rw [List.map_append, List.map_cons]
  refine hasCell_boxLine (h _) ?_
  rw [List.length_flatten, List.map_map, cellStart]
  simp only [Function.comp_def, length_cellBox_pad (h _)]

/-! ## Both -/

/-- **Tables are aligned.** Without colours, rows without line breaks in their keys and values are written
as four lines more than there are rows, each with its end. All lines have the same number of characters. A
column starts at the same place in the second line, which has the names, and in the lines of the rows from
the fourth one on, and each of its cells is there in full and filled up with blanks to the same width. -/
theorem table_aligned {rows : List Row} (hrows : rows ≠ []) (hlines : ∀ row ∈ rows, row.IsOnOneLine) :
    ∃ lines : List (List Char),
      (OutputFormat.table.rows false rows).toList.splitOn '\n' = lines ++ [[]] ∧
      lines.length = rows.length + 4 ∧
      (∀ line ∈ lines, line.length = lineLength rows) ∧
      ∀ (j : Nat) (name : String), (headers rows)[j]? = some name →
        (∃ line, lines[1]? = some line ∧
          HasCell line (cellStart rows j) (columnWidth rows name) name.toList) ∧
        ∀ (i : Nat) (row : Row), rows[i]? = some row →
          ∃ line, lines[i + 3]? = some line ∧
            HasCell line (cellStart rows j) (columnWidth rows name)
              (((row.get? name).map cellText).getD []) := by
  refine ⟨tableLines rows, ?_, length_tableLines rows, fun _ => length_of_mem_tableLines,
    fun j name hname => ⟨⟨_, rfl, ?_⟩, fun i row hrow => ⟨textLine rows row.cell, ?_, ?_⟩⟩⟩
  · rw [OutputFormat.rows, String.toList_ofList, tableText_off hrows]
    exact Text.splitOn_flatMap_concat fun _ => notMem_of_mem_tableLines hlines
  · exact hasCell_textLine (length_name_le_columnWidth rows) hname
  · have hi : i < (rows.map fun row => textLine rows row.cell).length := by
      rw [List.length_map]
      exact (List.getElem?_eq_some_iff.mp hrow).1
    rw [tableLines, List.getElem?_cons_succ, List.getElem?_cons_succ, List.getElem?_cons_succ,
      List.getElem?_append_left hi, List.getElem?_map, hrow, Option.map_some]
  · have hcell : row.cell name = ((row.get? name).map cellText).getD [] := congrFun row.cell_eq name
    rw [← hcell]
    exact hasCell_textLine (length_cell_le_columnWidth (List.mem_of_getElem? hrow)) hname

/-- Two rows with different keys, of which one has characters beyond ASCII and an array in it. -/
def raggedRows : List Row :=
  [Row.empty.insert "né" (.array [.string "ω", .null]), Row.empty.insert "rank" .null]

theorem table_aligned_ragged :
    raggedRows ≠ [] ∧ (∀ row ∈ raggedRows, row.IsOnOneLine) ∧ headers raggedRows = ["né", "rank"] ∧
      ∃ lines : List (List Char),
        (OutputFormat.table.rows false raggedRows).toList.splitOn '\n' = lines ++ [[]] ∧
        lines.length = 6 ∧ (∀ line ∈ lines, line.length = 21) ∧
        ∃ line, lines[4]? = some line ∧ (line.drop 15).take 4 = "NULL".toList := by
  have hrows : raggedRows ≠ [] := by decide
  have hplain : ∀ row ∈ raggedRows, row.IsOnOneLine := by
    unfold Row.IsOnOneLine
    decide
  obtain ⟨lines, hsplit, hcount, hlength, hcells⟩ := table_aligned hrows hplain
  refine ⟨hrows, hplain, by decide, lines, hsplit, hcount, hlength, ?_⟩
  obtain ⟨line, hline, hcell⟩ := (hcells 1 "rank" (by decide)).2 1 _ rfl
  exact ⟨line, hline, hcell.shown⟩

end Roster
