import Roster.Proofs.Column.Names
import Roster.Proofs.Json.Nesting
import Roster.Row.Projection

/-!
# Rows made of columns

The values of columns, each at the end of the way to it (`Column.pathValues`), can be put into a row
in any order, because no column lies on the way to another one (`Column.fits_segments`).

- **One column** (`Row.Nests.insertColumn`): a row that nests columns nests one more.
- **All columns of a flat row** (`Row.nests_nest`): nesting a flat row gives every column what the row
  has under its flat key, and nothing else.
- **Flat rows** (`Row.get?_ofColumns`): under a flat key stands the value of its column, if the column is
  among those of the row (`Column.among`), so nesting the row gives just these columns their values
  (`Row.nests_nest_ofColumns`).
-/

namespace Roster

namespace Column

variable {value? : Column → Option Json} {names : List String}

/-- The values of columns, by the names on the way to them. -/
def pathValues (value? : Column → Option Json) : PathValues :=
  fun names => (ofSegments? names).bind value?

theorem pathValues_segments (c : Column) : pathValues value? c.segments = value? c := by
  rw [pathValues, ofSegments?_segments]
  rfl

theorem pathValues_eq_some_iff {value : Json} :
    pathValues value? names = some value ↔ ∃ c : Column, c.segments = names ∧ value? c = some value := by
  rw [pathValues, Option.bind_eq_some_iff]
  exact exists_congr fun c => and_congr_left' ofSegments?_eq_some_iff

theorem pathValues_none : pathValues (fun _ => none) = fun _ => none :=
  funext fun names => Option.bind_fun_none (ofSegments? names)

theorem filter_pathValues (test : Json → Bool) :
    (fun names => (pathValues value? names).filter test)
      = pathValues fun c => (value? c).filter test := by
  funext names
  rw [pathValues, pathValues]
  cases ofSegments? names <;> rfl

/-- No value of another column is in the way of a column. -/
theorem fits_segments (c : Column) : (pathValues value?).Fits c.segments := by
  intro names hvalue hprefix
  obtain ⟨value, hvalue⟩ := Option.ne_none_iff_exists'.mp hvalue
  obtain ⟨d, rfl, -⟩ := pathValues_eq_some_iff.mp hvalue
  rcases hprefix with h | h
  · rw [eq_of_prefix_segments h]
  · rw [eq_of_prefix_segments h]

private theorem pathValues_update (c : Column) (value : Json) :
    pathValues (Function.update value? c (some value))
      = (pathValues value?).set c.segments value := by
  funext names
  by_cases h : names = c.segments
  · rw [h, pathValues_segments, PathValues.set_self, Function.update_self]
  · rw [PathValues.set_of_ne h, pathValues, pathValues]
    refine Option.bind_congr fun d hd => Function.update_of_ne ?_ _ _
    rintro rfl
    exact h (ofSegments?_eq_some_iff.mp hd).symm

/-- The values of the columns of a list, and of no others. -/
def among (columns : List Column) (value? : Column → Option FieldValue) : Column → Option Json :=
  fun c => if c ∈ columns then (value? c).map FieldValue.json else none

section Among

variable {columns : List Column} {value? : Column → Option FieldValue} {c : Column}

theorem among_nil : among [] value? = fun _ => none := rfl

theorem among_all : among all value? = fun c => (value? c).map FieldValue.json :=
  funext fun c => if_pos (mem_all c)

theorem among_reverse : among columns.reverse value? = among columns value? := by
  funext c
  simp only [among, List.mem_reverse]

theorem among_cons_of_none (h : value? c = none) :
    among (c :: columns) value? = among columns value? := by
  funext d
  by_cases hd : d = c
  · subst hd
    simp [among, h]
  · simp [among, hd]

theorem among_cons_of_some {v : FieldValue} (h : value? c = some v) :
    among (c :: columns) value? = Function.update (among columns value?) c (some v.json) := by
  funext d
  by_cases hd : d = c
  · subst hd
    simp [among, h]
  · simp [among, hd]

theorem among_eq_some_iff {value : Json} :
    among columns value? c = some value ↔
      c ∈ columns ∧ ∃ v, value? c = some v ∧ v.json = value := by
  rw [among, Option.ite_none_right_eq_some, Option.map_eq_some_iff]

end Among

end Column

namespace Row

open Column

variable {row : Row} {value? : Column → Option Json} {fields : List (String × Json)}

theorem Nests.insertColumn (h : row.Nests (pathValues value?)) (c : Column) (value : Json) :
    (row.insertAt c.segments value).Nests (pathValues (Function.update value? c (some value))) := by
  have hfits : (pathValues value?).Fits c.segments := c.fits_segments
  rw [pathValues_update]
  obtain ⟨key, path, hsegments⟩ := c.exists_segments_eq_cons
  rw [hsegments] at hfits ⊢
  exact h.insertAt hfits value

/-! ## The nested row of a flat one -/

/-- The nested row with one more field of a flat row. -/
def addFlatField (nested : Row) (field : String × Json) : Row :=
  match Column.ofFlatKey? field.1 with
  | some c => nested.insertAt c.segments field.2
  | none => nested

theorem nest_eq_foldl (row : Row) : row.nest = row.fields.foldl addFlatField .empty := rfl

/-- Fields with different names, added one after the other, stand beside the columns that the row
had. -/
theorem nests_foldl_addFlatField (h : row.Nests (pathValues value?))
    (hnodup : (Fields.keys fields).Nodup) :
    (fields.foldl addFlatField row).Nests
      (pathValues fun c => (Fields.get? c.flatKey fields).or (value? c)) := by
  induction fields generalizing row value? with
  | nil => exact h
  | cons field fields ih =>
    obtain ⟨hnew, hnodup⟩ := List.nodup_cons.mp hnodup
    rw [List.foldl_cons, addFlatField]
    cases hkey : Column.ofFlatKey? field.1 with
    | none =>
      have hvalue : (fun c => (Fields.get? c.flatKey (field :: fields)).or (value? c))
          = fun c : Column => (Fields.get? c.flatKey fields).or (value? c) := by
        funext c
        have hne : field.1 ≠ c.flatKey := fun heq => by
          rw [heq, ofFlatKey?_flatKey] at hkey
          cases hkey
        rw [Fields.get?, if_neg hne]
      rw [hvalue]
      exact ih h hnodup
    | some c =>
      have hflat : field.1 = c.flatKey := ofFlatKey?_eq_some_iff.mp hkey
      have hvalue : (fun d => (Fields.get? d.flatKey (field :: fields)).or (value? d))
          = fun d => (Fields.get? d.flatKey fields).or
              (Function.update value? c (some field.2) d) := by
        funext d
        by_cases hd : d = c
        · subst hd
          -- No later field has the name of this one.
          have hnone : Fields.get? d.flatKey fields = none :=
            Fields.get?_eq_none_iff.mpr (hflat ▸ hnew)
          rw [Fields.get?, if_pos hflat, hnone, Function.update_self]
          rfl
        · have hne : field.1 ≠ d.flatKey := fun heq => hd (flatKey_inj.mp (heq.symm.trans hflat))
          rw [Fields.get?, if_neg hne, Function.update_of_ne hd]
      rw [hvalue]
      exact ih (h.insertColumn c field.2) hnodup

/-- Fields with different names, added to the empty row, give their columns values and nothing else. -/
theorem nests_foldl_addFlatField_empty (hnodup : (Fields.keys fields).Nodup) :
    (fields.foldl addFlatField .empty).Nests (pathValues fun c => Fields.get? c.flatKey fields) := by
  have hempty : empty.Nests (pathValues fun _ => none) := by
    rw [pathValues_none]
    exact nests_empty
  have hnest := nests_foldl_addFlatField hempty hnodup
  simp only [Option.or_none] at hnest
  exact hnest

theorem nests_nest (row : Row) : row.nest.Nests (pathValues fun c => row.get? c.flatKey) := by
  rw [nest_eq_foldl]
  exact nests_foldl_addFlatField_empty row.nodup

/-! ## Flat rows -/

private theorem get?_filterMap_flatKey (columns : List Column) (value? : Column → Option FieldValue)
    (c : Column) :
    Fields.get? c.flatKey
        (columns.filterMap fun d => (value? d).map fun v => (d.flatKey, FieldValue.json v))
      = among columns value? c := by
  induction columns with
  | nil => rfl
  | cons d columns ih =>
    cases hvalue : value? d with
    | none => rw [List.filterMap_cons_none (by rw [hvalue]; rfl), ih, among_cons_of_none hvalue]
    | some v =>
      rw [List.filterMap_cons_some (by rw [hvalue]; rfl), Fields.get?, among_cons_of_some hvalue]
      by_cases hc : c = d
      · subst hc
        rw [if_pos rfl, Function.update_self]
      · have hne : d.flatKey ≠ c.flatKey := fun heq => hc (flatKey_inj.mp heq).symm
        rw [if_neg hne, ih, Function.update_of_ne hc]

/-- The row of the values of columns has a value under a flat key if its column is among them. -/
theorem get?_ofColumns (columns : List Column) (value? : Column → Option FieldValue) (c : Column) :
    (ofFields (columns.filterMap fun d => (value? d).map fun v => (d.flatKey, v.json))).get? c.flatKey
      = among columns value? c := by
  rw [get?_ofFields, ← List.filterMap_reverse, get?_filterMap_flatKey, among_reverse]

/-- Nested, the row of the values of columns has them at the ends of their ways. -/
theorem nests_nest_ofColumns (columns : List Column) (value? : Column → Option FieldValue) :
    (ofFields (columns.filterMap fun d => (value? d).map fun v => (d.flatKey, v.json))).nest.Nests
      (pathValues (among columns value?)) := by
  rw [← funext (get?_ofColumns columns value?)]
  exact nests_nest _

end Row

end Roster
