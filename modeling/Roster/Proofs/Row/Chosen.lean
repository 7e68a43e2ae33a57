import Roster.Proofs.Row.Nest

/-!
# Rows of chosen columns

A nested row of chosen columns is built column by column. An object is placed when one of its columns
is named for the first time, filled as columns with a value come, and taken away again if it stays
empty.

- **Placeholders** (`Row.occupied`): seen without its empty objects, a row does not change when an
  object is placed (`get?_occupied_insertObject`), and takes up a value as if no placeholder had been
  there (`get?_occupied_insertAt`).
- **One more column** (`Record.nests_addNested`) and **all of them**
  (`Record.nests_nestedSelection`): the row nests the values of the columns chosen so far.
- **Both rows** (`Record.same_nest_flat_chosen`): the flat row of chosen columns leaves out empty
  texts everywhere, the nested one only inside objects; but for that they are the same.
-/

namespace Roster

/-- Whether a value is the empty text. -/
def Json.isEmptyText : Json → Bool
  | .string s => s.isEmpty
  | _ => false

/-! ## Placeholders -/

namespace Json

theorem fieldsOf_filter (slot : Option Json) :
    fieldsOf (slot.filter fun value => !value.isEmptyObject) = fieldsOf slot := by
  cases slot with
  | none => rfl
  | some value =>
    match value with
    | .object [] => rfl
    | .object (field :: fields) => rfl
    | .null | .bool _ | .number _ | .string _ | .array _ => rfl

theorem graft_filter (path : List String) (value : Json) (slot : Option Json) :
    graft path value (slot.filter fun value => !value.isEmptyObject) = graft path value slot := by
  cases path with
  | nil => rfl
  | cons key path => rw [graft, fieldsOf_filter, graft]

theorem isEmptyObject_graft {value : Json} (h : value.isEmptyObject = false) (path : List String)
    (slot : Option Json) : (graft path value slot).isEmptyObject = false := by
  cases path with
  | nil => exact h
  | cons key path =>
    rw [graft]
    cases hfields : Fields.insert key (graft path value (Fields.get? key (fieldsOf slot)))
      (fieldsOf slot) with
    | nil => exact absurd hfields (Fields.insert_ne_nil _ _ _)
    | cons field fields => rfl

end Json

theorem FieldValue.isEmptyObject_json (v : FieldValue) : v.json.isEmptyObject = false := by
  cases v <;> rfl

/-- No column stands where another one has an object around it. -/
theorem Column.pathValues_object {value? : Column → Option Json} {c : Column} {object : String}
    {rest : List String} (hgroup : c.group.segments = object :: rest) :
    pathValues value? [object] = none := by
  by_contra hvalue
  have hsegments : c.segments = object :: (rest ++ [c.leaf]) := by
    rw [segments, hgroup]
    rfl
  have hprefix : [object] <+: c.segments := by
    rw [hsegments, List.cons_prefix_cons]
    exact ⟨rfl, List.nil_prefix⟩
  have hwhole : [object] = c.segments := c.fits_segments [object] hvalue (.inl hprefix)
  rw [hsegments] at hwhole
  simp at hwhole

namespace Row

variable {row : Row} {key : String}

/-- The row without those of its objects that are empty. -/
def occupied (row : Row) : Row :=
  row.filter fun value => !value.isEmptyObject

theorem get?_occupied (key : String) (row : Row) :
    row.occupied.get? key = (row.get? key).filter fun value => !value.isEmptyObject :=
  get?_filter _ row

/-- A value finds the same place whether there are placeholders or not. -/
theorem get?_occupied_insertAt {value : Json} (h : value.isEmptyObject = false)
    (path : List String) (other : String) :
    (row.insertAt (key :: path) value).occupied.get? other
      = (row.occupied.insertAt (key :: path) value).get? other := by
  rw [get?_occupied, insertAt_cons, insertAt_cons, get?_insert, get?_insert, get?_occupied,
    get?_occupied, Json.graft_filter]
  by_cases hkey : key = other
  · rw [if_pos hkey, if_pos hkey, Option.filter_some, Json.isEmptyObject_graft h]
    rfl
  · rw [if_neg hkey, if_neg hkey]

/-- A placeholder does not count, and an object that is there stays as it is. -/
theorem get?_occupied_insertObject
    (h : row.get? key = none ∨ ∃ fields, row.get? key = some (.object fields)) (other : String) :
    (row.insertObject key).occupied.get? other = row.occupied.get? other := by
  have hinsert : row.insertObject key
      = row.insert key (.object (Json.fieldsOf (row.get? key))) := rfl
  rw [get?_occupied, get?_occupied, hinsert, get?_insert]
  by_cases hkey : key = other
  · subst hkey
    rw [if_pos rfl]
    rcases h with h | ⟨fields, h⟩
    · rw [h]
      rfl
    · rw [h]
      rfl
  · rw [if_neg hkey]

/-- Where no value stands a row has an object or nothing. -/
theorem Nests.of_occupied {values : PathValues} (h : row.occupied.Nests values)
    (hnone : values [key] = none) :
    row.get? key = none ∨ ∃ fields, row.get? key = some (.object fields) := by
  have hkey := (h key).of_root_eq_none hnone
  rw [get?_occupied] at hkey
  cases hslot : row.get? key with
  | none => exact .inl rfl
  | some value =>
    rw [hslot] at hkey
    match value with
    | .object fields => exact .inr ⟨fields, rfl⟩
    | .null | .bool _ | .number _ | .string _ | .array _ =>
      rcases hkey.1 with h | ⟨fields, h⟩ <;> cases h

open Column

variable {value? : Column → Option Json} {c : Column}

/-- A column's value is nested among others whatever placeholders there are. -/
theorem Nests.occupied_insertColumn (h : row.occupied.Nests (pathValues value?)) (c : Column)
    (v : FieldValue) :
    (row.insertAt c.segments v.json).occupied.Nests
      (pathValues (Function.update value? c (some v.json))) := by
  refine (h.insertColumn c v.json).congr fun other => ?_
  obtain ⟨key, path, hsegments⟩ := c.exists_segments_eq_cons
  rw [hsegments]
  exact get?_occupied_insertAt v.isEmptyObject_json path other

/-- The outermost object of a column can be placed before there is a value for it. -/
theorem Nests.occupied_insertObject {object : String} {rest : List String}
    (h : row.occupied.Nests (pathValues value?)) (hgroup : c.group.segments = object :: rest) :
    (row.insertObject object).occupied.Nests (pathValues value?) :=
  h.congr (get?_occupied_insertObject (h.of_occupied (pathValues_object hgroup)))

end Row

/-! ## Chosen columns -/

namespace Record

open Column

variable {r : Record} {c : Column} {done : List Column} {row : Row}

/-- The value that a nested row of chosen columns shows of a column. -/
def chosenValue? (r : Record) (c : Column) : Option FieldValue :=
  if c.group = .scalar then r.value? c else r.nonEmptyValue? c

private theorem group_eq_scalar (h : c.group.segments = []) : c.group = .scalar := by
  revert h
  cases c.group <;> simp [ColumnGroup.segments]

private theorem group_ne_scalar {object : String} {rest : List String}
    (h : c.group.segments = object :: rest) : c.group ≠ .scalar := by
  intro hscalar
  rw [hscalar] at h
  cases h

/-- A record has the objects around its values. -/
theorem hasGroup_of_value {v : FieldValue} (h : r.value? c = some v) :
    r.hasGroup c.group = true := by
  rw [value?, segments] at h
  cases hgroup : c.group with
  | scalar => rfl
  | address | geo =>
    rw [hgroup] at h
    obtain ⟨a, ha, -⟩ := Option.bind_eq_some_iff.mp h
    rw [hasGroup, ha]
    rfl
  | company =>
    rw [hgroup] at h
    obtain ⟨d, hd, -⟩ := Option.bind_eq_some_iff.mp h
    rw [hasGroup, hd]
    rfl

/-! ## One more column -/

theorem nests_addNested (hnest : row.occupied.Nests (pathValues (among done r.chosenValue?)))
    (c : Column) :
    (r.addNested row c).occupied.Nests (pathValues (among (c :: done) r.chosenValue?)) := by
  rw [addNested]
  cases hgroup : c.group.segments with
  | nil =>
    have hchosen : r.chosenValue? c = r.value? c := if_pos (group_eq_scalar hgroup)
    have hsegments : c.segments = [c.leaf] := by
      rw [segments, hgroup]
      rfl
    cases hv : r.value? c with
    | none =>
      rw [among_cons_of_none (hchosen.trans hv)]
      exact hnest
    | some v =>
      have hnew := hnest.occupied_insertColumn c v
      rw [hsegments] at hnew
      rw [among_cons_of_some (hchosen.trans hv)]
      exact hnew
  | cons object rest =>
    have hchosen : r.chosenValue? c = r.nonEmptyValue? c := if_neg (group_ne_scalar hgroup)
    have hplaced := hnest.occupied_insertObject hgroup
    cases hv : r.nonEmptyValue? c with
    | none =>
      rw [among_cons_of_none (hchosen.trans hv)]
      -- The object of a group that the record has is made also for a column without a value. It
      -- occupies nothing.
      by_cases hhas : r.hasGroup c.group = true
      · simp only [hhas, if_true]
        exact hplaced
      · simp only [hhas]
        exact hnest
    | some v =>
      have hhas : r.hasGroup c.group = true := hasGroup_of_value (Option.filter_eq_some_iff.mp hv).1
      rw [among_cons_of_some (hchosen.trans hv)]
      simp only [hhas, if_true]
      exact hplaced.occupied_insertColumn c v

/-- Columns that are chosen one after the other. -/
theorem nests_foldl_addNested (hnest : row.occupied.Nests (pathValues (among done r.chosenValue?)))
    (columns : List Column) :
    (columns.foldl r.addNested row).occupied.Nests
      (pathValues (among (columns.reverse ++ done) r.chosenValue?)) := by
  induction columns generalizing row done with
  | nil => exact hnest
  | cons c columns ih =>
    rw [List.foldl_cons, List.reverse_cons, List.append_assoc]
    exact ih (nests_addNested hnest c)

theorem nests_nestedSelection (r : Record) (columns : List Column) :
    (r.nestedSelection columns).Nests (pathValues (among columns r.chosenValue?)) := by
  have hempty : Row.empty.occupied.Nests (pathValues (among [] r.chosenValue?)) := by
    rw [among_nil, pathValues_none]
    exact Row.nests_empty
  have hnest := nests_foldl_addNested hempty columns
  rw [List.append_nil, among_reverse] at hnest
  exact hnest

/-! ## Both rows -/

theorem filter_chosenValue? (r : Record) (c : Column) :
    (r.chosenValue? c).filter (fun v => !v.isEmpty) = r.nonEmptyValue? c := by
  rw [chosenValue?, nonEmptyValue?]
  split
  · rfl
  · rw [Option.filter_filter]
    simp only [Bool.and_self]

private theorem isEmptyText_json (v : FieldValue) : v.json.isEmptyText = v.isEmpty := by
  cases v <;> rfl

theorem filter_among_chosenValue? (r : Record) (columns : List Column) (c : Column) :
    (among columns r.chosenValue? c).filter (fun value => !value.isEmptyText)
      = among columns r.nonEmptyValue? c := by
  rw [among, among]
  split
  · rw [Option.filter_map, ← filter_chosenValue?]
    congr 2
    funext v
    rw [Function.comp_apply, isEmptyText_json]
  · rfl

/-- Inside objects no chosen value is the empty text. -/
private theorem isEmptyText_of_deep {key : String} {path : List String} {value : Json}
    {columns : List Column} (hpath : path ≠ [])
    (h : pathValues (among columns r.chosenValue?) (key :: path) = some value) :
    value.isEmptyText = false := by
  obtain ⟨c, hc, hvalue⟩ := pathValues_eq_some_iff.mp h
  obtain ⟨-, v, hv, rfl⟩ := among_eq_some_iff.mp hvalue
  have hgroup : c.group ≠ .scalar := by
    intro hscalar
    rw [segments, hscalar] at hc
    exact hpath (List.cons.inj hc).2.symm
  rw [chosenValue?, if_neg hgroup] at hv
  simpa [isEmptyText_json] using (Option.filter_eq_some_iff.mp hv).2

theorem nests_filter_nestedSelection (r : Record) (columns : List Column) :
    ((r.nestedSelection columns).filter fun value => !value.isEmptyText).Nests
      (pathValues (among columns r.nonEmptyValue?)) := by
  have hdeep (key : String) (path : List String) (value : Json) (hpath : path ≠ [])
      (hvalue : pathValues (among columns r.chosenValue?) (key :: path) = some value) :
      (!value.isEmptyText) = true := by
    rw [isEmptyText_of_deep hpath hvalue, Bool.not_false]
  have hfilter := (r.nests_nestedSelection columns).filter (fun _ => rfl) hdeep
  rw [filter_pathValues, funext (r.filter_among_chosenValue? columns)] at hfilter
  exact hfilter

theorem nests_nest_flatSelection (r : Record) (columns : List Column) :
    (r.flatSelection columns).nest.Nests (pathValues (among columns r.nonEmptyValue?)) :=
  Row.nests_nest_ofColumns columns r.nonEmptyValue?

/-- **Flat and nested rows of chosen columns carry the same data.** The flat row, nested again, is the
nested row without the top-level values that are the empty text, up to the order of fields. -/
theorem same_nest_flat_chosen (r : Record) (columns : List Column) :
    (r.project (some columns) .flat).nest.Same
      ((r.project (some columns) .nested).filter fun value => !value.isEmptyText) :=
  (r.nests_nest_flatSelection columns).same (r.nests_filter_nestedSelection columns)

end Record

end Roster
