import Roster.Proofs.Json.Leaves
import Roster.Proofs.Row.Chosen
import Roster.Proofs.Text.FirstSeen

/-!
# What a nested row of chosen columns holds

- **Leaves** (`Record.mem_leaves_nestedSelection`): the values that a nested row shows of columns
  (`Record.Shows`) are its leaves, and names lead to something in it just if they are on the way to one
  of them (`Record.isSome_at?_nestedSelection_iff`).
- **Places** (`Record.keys_foldl_addNested`): a column that is named takes a place among the outermost
  names if the record has the value, or the object around it (`Record.places`). Places of objects that
  stay empty are given up again (`Record.keys_nestedSelection`).
- **Both** (`Record.nestedRow_chosen`): exactly the values that were asked for, in the order in which
  they were asked for.
-/

namespace Roster

open Text

/-- The outermost name on the way to a column. -/
def Column.outerName (c : Column) : String :=
  c.group.segments.headD c.leaf

theorem Column.exists_segments_eq_outerName (c : Column) :
    ∃ path, c.segments = c.outerName :: path := by
  cases c <;> exact ⟨_, rfl⟩

/-- Columns under one name are one column, or they lie in the same outermost object. -/
theorem Column.eq_or_of_outerName_eq {c d : Column} (h : c.outerName = d.outerName) :
    c = d ∨ (c.group.segments ≠ [] ∧ c.group.segments.head? = d.group.segments.head?) := by
  have hall : ∀ c ∈ all, ∀ d ∈ all, c.outerName = d.outerName →
      c = d ∨ (c.group.segments ≠ [] ∧ c.group.segments.head? = d.group.segments.head?) := by
    decide
  exact hall c (mem_all c) d (mem_all d) h

/-- The names with one more at the end, unless it is among them. -/
def addName (names : List String) (name : String) : List String :=
  if name ∈ names then names else names ++ [name]

private theorem addName_of_mem {names : List String} {name : String} (h : name ∈ names) :
    addName names name = names :=
  if_pos h

private theorem mem_addName (names : List String) (name : String) : name ∈ addName names name := by
  rw [addName]
  split
  · assumption
  · exact List.mem_append_right _ List.mem_cons_self

private theorem foldl_addName (names : List String) : names.foldl addName [] = names.eraseDups := by
  have hadd : addName = fun seen name => if seen.contains name then seen else seen ++ [name] := by
    funext seen name
    rw [addName]
    simp only [List.contains_iff_mem]
  rw [hadd, foldl_concat_new]

namespace Row

variable {row : Row} {key name : String}

theorem keys_insert_eq_addName (value : Json) : (row.insert key value).keys = addName row.keys key :=
  keys_insert key value row

theorem keys_insertObject : (row.insertObject key).keys = addName row.keys key :=
  keys_insert_eq_addName _

/-- A place that an object has taken is there for what is put into the object. -/
theorem keys_insertAt_insertObject (path : List String) (value : Json) :
    ((row.insertObject key).insertAt (key :: path) value).keys = addName row.keys key := by
  rw [insertAt_cons, keys_insert_eq_addName, keys_insertObject, addName_of_mem (mem_addName _ _)]

/-- A name is one of a row's if it leads to something. -/
theorem mem_keys_iff_isSome_at? : name ∈ row.keys ↔ (row.at? [name]).isSome = true := by
  have hat : row.at? [name] = Fields.get? name row.fields := by
    change (Fields.get? name row.fields).bind some = _
    exact Option.bind_fun_some _
  rw [hat, Fields.isSome_get?_iff, keys]

end Row

namespace Record

open Column

variable {r : Record} {c d : Column} {row : Row} {columns : List Column}

/-- A nested row shows a value of a column that was chosen: any value at the top, and inside objects
one that is not the empty text. -/
structure Shows (r : Record) (columns : List Column) (c : Column) (v : FieldValue) : Prop where
  chosen : c ∈ columns
  value : r.value? c = some v
  shown : c.group = .scalar ∨ v.isEmpty = false

/-! ## Leaves -/

theorem shows_iff_chosenValue? {v : FieldValue} :
    r.Shows columns c v ↔ c ∈ columns ∧ r.chosenValue? c = some v := by
  have hchosen : r.chosenValue? c = some v ↔
      r.value? c = some v ∧ (c.group = .scalar ∨ v.isEmpty = false) := by
    rw [chosenValue?]
    split
    · rename_i hgroup
      simp [hgroup]
    · rename_i hgroup
      simp [nonEmptyValue?, Option.filter_eq_some_iff, hgroup]
  rw [hchosen]
  exact ⟨fun h => ⟨h.chosen, h.value, h.shown⟩, fun h => ⟨h.1, h.2.1, h.2.2⟩⟩

theorem pathValues_among_chosenValue?_eq_some_iff {names : List String} {value : Json} :
    pathValues (among columns r.chosenValue?) names = some value ↔
      ∃ c v, r.Shows columns c v ∧ c.segments = names ∧ v.json = value := by
  simp only [pathValues_eq_some_iff, among_eq_some_iff, shows_iff_chosenValue?]
  constructor
  · rintro ⟨c, hnames, hc, v, hv, hvalue⟩
    exact ⟨c, v, ⟨hc, hv⟩, hnames, hvalue⟩
  · rintro ⟨c, v, ⟨hc, hv⟩, hnames, hvalue⟩
    exact ⟨c, hnames, hc, v, hv, hvalue⟩

theorem areLeaves_among (columns : List Column) (value? : Column → Option FieldValue) :
    (pathValues (among columns value?)).AreLeaves := by
  intro names value hvalue
  obtain ⟨c, -, hc⟩ := pathValues_eq_some_iff.mp hvalue
  obtain ⟨-, v, -, rfl⟩ := among_eq_some_iff.mp hc
  cases v <;> rfl

theorem mem_leaves_nestedSelection {names : List String} {value : Json} :
    (names, value) ∈ (r.nestedSelection columns).leaves ↔
      ∃ c v, r.Shows columns c v ∧ c.segments = names ∧ v.json = value := by
  rw [(r.nests_nestedSelection columns).mem_leaves_iff rfl (areLeaves_among columns r.chosenValue?),
    pathValues_among_chosenValue?_eq_some_iff]

theorem isSome_at?_nestedSelection_iff {key : String} {path : List String} :
    ((r.nestedSelection columns).at? (key :: path)).isSome = true ↔
      ∃ c v, r.Shows columns c v ∧ key :: path <+: c.segments := by
  rw [(r.nests_nestedSelection columns).isSome_at?_iff (areLeaves_among columns r.chosenValue?)]
  simp only [pathValues_among_chosenValue?_eq_some_iff]
  constructor
  · rintro ⟨rest, -, c, v, hshows, hsegments, -⟩
    exact ⟨c, v, hshows, rest, hsegments.symm⟩
  · rintro ⟨c, v, hshows, rest, hsegments⟩
    exact ⟨rest, v.json, c, v, hshows, hsegments.symm, rfl⟩

/-- An outermost name is there if something is shown under it. -/
theorem mem_keys_nestedSelection_iff {name : String} :
    name ∈ (r.nestedSelection columns).keys ↔
      ∃ c v, r.Shows columns c v ∧ c.outerName = name := by
  rw [Row.mem_keys_iff_isSome_at?, isSome_at?_nestedSelection_iff]
  refine exists_congr fun c => exists_congr fun v => and_congr_right' ?_
  obtain ⟨path, hsegments⟩ := c.exists_segments_eq_outerName
  rw [hsegments, List.cons_prefix_cons, eq_comm]
  exact and_iff_left List.nil_prefix

/-! ## Places -/

/-- Whether a record has what it takes for a column to have a place among the outermost names: the value
itself, or the object around it. -/
def places (r : Record) (c : Column) : Bool :=
  match c.group.segments with
  | [] => (r.value? c).isSome
  | _ :: _ => r.hasGroup c.group

theorem places_of_value {v : FieldValue} (h : r.value? c = some v) : r.places c = true := by
  rw [places]
  split
  · rw [h]
    rfl
  · exact hasGroup_of_value h

/-- Groups inside the same outermost object are there together. -/
private theorem hasGroup_congr {group other : ColumnGroup}
    (h : group.segments.head? = other.segments.head?) : r.hasGroup group = r.hasGroup other := by
  revert h
  cases group <;> cases other <;> simp [ColumnGroup.segments, hasGroup]

/-- Where a value stands under a name every column under the name has a place. -/
theorem places_of_outerName_eq {v : FieldValue} (h : c.outerName = d.outerName)
    (hvalue : r.value? d = some v) : r.places c = true := by
  rcases eq_or_of_outerName_eq h with rfl | ⟨hgroup, hhead⟩
  · exact places_of_value hvalue
  · rw [places]
    split
    · contradiction
    · rw [hasGroup_congr hhead]
      exact hasGroup_of_value hvalue

theorem keys_addNested (r : Record) (row : Row) (c : Column) :
    (r.addNested row c).keys = if r.places c then addName row.keys c.outerName else row.keys := by
  rw [addNested, places, outerName, segments]
  cases c.group.segments with
  | nil =>
    cases r.value? c with
    | none => rfl
    | some v => exact Row.keys_insert_eq_addName _
  | cons object rest =>
    cases r.hasGroup c.group with
    | false => rfl
    | true =>
      cases r.nonEmptyValue? c with
      | none => exact Row.keys_insertObject
      | some v => exact Row.keys_insertAt_insertObject _ _

theorem keys_foldl_addNested (r : Record) (row : Row) (columns : List Column) :
    (columns.foldl r.addNested row).keys
      = ((columns.filter r.places).map outerName).foldl addName row.keys := by
  induction columns generalizing row with
  | nil => rfl
  | cons c columns ih =>
    rw [List.foldl_cons, ih, keys_addNested]
    by_cases hplaces : r.places c = true
    · rw [if_pos hplaces, List.filter_cons_of_pos hplaces, List.map_cons, List.foldl_cons]
    · rw [if_neg hplaces, List.filter_cons_of_neg hplaces]

/-- A column under a name that is there has a place, so places make no difference to these names. -/
private theorem filter_map_filter_places (r : Record) (columns : List Column) :
    ((columns.filter r.places).map outerName).filter
        (fun name => name ∈ (r.nestedSelection columns).keys)
      = (columns.map outerName).filter fun name => name ∈ (r.nestedSelection columns).keys := by
  rw [List.filter_map, List.filter_map, List.filter_filter]
  congr 1
  refine List.filter_congr fun c _ => Bool.and_eq_left_iff_imp.mpr fun hname => ?_
  obtain ⟨d, v, hshows, hd⟩ := mem_keys_nestedSelection_iff.mp (of_decide_eq_true hname)
  exact places_of_outerName_eq hd.symm hshows.value

/-- The outermost names stand in the order in which they were first mentioned. -/
theorem keys_nestedSelection (r : Record) (columns : List Column) :
    (r.nestedSelection columns).keys
      = (columns.map outerName).eraseDups.filter
          fun name => name ∈ (r.nestedSelection columns).keys := by
  have hplaced : (columns.foldl r.addNested .empty).keys
      = ((columns.filter r.places).map outerName).eraseDups :=
    (keys_foldl_addNested r .empty columns).trans (foldl_addName _)
  have hkept : (r.nestedSelection columns).keys
      = (columns.foldl r.addNested .empty).keys.filter
          fun name => name ∈ (r.nestedSelection columns).keys :=
    Row.keys_filter _ _
  rw [← eraseDups_filter, ← filter_map_filter_places, eraseDups_filter, ← hplaced]
  exact hkept

/-! ## Both -/

/-- **What a nested row of chosen columns holds.** It has a leaf at the path of each column that it shows,
and no other leaf, name or empty object at any depth. Its outermost names stand in the order in which
columns under them were first chosen, whether there was something to show of these columns or not. -/
theorem nestedRow_chosen (r : Record) (columns : List Column) :
    let row := r.project (some columns) .nested
    (∀ names value, (names, value) ∈ row.leaves ↔
      ∃ c v, r.Shows columns c v ∧ (c.path.toList.splitOn '.').map String.ofList = names ∧
        v.json = value) ∧
    (row.leaves.map Prod.fst).Nodup ∧
    (∀ key path, (row.at? (key :: path)).isSome = true ↔
      ∃ c v, r.Shows columns c v ∧
        key :: path <+: (c.path.toList.splitOn '.').map String.ofList) ∧
    (∀ key path, row.at? (key :: path) ≠ some (.object [])) ∧
    row.keys.Sublist (columns.map outerName).eraseDups := by
  have hnests : (r.nestedSelection columns).Nests (pathValues (among columns r.chosenValue?)) :=
    r.nests_nestedSelection columns
  have hleaves : (pathValues (among columns r.chosenValue?)).AreLeaves := areLeaves_among _ _
  simp only [project, splitOn_path]
  refine ⟨fun _ _ => mem_leaves_nestedSelection, hnests.nodup_leaves hleaves,
    fun _ _ => isSome_at?_nestedSelection_iff, hnests.at?_ne_empty hleaves, ?_⟩
  rw [keys_nestedSelection]
  exact List.filter_sublist

/-- The address is mentioned first, though the latitude that does so has no value. -/
example :
    ((({ id := 7, name := "Elwyn", address := some { city := "Reno" } } : Record).project
      (some [.lat, .name, .companyBs, .city, .name]) .nested).leaves).map Prod.fst
      = [["address", "city"], ["name"]] := by decide

end Record

end Roster
