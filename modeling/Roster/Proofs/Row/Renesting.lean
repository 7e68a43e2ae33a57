import Mathlib.Data.List.Induction
import Roster.Proofs.Json.Insertion
import Roster.Proofs.Row.Nest

/-!
# Nesting keeps what columns have

The fields of a flat row are put into the nested row one after the other.

- **One field** (`Row.addFlatField?_eq`, `Row.leaves_addFlatField`): what stands on the way to its column is an
  object or nothing, whichever columns came before, and the leaves of its value come to those that are there.
- **All fields** (`Row.nest?_eq`, `Row.leaves_nest`): so nothing is ever in the way, and the leaves of the nested
  row are those of the values under flat keys.
- **Both ways** (`nest_keeps_columns`): a nested row has the values of the flat one and nothing else.
-/

namespace Roster

open Column Json

/-- The leaves that a field of a flat row has in the nested one. A name that is no flat key has none. -/
def Column.flatFieldLeaves (field : String × Json) : List (List String × Json) :=
  match ofFlatKey? field.1 with
  | some c => under c.segments field.2.leaves
  | none => []

namespace Row

variable {row : Row} {value? : Column → Option Json} {field : String × Json}
  {fields : List (String × Json)}

/-- The fields of a nested row with one more field of a flat row, if all names on the way to its column have
objects or nothing. -/
def addFlatField? (nested : List (String × Json)) (field : String × Json) :
    Option (List (String × Json)) :=
  match Column.ofFlatKey? field.1 with
  | some c => Fields.insertAt? c.segments field.2 nested
  | none => some nested

/-- The fields of the nested row of a flat one, if nothing but objects is ever found on the way to a column. -/
def nest? (row : Row) : Option (List (String × Json)) :=
  row.fields.foldlM addFlatField? []

/-! ## One field -/

theorem addFlatField?_eq (h : row.Nests (pathValues value?)) (field : String × Json) :
    addFlatField? row.fields field = some (row.addFlatField field).fields := by
  rw [addFlatField?, addFlatField]
  cases ofFlatKey? field.1 with
  | none => rfl
  | some c =>
    have hfits : (pathValues value?).Fits c.segments := c.fits_segments
    obtain ⟨key, path, hsegments⟩ := c.exists_segments_eq_cons
    dsimp only
    rw [hsegments] at hfits
    rw [fields_insertAt, hsegments]
    exact Fields.insertAt?_eq h hfits field.2

theorem leaves_addFlatField (h : row.Nests (pathValues value?))
    (hnew : ∀ c : Column, c.flatKey = field.1 → value? c = none) :
    (row.addFlatField field).leaves.Perm (row.leaves ++ flatFieldLeaves field) := by
  rw [addFlatField, flatFieldLeaves]
  cases hkey : ofFlatKey? field.1 with
  | none => exact .of_eq (List.append_nil _).symm
  | some c =>
    have hfits : (pathValues value?).Fits c.segments := c.fits_segments
    have hnone : pathValues value? c.segments = none := by
      rw [pathValues_segments]
      exact hnew c (ofFlatKey?_eq_some_iff.mp hkey).symm
    obtain ⟨key, path, hsegments⟩ := c.exists_segments_eq_cons
    dsimp only
    rw [hsegments] at hfits hnone ⊢
    exact h.leaves_insertAt hfits hnone field.2

/-! ## All fields -/

theorem foldlM_addFlatField? (hnodup : (Fields.keys fields).Nodup) :
    fields.foldlM addFlatField? [] = some (fields.foldl addFlatField .empty).fields := by
  induction fields using List.reverseRecOn with
  | nil => rfl
  | append_singleton fields last ih =>
    obtain ⟨hbefore, -⟩ := Fields.nodup_keys_concat hnodup
    rw [List.foldlM_append, ih hbefore, List.foldl_append]
    exact (Option.bind_fun_some _).trans (addFlatField?_eq (nests_foldl_addFlatField_empty hbefore) last)

/-- Adding a field leaves the leaves of the fields before it as they are. -/
theorem leaves_foldl_addFlatField (hnodup : (Fields.keys fields).Nodup) :
    (fields.foldl addFlatField .empty).leaves.Perm (fields.flatMap flatFieldLeaves) := by
  induction fields using List.reverseRecOn with
  | nil => exact .refl _
  | append_singleton fields last ih =>
    obtain ⟨hbefore, hlast⟩ := Fields.nodup_keys_concat hnodup
    have hnew (c : Column) (hc : c.flatKey = last.1) : Fields.get? c.flatKey fields = none := by
      rwa [hc, Fields.get?_eq_none_iff]
    have hleaves := leaves_addFlatField (nests_foldl_addFlatField_empty hbefore) hnew
    rw [List.foldl_append, List.flatMap_append, List.flatMap_singleton]
    exact hleaves.trans ((ih hbefore).append_right _)

theorem nest?_eq (row : Row) : row.nest? = some row.nest.fields :=
  foldlM_addFlatField? row.nodup

theorem leaves_nest (row : Row) : row.nest.leaves.Perm (row.fields.flatMap flatFieldLeaves) :=
  leaves_foldl_addFlatField row.nodup

end Row

/-! ## Both ways -/

/-- **Nesting a flat row loses nothing and adds nothing**, whatever its names and values are and in whichever
order they stand. Whatever is found on the way to a column is an object or nothing. At the path of a column
stands what the flat row has under its flat key, if anything. The leaves are those of these values, so names
that are no flat keys are gone and no object is left without fields, and every name that leads to something
is on the way to the value of a column or inside it. -/
theorem nest_keeps_columns (row : Row) :
    row.nest? = some row.nest.fields ∧
    (∀ c : Column, row.nest.at? ((c.path.toList.splitOn '.').map String.ofList) = row.get? c.flatKey) ∧
    row.nest.leaves.Perm (row.fields.flatMap flatFieldLeaves) ∧
    ∀ key path, (row.nest.at? (key :: path)).isSome = true →
      ∃ c : Column, (row.get? c.flatKey).isSome = true ∧
        (key :: path <+: c.segments ∨ c.segments <+: key :: path) := by
  have hnests := row.nests_nest
  refine ⟨row.nest?_eq, fun c => ?_, row.leaves_nest, fun key path hsome => ?_⟩
  · have hfits : (pathValues fun c => row.get? c.flatKey).Fits c.segments := c.fits_segments
    have hvalue : pathValues (fun c => row.get? c.flatKey) c.segments = row.get? c.flatKey :=
      pathValues_segments c
    rw [splitOn_path]
    obtain ⟨key, path, hsegments⟩ := c.exists_segments_eq_cons
    rw [hsegments] at hfits hvalue ⊢
    rw [hnests.at?_eq hfits, hvalue]
  · obtain ⟨names, hnames, hprefix⟩ := hnests.prefix_of_at? hsome
    obtain ⟨value, hvalue⟩ := Option.ne_none_iff_exists'.mp hnames
    obtain ⟨c, rfl, hc⟩ := pathValues_eq_some_iff.mp hvalue
    exact ⟨c, Option.isSome_of_eq_some hc, hprefix⟩

/-- An object without fields is a value like any other, a name that is no flat key is passed over, and the
company stands beside the address without touching it. -/
example :
    (((Row.empty.insert "lat" (.object [])).insert "rank" .null).insert "company_bs" .null).nest.leaves.map
      Prod.fst = [["address", "geo", "lat"], ["company", "bs"]] := by decide

end Roster
