import Mathlib.Data.List.Nodup
import Roster.Json.Leaves
import Roster.Proofs.Json.Nesting

/-!
# The leaves of what nests

A value that nests given values, none of them an object, has each of them as a leaf at the end of its
path and no other leaf (`Json.Nests.mem_leaves_iff`), no path twice (`Json.Nests.nodup_leaves`), and no
object without fields anywhere (`Json.Nests.at?_ne_empty`). Names lead to something in it just if they lead
on to a value (`Json.Nests.isSome_at?_iff`). The same holds of a row.
-/

namespace Roster

/-- Whether no object is among the values. -/
def PathValues.AreLeaves (values : PathValues) : Prop :=
  ∀ path value, values path = some value → value.fields? = none

theorem PathValues.AreLeaves.below {values : PathValues} (h : values.AreLeaves) (key : String) :
    (values.below key).AreLeaves := fun path => h (key :: path)

namespace Json

variable {values : PathValues} {slot : Option Json} {value : Json}

theorem leaves_of_fields? (h : value.fields? = none) : value.leaves = [([], value)] := by
  cases value with
  | object fields => cases h
  | _ => rfl

theorem leaves_object {fields : List (String × Json)} (h : fields ≠ []) :
    (object fields).leaves = fieldLeaves fields := by
  obtain ⟨field, rest, rfl⟩ := List.exists_cons_of_ne_nil h
  rfl

theorem fieldLeaves_eq_flatMap (fields : List (String × Json)) :
    fieldLeaves fields
      = fields.flatMap fun field => field.2.leaves.map fun leaf => (field.1 :: leaf.1, leaf.2) := by
  induction fields with
  | nil => rfl
  | cons field fields ih => rw [fieldLeaves, ih, List.flatMap_cons]

theorem mem_fieldLeaves_iff {fields : List (String × Json)} (hnodup : (Fields.keys fields).Nodup)
    {names : List String} {leaf : Json} :
    (names, leaf) ∈ fieldLeaves fields ↔
      ∃ key path value, names = key :: path ∧ Fields.get? key fields = some value ∧
        (path, leaf) ∈ value.leaves := by
  simp only [fieldLeaves_eq_flatMap, List.mem_flatMap, List.mem_map, Prod.exists, Prod.mk.injEq,
    Fields.get?_eq_some_iff hnodup]
  constructor
  · rintro ⟨key, value, hfield, path, _, hleaf, rfl, rfl⟩
    exact ⟨key, path, value, rfl, hfield, hleaf⟩
  · rintro ⟨key, path, value, rfl, hfield, hleaf⟩
    exact ⟨key, value, hfield, path, leaf, hleaf, rfl, rfl⟩

/-- No path leads twice to a leaf if no name stands twice and none does so further in. -/
theorem nodup_fieldLeaves {fields : List (String × Json)} (hnodup : (Fields.keys fields).Nodup)
    (h : ∀ field ∈ fields, (field.2.leaves.map Prod.fst).Nodup) :
    ((fieldLeaves fields).map Prod.fst).Nodup := by
  induction fields with
  | nil => exact .nil
  | cons field fields ih =>
    obtain ⟨hfield, hfields⟩ := List.forall_mem_cons.mp h
    obtain ⟨hnew, hnodup⟩ := List.nodup_cons.mp hnodup
    have hnames : (field.2.leaves.map fun leaf => (field.1 :: leaf.1, leaf.2)).map Prod.fst
        = (field.2.leaves.map Prod.fst).map (field.1 :: ·) := by
      rw [List.map_map, List.map_map]
      rfl
    rw [fieldLeaves, List.map_append, hnames, List.nodup_append]
    refine ⟨hfield.map (List.cons_injective), ih hnodup hfields, ?_⟩
    -- A path of both would start with the name of the first field, which no other one has.
    rintro names hfirst other hother rfl
    obtain ⟨path, -, rfl⟩ := List.mem_map.mp hfirst
    obtain ⟨leaf, hleaf, heq⟩ := List.mem_map.mp hother
    obtain ⟨key, _, value, hsplit, hget, -⟩ := (mem_fieldLeaves_iff hnodup).mp hleaf
    obtain ⟨rfl, -⟩ := List.cons.inj (heq.symm.trans hsplit)
    exact hnew (Fields.isSome_get?_iff.mp (hget ▸ rfl))

/-! ## Fields that nest -/

/-- Fields that nest have the leaves that stand at the ends of paths, if their values have. -/
theorem mem_fieldLeaves_iff_of_nests {fields : List (String × Json)} (hroot : values [] = none)
    (hnodup : (Fields.keys fields).Nodup)
    (hfields : ∀ key, Nests (values.below key) (Fields.get? key fields)) {leaf : Json}
    (hleaves : ∀ key value path, Fields.get? key fields = some value →
      ((path, leaf) ∈ value.leaves ↔ values.below key path = some leaf)) (names : List String) :
    (names, leaf) ∈ fieldLeaves fields ↔ values names = some leaf := by
  rw [mem_fieldLeaves_iff hnodup]
  cases names with
  | nil =>
    rw [hroot]
    exact iff_of_false (by simp) (by simp)
  | cons key path =>
    constructor
    · rintro ⟨_, _, value, heq, hget, hleaf⟩
      obtain ⟨rfl, rfl⟩ := List.cons.inj heq
      exact (hleaves key value path hget).mp hleaf
    · intro hvalue
      cases hget : Fields.get? key fields with
      | none =>
        have hnone := hfields key
        rw [hget] at hnone
        have habsent : values (key :: path) = none := hnone.values_eq_none path
        rw [habsent] at hvalue
        cases hvalue
      | some value => exact ⟨key, path, value, rfl, hget, (hleaves key value path hget).mpr hvalue⟩

/-! ## Values that nest -/

theorem Nests.mem_leaves_iff (h : Nests values slot) (hleaves : values.AreLeaves)
    (hslot : slot = some value) (names : List String) (leaf : Json) :
    (names, leaf) ∈ value.leaves ↔ values names = some leaf := by
  induction h generalizing value names with
  | absent => cases hslot
  | leaf hvalue hbelow =>
    cases hslot
    rw [leaves_of_fields? (hleaves [] _ hvalue), List.mem_singleton, Prod.mk.injEq]
    by_cases hnames : names = []
    · rw [hnames, hvalue, Option.some.injEq, eq_comm (a := leaf)]
      exact and_iff_right rfl
    · rw [hbelow names hnames]
      exact iff_of_false (fun heq => hnames heq.1) (by simp)
  | object hroot hne hnodup hfields ih =>
    cases hslot
    rw [leaves_object hne]
    exact mem_fieldLeaves_iff_of_nests hroot hnodup hfields
      (fun key value path hget => ih key (hleaves.below key) hget path) names

theorem Nests.nodup_leaves (h : Nests values slot) (hleaves : values.AreLeaves)
    (hslot : slot = some value) : (value.leaves.map Prod.fst).Nodup := by
  induction h generalizing value with
  | absent => cases hslot
  | leaf hvalue =>
    cases hslot
    rw [leaves_of_fields? (hleaves [] _ hvalue)]
    exact List.pairwise_singleton _ _
  | object hroot hne hnodup hfields ih =>
    cases hslot
    rw [leaves_object hne]
    refine nodup_fieldLeaves hnodup fun field hfield => ?_
    exact ih field.1 (hleaves.below field.1) ((Fields.get?_eq_some_iff hnodup).mpr hfield)

theorem Nests.at?_ne_empty (h : Nests values slot) (hleaves : values.AreLeaves) (path : List String) :
    slot.bind (at? path) ≠ some (.object []) := by
  induction h generalizing path with
  | absent => simp
  | @leaf _ value hvalue =>
    have hnone := hleaves [] value hvalue
    cases path with
    | nil =>
      rintro heq
      rw [Option.some.inj heq] at hnone
      cases hnone
    | cons key path => simp [at?, hnone]
  | @object _ fields hroot hne hnodup hfields ih =>
    cases path with
    | nil =>
      rintro heq
      cases heq
      exact hne rfl
    | cons key path => exact ih key (hleaves.below key) path

theorem Nests.isSome_at?_iff (h : Nests values slot) (hleaves : values.AreLeaves)
    (path : List String) :
    (slot.bind (at? path)).isSome = true ↔ ∃ rest value, values (path ++ rest) = some value := by
  induction h generalizing path with
  | absent hnone => simp [hnone]
  | @leaf _ value hvalue hbelow =>
    cases path with
    | nil => exact iff_of_true rfl ⟨[], value, hvalue⟩
    | cons key path =>
      refine iff_of_false (by simp [at?, hleaves [] value hvalue]) ?_
      rintro ⟨rest, other, hother⟩
      rw [List.cons_append, hbelow _ (List.cons_ne_nil _ _)] at hother
      cases hother
  | @object _ fields hroot hne hnodup hfields ih =>
    cases path with
    | nil =>
      obtain ⟨path, hpath⟩ := (Nests.object hroot hne hnodup hfields).exists_value (by simp)
      exact iff_of_true rfl ⟨path, Option.ne_none_iff_exists'.mp hpath⟩
    | cons key path => exact ih key (hleaves.below key) path

end Json

/-! ## Rows -/

namespace Row

variable {values : PathValues} {row : Row}

theorem Nests.mem_leaves_iff (h : row.Nests values) (hroot : values [] = none)
    (hleaves : values.AreLeaves) (names : List String) (leaf : Json) :
    (names, leaf) ∈ row.leaves ↔ values names = some leaf :=
  Json.mem_fieldLeaves_iff_of_nests hroot row.nodup h
    (fun key _ path hget => (h key).mem_leaves_iff (hleaves.below key) hget path leaf) names

theorem Nests.nodup_leaves (h : row.Nests values) (hleaves : values.AreLeaves) :
    (row.leaves.map Prod.fst).Nodup := by
  refine Json.nodup_fieldLeaves row.nodup fun field hfield => ?_
  exact (h field.1).nodup_leaves (hleaves.below field.1)
    ((Fields.get?_eq_some_iff row.nodup).mpr hfield)

theorem Nests.at?_ne_empty (h : row.Nests values) (hleaves : values.AreLeaves) (key : String)
    (path : List String) : row.at? (key :: path) ≠ some (.object []) :=
  (h key).at?_ne_empty (hleaves.below key) path

theorem Nests.isSome_at?_iff (h : row.Nests values) (hleaves : values.AreLeaves) (key : String)
    (path : List String) :
    (row.at? (key :: path)).isSome = true ↔
      ∃ rest value, values (key :: path ++ rest) = some value :=
  (h key).isSome_at?_iff (hleaves.below key) path

end Row

end Roster
