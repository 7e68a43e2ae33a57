import Roster.Proofs.Json.Leaves

/-!
# One more value inside objects

What becomes of fields that nest values when a path that fits is given one more value.

- **Looking up** (`Json.Nests.at?_eq`): a path that fits leads to its value, or to nothing. Whatever leads to
  something is on the way to a value or inside one (`Json.Nests.prefix_of_at?`).
- **Going in** (`Fields.insertAt?_eq`): every name on the way has an object or nothing, so nothing that is no
  object is ever in the way (`Fields.insertAt?`).
- **Leaves** (`Json.Nests.leaves_graft`): the leaves of the value come to those that were there, none of which
  is lost.
-/

namespace Roster

open Json

variable {values : PathValues} {slot : Option Json} {path : List String} {key : String} {value : Json}
  {fields : List (String × Json)}

/-! ## Looking up -/

theorem Json.Nests.at?_eq (h : Nests values slot) (hfits : values.Fits path) :
    slot.bind (at? path) = values path := by
  induction path generalizing values slot with
  | nil =>
    cases hroot : values [] with
    | none =>
      have hnone (path : List String) : values path = none := by
        by_cases hpath : path = []
        · rw [hpath, hroot]
        · exact hfits.eq_none_of_ne hpath
      rw [h.eq_none hnone, Option.bind_none]
    | some value =>
      rw [h.eq_of_root hroot]
      rfl
  | cons key path ih =>
    obtain ⟨-, -, hfields⟩ := h.of_root_eq_none hfits.root_eq_none
    have hstep : slot.bind (at? (key :: path)) = (Fields.get? key (fieldsOf slot)).bind (at? path) := by
      cases slot with
      | none => rfl
      | some value => cases value <;> rfl
    rw [hstep]
    exact ih (hfields key) hfits.below

/-- What leads to something leads on to a value, or there is a value on the way. -/
theorem Json.Nests.prefix_of_at? (h : Nests values slot) (hsome : (slot.bind (at? path)).isSome = true) :
    ∃ names, values names ≠ none ∧ (path <+: names ∨ names <+: path) := by
  induction h generalizing path with
  | absent => cases hsome
  | leaf hvalue => exact ⟨[], by rw [hvalue]; exact Option.some_ne_none _, .inr List.nil_prefix⟩
  | @object values fields hroot hne hnodup hfields ih =>
    cases path with
    | nil =>
      obtain ⟨names, hnames⟩ := (Nests.object hroot hne hnodup hfields).exists_value (by simp)
      exact ⟨names, hnames, .inl List.nil_prefix⟩
    | cons key path =>
      obtain ⟨names, hnames, hprefix⟩ := ih key hsome
      refine ⟨key :: names, hnames, ?_⟩
      rwa [List.cons_prefix_cons, List.cons_prefix_cons, and_iff_right rfl, and_iff_right rfl]

/-! ## Going in -/

namespace Fields

/-- The fields of the object that a name has as its value, which is a new one if it has none; nothing if it has
another value. -/
def objectAt? (key : String) (fields : List (String × Json)) : Option (List (String × Json)) :=
  match get? key fields with
  | some value => value.fields?
  | none => some []

/-- Gives a value to the name at the end of a path, if all names on the way have objects or nothing. -/
def insertAt? : List String → Json → List (String × Json) → Option (List (String × Json))
  | [], _, fields => some fields
  | [key], value, fields => some (insert key value fields)
  | key :: path, value, fields =>
    (objectAt? key fields).bind fun inner =>
      (insertAt? path value inner).map fun inner => insert key (.object inner) fields

theorem insertAt?_eq (hfields : ∀ other, Nests (values.below other) (get? other fields))
    (hfits : values.Fits (key :: path)) (value : Json) :
    insertAt? (key :: path) value fields = some (insertAt (key :: path) value fields) := by
  induction path generalizing values key fields with
  | nil => rfl
  | cons next path ih =>
    obtain ⟨hslot, -, hinner⟩ := (hfields key).of_root_eq_none hfits.below.root_eq_none
    -- Only a leaf on the way could stop the insertion, and a path that fits has none on its way.
    have hobject : objectAt? key fields = some (subfields key fields) := by
      rw [objectAt?, subfields]
      rcases hslot with hnone | ⟨inner, hsome⟩
      · rw [hnone]
        rfl
      · rw [hsome]
        rfl
    have hrest : insertAt? (next :: path) value (subfields key fields)
        = some (insertAt (next :: path) value (subfields key fields)) := ih hinner hfits.below
    have hstep : insertAt? (key :: next :: path) value fields = (objectAt? key fields).bind fun inner =>
        (insertAt? (next :: path) value inner).map fun inner => insert key (.object inner) fields := rfl
    rw [hstep, hobject, Option.bind_some, hrest]
    rfl

end Fields

/-! ## Leaves -/

namespace Json

/-- Leaves that are found further down a path. -/
def under (path : List String) (leaves : List (List String × Json)) : List (List String × Json) :=
  leaves.map fun leaf => (path ++ leaf.1, leaf.2)

theorem under_nil (leaves : List (List String × Json)) : under [] leaves = leaves :=
  List.map_id _

theorem under_under (path rest : List String) (leaves : List (List String × Json)) :
    under path (under rest leaves) = under (path ++ rest) leaves := by
  simp [under, Function.comp_def]

theorem under_append (path : List String) (leaves others : List (List String × Json)) :
    under path (leaves ++ others) = under path leaves ++ under path others :=
  List.map_append

theorem fieldLeaves_cons (key : String) (value : Json) (fields : List (String × Json)) :
    fieldLeaves ((key, value) :: fields) = under [key] value.leaves ++ fieldLeaves fields := rfl

/-- The leaves of a value, or of none. -/
def leavesOf (slot : Option Json) : List (List String × Json) :=
  (slot.map leaves).getD []

/-- If the value of a name has more leaves than before, the fields have these more leaves. -/
theorem fieldLeaves_insert {more : List (List String × Json)}
    (h : value.leaves.Perm (leavesOf (Fields.get? key fields) ++ more)) :
    (fieldLeaves (Fields.insert key value fields)).Perm (fieldLeaves fields ++ under [key] more) := by
  induction fields with
  | nil =>
    have hvalue : value.leaves.Perm more := h
    rw [Fields.insert, fieldLeaves_cons, fieldLeaves, List.append_nil, List.nil_append]
    exact hvalue.map _
  | cons field fields ih =>
    obtain ⟨other, old⟩ := field
    -- The new leaves stand with the field that is changed, not at the end, hence the permutation.
    by_cases hkey : other = key
    · subst hkey
      rw [Fields.get?, if_pos rfl] at h
      rw [Fields.insert, if_pos rfl, fieldLeaves_cons, fieldLeaves_cons]
      have hvalue : (under [other] value.leaves).Perm (under [other] old.leaves ++ under [other] more) := by
        rw [← under_append]
        exact h.map _
      refine (hvalue.append_right _).trans ?_
      rw [List.append_assoc, List.append_assoc]
      exact List.perm_append_comm.append_left _
    · rw [Fields.get?, if_neg hkey] at h
      rw [Fields.insert, if_neg hkey, fieldLeaves_cons, fieldLeaves_cons, List.append_assoc]
      exact (ih h).append_left _

/-- An object that stands on the way to a value has the leaves of its fields. -/
theorem Nests.leavesOf_eq (h : Nests values slot) (hroot : values [] = none) :
    leavesOf slot = fieldLeaves (fieldsOf slot) := by
  cases h with
  | absent => rfl
  | leaf hvalue =>
    rw [hroot] at hvalue
    cases hvalue
  | object _ hne => exact leaves_object hne

theorem Nests.leaves_graft (h : Nests values slot) (hfits : values.Fits path) (hnew : values path = none)
    (value : Json) : (Json.graft path value slot).leaves.Perm (leavesOf slot ++ under path value.leaves) := by
  induction path generalizing values slot with
  | nil =>
    have hnone : slot = none := by
      have hat := h.at?_eq hfits
      rw [hnew] at hat
      cases slot with
      | none => rfl
      | some old => cases hat
    rw [hnone, under_nil]
    exact .refl _
  | cons key path ih =>
    have hroot : values [] = none := hfits.root_eq_none
    obtain ⟨-, -, hfields⟩ := h.of_root_eq_none hroot
    rw [Json.graft, leaves_object (Fields.insert_ne_nil _ _ _), h.leavesOf_eq hroot]
    have hgrafted := fieldLeaves_insert (ih (hfields key) hfits.below hnew)
    rwa [under_under] at hgrafted

end Json

/-! ## Rows -/

namespace Row

variable {row : Row}

theorem Nests.at?_eq (h : row.Nests values) (hfits : values.Fits (key :: path)) :
    row.at? (key :: path) = values (key :: path) :=
  (h key).at?_eq hfits.below

theorem Nests.prefix_of_at? (h : row.Nests values) (hsome : (row.at? (key :: path)).isSome = true) :
    ∃ names, values names ≠ none ∧ (key :: path <+: names ∨ names <+: key :: path) := by
  obtain ⟨names, hnames, hprefix⟩ := (h key).prefix_of_at? hsome
  refine ⟨key :: names, hnames, ?_⟩
  rwa [List.cons_prefix_cons, List.cons_prefix_cons, and_iff_right rfl, and_iff_right rfl]

theorem fields_insertAt (path : List String) (value : Json) (row : Row) :
    (row.insertAt path value).fields = Fields.insertAt path value row.fields := by
  match path with
  | [] | [_] | _ :: _ :: _ => rfl

theorem Nests.leaves_insertAt (h : row.Nests values) (hfits : values.Fits (key :: path))
    (hnew : values (key :: path) = none) (value : Json) :
    (row.insertAt (key :: path) value).leaves.Perm (row.leaves ++ under (key :: path) value.leaves) := by
  have hleaves := fieldLeaves_insert ((h key).leaves_graft hfits.below hnew value)
  rw [under_under] at hleaves
  rw [insertAt_cons]
  exact hleaves

end Row

end Roster
