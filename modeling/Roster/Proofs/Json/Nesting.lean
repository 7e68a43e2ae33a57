import Mathlib.Logic.Function.Basic
import Roster.Proofs.Json.Same

/-!
# Values at paths

A `PathValues` says which values stand at the ends of which paths through objects. A value nests it
(`Json.Nests`) if it has these values there and nothing else: no other field, no name twice in one
object and no object without fields on the way.

- **One value for all paths** (`Json.Nests.same`, `Row.Nests.same`): values that nest the same paths
  are the same up to the order of fields, however they came about.
- **One more path** (`Json.Nests.graft`, `Row.Nests.insertAt`): a value that is given to a path is
  nested with the others, as long as no value stands on the way to it or beyond it
  (`PathValues.Fits`).
-/

namespace Roster

/-- The values at the ends of paths through objects. -/
abbrev PathValues := List String → Option Json

namespace PathValues

/-- The values whose paths go on from a name. -/
def below (values : PathValues) (key : String) : PathValues :=
  fun path => values (key :: path)

/-- The values with one more, or another one, at a path. -/
def set (values : PathValues) (path : List String) (value : Json) : PathValues :=
  Function.update values path (some value)

/-- Whether a path leads neither through a value nor to a place above one. -/
def Fits (values : PathValues) (path : List String) : Prop :=
  ∀ other, values other ≠ none → other <+: path ∨ path <+: other → other = path

variable {values : PathValues} {path : List String} {value : Json}

theorem set_self : values.set path value path = some value :=
  Function.update_self ..

theorem set_of_ne {other : List String} (h : other ≠ path) :
    values.set path value other = values other :=
  Function.update_of_ne h ..

theorem below_set_self (key : String) :
    (values.set (key :: path) value).below key = (values.below key).set path value := by
  funext rest
  by_cases h : rest = path
  · subst h
    rw [below, set_self, set_self]
  · have hne : key :: rest ≠ key :: path := fun heq => h (List.cons.inj heq).2
    rw [below, set_of_ne hne, set_of_ne h, below]

theorem below_set_of_ne {key other : String} (h : other ≠ key) :
    (values.set (key :: path) value).below other = values.below other := by
  funext rest
  have hne : other :: rest ≠ key :: path := fun heq => h (List.cons.inj heq).1
  rw [below, set_of_ne hne, below]

theorem Fits.below {key : String} (h : values.Fits (key :: path)) :
    (values.below key).Fits path := by
  intro other hother hprefix
  have heq : key :: other = key :: path := by
    refine h (key :: other) hother ?_
    rwa [List.cons_prefix_cons, List.cons_prefix_cons, and_iff_right rfl, and_iff_right rfl]
  exact (List.cons.inj heq).2

/-- A path that fits does not start at a value. -/
theorem Fits.root_eq_none {key : String} (h : values.Fits (key :: path)) : values [] = none := by
  by_contra hroot
  cases h [] hroot (.inl List.nil_prefix)

/-- Below a path that ends at once nothing else can stand. -/
theorem Fits.eq_none_of_ne {other : List String} (h : values.Fits []) (hne : other ≠ []) :
    values other = none := by
  by_contra hother
  exact hne (h other hother (.inr List.nil_prefix))

end PathValues

/-! ## Values that nest -/

namespace Json

/-- Whether a value, or its absence, has given values at the ends of their paths and nothing else. -/
inductive Nests : PathValues → Option Json → Prop
  | absent {values : PathValues} (h : ∀ path, values path = none) : Nests values none
  | leaf {values : PathValues} {value : Json} (h : values [] = some value)
      (hbelow : ∀ path, path ≠ [] → values path = none) : Nests values (some value)
  | object {values : PathValues} {fields : List (String × Json)} (hroot : values [] = none)
      (hne : fields ≠ []) (hnodup : (Fields.keys fields).Nodup)
      (hfields : ∀ key, Nests (values.below key) (Fields.get? key fields)) :
      Nests values (some (.object fields))

/-- The fields of a value, if it is an object. -/
def fieldsOf (slot : Option Json) : List (String × Json) :=
  (slot.bind fields?).getD []

variable {values : PathValues} {slot other : Option Json}

/-- What is there has a value at the end of some path. -/
theorem Nests.exists_value (h : Nests values slot) (hslot : slot ≠ none) :
    ∃ path, values path ≠ none := by
  induction h with
  | absent => exact absurd rfl hslot
  | leaf h => exact ⟨[], by rw [h]; exact Option.some_ne_none _⟩
  | @object values fields _ hne _ _ ih =>
    obtain ⟨field, rest, rfl⟩ := List.exists_cons_of_ne_nil hne
    have hget : Fields.get? field.1 (field :: rest) ≠ none := by simp [Fields.get?]
    obtain ⟨path, hpath⟩ := ih field.1 hget
    exact ⟨field.1 :: path, hpath⟩

theorem Nests.eq_none (h : Nests values slot) (hnone : ∀ path, values path = none) :
    slot = none := by
  by_contra hslot
  obtain ⟨path, hpath⟩ := h.exists_value hslot
  exact hpath (hnone path)

theorem Nests.values_eq_none (h : Nests values none) (path : List String) : values path = none := by
  cases h with
  | absent h => exact h path

theorem Nests.eq_of_root {value : Json} (h : Nests values slot) (hroot : values [] = some value) :
    slot = some value := by
  cases h with
  | absent h => rw [h] at hroot; cases hroot
  | leaf h => rw [← h, hroot]
  | object hnone => rw [hnone] at hroot; cases hroot

/-- Where no value stands there is an object or nothing, and it nests what is below. -/
theorem Nests.of_root_eq_none (h : Nests values slot) (hroot : values [] = none) :
    (slot = none ∨ ∃ fields, slot = some (.object fields)) ∧ (Fields.keys (fieldsOf slot)).Nodup ∧
      ∀ key, Nests (values.below key) (Fields.get? key (fieldsOf slot)) := by
  cases h with
  | absent h => exact ⟨.inl rfl, List.nodup_nil, fun key => .absent fun path => h (key :: path)⟩
  | leaf h => rw [hroot] at h; cases h
  | @object _ fields _ _ hnodup hfields => exact ⟨.inr ⟨fields, rfl⟩, hnodup, hfields⟩

/-- The values at the ends of paths leave nothing open but the order of fields. -/
theorem Nests.same (h : Nests values slot) (hother : Nests values other) :
    Option.Rel Same slot other := by
  induction h generalizing other with
  | absent h => rw [hother.eq_none h]; exact .none
  | leaf h => rw [hother.eq_of_root h]; exact .some (.refl _)
  | @object values fields hroot hne hnodup hfields ih =>
    cases hother with
    | absent h =>
      have hobject : Nests values (some (.object fields)) := .object hroot hne hnodup hfields
      cases hobject.eq_none h
    | leaf h => rw [hroot] at h; cases h
    | object _ _ hnodup' hfields' =>
      exact .some (.of_get? hnodup hnodup' fun key => ih key (hfields' key))

/-- A test that accepts every object leaves out a value that it refuses. -/
theorem Nests.filter {test : Json → Bool} (h : Nests values slot)
    (hobject : ∀ fields, test (.object fields) = true)
    (hdeep : ∀ path value, path ≠ [] → values path = some value → test value = true) :
    Nests (fun path => (values path).filter test) (slot.filter test) := by
  cases h with
  | absent hnone => exact .absent fun path => by rw [hnone, Option.filter_none]
  | @leaf _ value hvalue hbelow =>
    have hbelow' (path : List String) (hpath : path ≠ []) : (values path).filter test = none := by
      rw [hbelow path hpath, Option.filter_none]
    by_cases htest : test value = true
    · rw [Option.filter_some, if_pos htest]
      exact .leaf (by rw [hvalue, Option.filter_some, if_pos htest]) hbelow'
    · rw [Option.filter_some, if_neg htest]
      refine .absent fun path => ?_
      by_cases hpath : path = []
      · rw [hpath, hvalue, Option.filter_some, if_neg htest]
      · exact hbelow' path hpath
  | @object _ fields hroot hne hnodup hfields =>
    -- All values of an object lie below it, where the test refuses none.
    have hsame : (fun path => (values path).filter test) = values := by
      funext path
      cases hvalue : values path with
      | none => rfl
      | some value =>
        have hpath : path ≠ [] := fun heq => by rw [heq, hroot] at hvalue; cases hvalue
        rw [Option.filter_some, if_pos (hdeep path value hpath hvalue)]
    rw [hsame, Option.filter_some, if_pos (hobject fields)]
    exact .object hroot hne hnodup hfields

/-! ## One more path -/

/-- What a value, or its absence, becomes when a path inside it is given a value. -/
def graft : List String → Json → Option Json → Json
  | [], value, _ => value
  | key :: path, value, slot =>
    .object (Fields.insert key (graft path value (Fields.get? key (fieldsOf slot))) (fieldsOf slot))

/-- One more field is nested if its value nests what stands below its name. -/
theorem nests_insert {path : List String} {key : String} {value new : Json}
    {fields : List (String × Json)}
    (hfields : ∀ other, Nests (values.below other) (Fields.get? other fields))
    (hnew : Nests ((values.below key).set path value) (some new)) (other : String) :
    Nests ((values.set (key :: path) value).below other)
      (Fields.get? other (Fields.insert key new fields)) := by
  rw [Fields.get?_insert]
  by_cases h : key = other
  · subst h
    rw [if_pos rfl, PathValues.below_set_self]
    exact hnew
  · rw [if_neg h, PathValues.below_set_of_ne (Ne.symm h)]
    exact hfields other

theorem Nests.graft {path : List String} (h : Nests values slot) (hfits : values.Fits path)
    (value : Json) : Nests (values.set path value) (some (graft path value slot)) := by
  induction path generalizing values slot with
  | nil =>
    refine .leaf PathValues.set_self fun other hother => ?_
    rw [PathValues.set_of_ne hother, hfits.eq_none_of_ne hother]
  | cons key path ih =>
    have hroot : values [] = none := hfits.root_eq_none
    obtain ⟨-, hnodup, hfields⟩ := h.of_root_eq_none hroot
    refine .object ?_ (Fields.insert_ne_nil _ _ _) (Fields.nodup_keys_insert hnodup _ _)
      (nests_insert hfields (ih (hfields key) hfits.below))
    rw [PathValues.set_of_ne (List.cons_ne_nil key path).symm, hroot]

theorem insertAt_cons (key : String) (path : List String) (value : Json)
    (fields : List (String × Json)) :
    Fields.insertAt (key :: path) value fields
      = Fields.insert key (Json.graft path value (Fields.get? key fields)) fields := by
  induction path generalizing key fields with
  | nil => rfl
  | cons next path ih =>
    have hstep : Fields.insertAt (key :: next :: path) value fields = Fields.insert key
        (.object (Fields.insertAt (next :: path) value (Fields.subfields key fields))) fields := rfl
    rw [hstep, ih]
    rfl

end Json

/-! ## Rows -/

namespace Row

/-- Whether a row has given values at the ends of their paths and nothing else. -/
def Nests (row : Row) (values : PathValues) : Prop :=
  ∀ key, Json.Nests (values.below key) (row.get? key)

variable {row other : Row} {values : PathValues}

theorem nests_empty : empty.Nests fun _ => none :=
  fun _ => .absent fun _ => rfl

theorem Nests.congr (h : row.Nests values) (hget : ∀ key, other.get? key = row.get? key) :
    other.Nests values := by
  intro key
  rw [hget]
  exact h key

theorem Nests.same (h : row.Nests values) (hother : other.Nests values) : row.Same other :=
  Same.of_get? fun key => (h key).same (hother key)

theorem insertAt_cons (key : String) (path : List String) (value : Json) (row : Row) :
    row.insertAt (key :: path) value = row.insert key (Json.graft path value (row.get? key)) := by
  cases path with
  | nil => rfl
  | cons next path =>
    have hstep : row.insertAt (key :: next :: path) value = row.insert key
        (.object (Fields.insertAt (next :: path) value (Fields.subfields key row.fields))) := rfl
    rw [hstep, Json.insertAt_cons]
    rfl

theorem Nests.insertAt {key : String} {path : List String} (h : row.Nests values)
    (hfits : values.Fits (key :: path)) (value : Json) :
    (row.insertAt (key :: path) value).Nests (values.set (key :: path) value) := by
  intro other
  rw [insertAt_cons]
  exact Json.nests_insert h ((h key).graft hfits.below value) other

/-- A test that accepts every object leaves out those values of the row itself that it refuses. -/
theorem Nests.filter {test : Json → Bool} (h : row.Nests values)
    (hobject : ∀ fields, test (.object fields) = true)
    (hdeep : ∀ key path value, path ≠ [] → values (key :: path) = some value → test value = true) :
    (row.filter test).Nests fun path => (values path).filter test := by
  intro key
  rw [get?_filter]
  exact (h key).filter hobject (hdeep key)

end Row

end Roster
