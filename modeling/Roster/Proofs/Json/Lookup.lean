import Roster.Json.Row

/-!
# What stands under a name

Laws of `Fields.get?` for the ways in which fields come about.

- **Fields with different names**: the value of a name is the one that stands with it
  (`get?_eq_some_iff`), so another order does not change it (`get?_perm`), a test of the values
  leaves it or takes it away (`get?_filter`), and what is made of the values is made of it
  (`get?_filterMap`).
- **Rows**: where a name is given more than once, the last value is the one of the row
  (`get?_ofFields`). Fields with different names are the fields of their row
  (`fields_ofFields_of_nodup`).
-/

namespace Roster

namespace Fields

variable {α : Type} {key : String} {value : α} {fields : List (String × α)}

theorem get?_eq_none_iff : get? key fields = none ↔ key ∉ keys fields := by
  induction fields with
  | nil => simp [get?]
  | cons field fields ih =>
    by_cases h : field.1 = key
    · simp [get?, h]
    · simp [get?, h, ih, Ne.symm h]

theorem isSome_get?_iff : (get? key fields).isSome = true ↔ key ∈ keys fields := by
  rw [Option.isSome_iff_ne_none, ne_eq, get?_eq_none_iff, Decidable.not_not]

theorem mem_of_get? (h : get? key fields = some value) : (key, value) ∈ fields := by
  induction fields with
  | nil => cases h
  | cons field fields ih =>
    obtain ⟨k, v⟩ := field
    by_cases hk : k = key
    · simp only [get?, hk, if_true, Option.some.injEq] at h
      subst hk h
      exact List.mem_cons_self
    · simp only [get?, hk, if_false] at h
      exact List.mem_cons_of_mem _ (ih h)

/-- Among different names each one has a single value. -/
theorem get?_eq_some_iff (hnodup : (keys fields).Nodup) :
    get? key fields = some value ↔ (key, value) ∈ fields := by
  refine ⟨mem_of_get?, fun hmem => ?_⟩
  induction fields with
  | nil => cases hmem
  | cons field fields ih =>
    obtain ⟨hnew, hnodup⟩ := List.nodup_cons.mp hnodup
    rcases List.mem_cons.mp hmem with rfl | hmem
    · simp [get?]
    · have hkey : key ∈ keys fields := List.mem_map_of_mem hmem
      have hne : field.1 ≠ key := fun heq => hnew (heq ▸ hkey)
      rw [get?, if_neg hne]
      exact ih hnodup hmem

theorem lookup_eq_get? (key : String) (fields : List (String × α)) :
    fields.lookup key = get? key fields := by
  induction fields with
  | nil => rfl
  | cons field fields ih =>
    by_cases h : field.1 = key
    · rw [get?, if_pos h, ← h, List.lookup_cons_self]
    · rw [get?, if_neg h, List.lookup_cons, beq_eq_false_iff_ne.mpr (Ne.symm h), ih]

theorem insert_ne_nil (key : String) (value : α) (fields : List (String × α)) :
    insert key value fields ≠ [] := by
  intro hnil
  have hget := get?_insert key key value fields
  rw [hnil, if_pos rfl] at hget
  cases hget

/-- Entries with the same keys are the same if there is the same under every key. -/
theorem eq_of_keys {entries others : List (String × α)}
    (hkeys : keys entries = keys others)
    (h : ∀ key s t, (key, s) ∈ entries → (key, t) ∈ others → s = t) : entries = others := by
  induction entries generalizing others with
  | nil => exact (List.map_eq_nil_iff.mp hkeys.symm).symm
  | cons entry entries ih =>
    cases others with
    | nil => cases hkeys
    | cons other others =>
      obtain ⟨hkey, hkeys⟩ := List.cons.inj hkeys
      have hvalue : entry.2 = other.2 :=
        h entry.1 entry.2 other.2 List.mem_cons_self (hkey ▸ List.mem_cons_self)
      rw [Prod.ext hkey hvalue, ih hkeys fun key s t hs ht =>
        h key s t (List.mem_cons_of_mem _ hs) (List.mem_cons_of_mem _ ht)]

/-- A new name goes to the end. -/
theorem insert_of_notMem (hnew : key ∉ keys fields) (value : α) :
    insert key value fields = fields ++ [(key, value)] := by
  induction fields with
  | nil => rfl
  | cons field fields ih =>
    obtain ⟨hne, hnew⟩ := not_or.mp (mt List.mem_cons.mpr hnew)
    rw [insert, if_neg (Ne.symm hne), ih hnew, List.cons_append]

theorem get?_append (key : String) (before after : List (String × α)) :
    get? key (before ++ after) = (get? key before).or (get? key after) := by
  induction before with
  | nil => rfl
  | cons field before ih =>
    by_cases h : field.1 = key
    · simp [get?, h]
    · simp [get?, h, ih]

theorem get?_perm {other : List (String × α)} (hnodup : (keys fields).Nodup)
    (hperm : fields.Perm other) : get? key fields = get? key other := by
  have hother : (keys other).Nodup := (hperm.map Prod.fst).nodup_iff.mp hnodup
  refine Option.ext fun value => ?_
  rw [get?_eq_some_iff hnodup, get?_eq_some_iff hother]
  exact hperm.mem_iff

/-- Among different names the last one is new. -/
theorem nodup_keys_concat {last : String × α} (hnodup : (keys (fields ++ [last])).Nodup) :
    (keys fields).Nodup ∧ last.1 ∉ keys fields := by
  rw [keys, List.map_append] at hnodup
  obtain ⟨hbefore, -, hdisjoint⟩ := List.nodup_append.mp hnodup
  exact ⟨hbefore, fun hmem => hdisjoint _ hmem _ List.mem_cons_self rfl⟩

theorem nodup_keys_filter (hnodup : (keys fields).Nodup) (test : String × α → Bool) :
    (keys (fields.filter test)).Nodup :=
  hnodup.sublist (List.filter_sublist.map Prod.fst)

theorem get?_filter (hnodup : (keys fields).Nodup) (test : α → Bool) :
    get? key (fields.filter fun field => test field.2) = (get? key fields).filter test := by
  refine Option.ext fun value => ?_
  rw [get?_eq_some_iff (nodup_keys_filter hnodup _), List.mem_filter, Option.filter_eq_some_iff,
    get?_eq_some_iff hnodup]

/-- The names that are left are those with a value that the test accepts. -/
theorem keys_filter (hnodup : (keys fields).Nodup) (test : α → Bool) :
    keys (fields.filter fun field => test field.2)
      = (keys fields).filter fun key => (get? key fields).any test := by
  rw [keys, keys, List.filter_map]
  congr 1
  refine List.filter_congr fun field hfield => ?_
  rw [Function.comp_apply, (get?_eq_some_iff hnodup).mpr hfield, Option.any_some]

/-- The fields with what is made of their values, without those of which nothing is made. -/
def filterMap {β : Type} (f : α → Option β) (fields : List (String × α)) : List (String × β) :=
  fields.filterMap fun field => (f field.2).map fun made => (field.1, made)

section FilterMap

variable {β : Type} {f : α → Option β} {field : String × α}

theorem filterMap_cons_none (h : f field.2 = none) (fields : List (String × α)) :
    filterMap f (field :: fields) = filterMap f fields :=
  List.filterMap_cons_none (by rw [h]; rfl)

theorem filterMap_cons_some {made : β} (h : f field.2 = some made) (fields : List (String × α)) :
    filterMap f (field :: fields) = (field.1, made) :: filterMap f fields :=
  List.filterMap_cons_some (by rw [h]; rfl)

theorem keys_filterMap_sublist (f : α → Option β) (fields : List (String × α)) :
    (keys (filterMap f fields)).Sublist (keys fields) := by
  induction fields with
  | nil => exact .slnil
  | cons field fields ih =>
    cases hmade : f field.2 with
    | none =>
      rw [filterMap_cons_none hmade]
      exact ih.cons field.1
    | some made =>
      rw [filterMap_cons_some hmade]
      exact ih.cons_cons field.1

theorem get?_filterMap (hnodup : (keys fields).Nodup) (f : α → Option β) (key : String) :
    get? key (filterMap f fields) = (get? key fields).bind f := by
  have hmade : (keys (filterMap f fields)).Nodup := hnodup.sublist (keys_filterMap_sublist f fields)
  refine Option.ext fun made => ?_
  rw [get?_eq_some_iff hmade, filterMap, List.mem_filterMap, Option.bind_eq_some_iff]
  simp only [get?_eq_some_iff hnodup, Option.map_eq_some_iff, Prod.mk.injEq]
  constructor
  · rintro ⟨⟨_, value⟩, hvalue, _, hmade, rfl, rfl⟩
    exact ⟨value, hvalue, hmade⟩
  · rintro ⟨value, hvalue, hmade⟩
    exact ⟨(key, value), hvalue, made, hmade, rfl, rfl⟩

end FilterMap

end Fields

namespace Row

variable {key : String}

@[simp] theorem get?_empty (key : String) : empty.get? key = none := rfl

theorem get?_filter (test : Json → Bool) (row : Row) :
    (row.filter test).get? key = (row.get? key).filter test :=
  Fields.get?_filter row.nodup test

theorem keys_filter (test : Json → Bool) (row : Row) :
    (row.filter test).keys = row.keys.filter fun key => key ∈ (row.filter test).keys := by
  have hkeys : (row.filter test).keys = row.keys.filter fun key => (row.get? key).any test :=
    Fields.keys_filter row.nodup test
  rw [hkeys]
  refine List.filter_congr fun key hkey => ?_
  simp [hkey]

theorem get?_foldl_insert (row : Row) (fields : List (String × Json)) :
    (fields.foldl (fun row field => row.insert field.1 field.2) row).get? key
      = (Fields.get? key fields.reverse).or (row.get? key) := by
  induction fields generalizing row with
  | nil => rfl
  | cons field fields ih =>
    rw [List.foldl_cons, ih, List.reverse_cons, Fields.get?_append, Option.or_assoc, get?_insert]
    by_cases h : field.1 = key
    · simp [Fields.get?, h]
    · simp [Fields.get?, h]

theorem get?_ofFields (fields : List (String × Json)) :
    (ofFields fields).get? key = Fields.get? key fields.reverse := by
  rw [ofFields, get?_foldl_insert, get?_empty, Option.or_none]

theorem get?_ofFields_of_nodup {fields : List (String × Json)}
    (hnodup : (Fields.keys fields).Nodup) :
    (ofFields fields).get? key = Fields.get? key fields := by
  rw [get?_ofFields]
  exact (Fields.get?_perm hnodup (List.reverse_perm fields).symm).symm

/-- Fields with new names are put after those of a row. -/
theorem fields_foldl_insert (row : Row) (fields : List (String × Json))
    (hnodup : (Fields.keys (row.fields ++ fields)).Nodup) :
    (fields.foldl (fun row field => row.insert field.1 field.2) row).fields
      = row.fields ++ fields := by
  induction fields generalizing row with
  | nil => simp
  | cons field fields ih =>
    have hnew : field.1 ∉ Fields.keys row.fields := by
      intro hmem
      simp only [Fields.keys, List.map_append, List.map_cons, List.nodup_append] at hnodup
      exact hnodup.2.2 field.1 hmem field.1 List.mem_cons_self rfl
    have hinsert : (row.insert field.1 field.2).fields = row.fields ++ [field] :=
      Fields.insert_of_notMem hnew field.2
    rw [List.foldl_cons, ih, hinsert, List.append_assoc, List.singleton_append]
    rwa [hinsert, List.append_assoc, List.singleton_append]

theorem fields_ofFields_of_nodup {fields : List (String × Json)}
    (hnodup : (Fields.keys fields).Nodup) : (ofFields fields).fields = fields :=
  fields_foldl_insert empty fields hnodup

end Row

end Roster
