import Mathlib.Algebra.BigOperators.Group.List.Lemmas
import Mathlib.Algebra.Ring.Nat
import Roster.Proofs.Json.Lookup
import Roster.Proofs.Text.ByteOrder
import Roster.Statistics.Ascending

/-!
# Ascending lists

- **Texts** (`isAscending_ofTexts`): the texts of a list, once each, in the strict order of their
  bytes.
- **Entries**: the keys of entries are texts that were inserted (`keys_updateEntry`), and an update
  is seen under its key and nowhere else (`get?_updateEntry`).
- **Groups** (`groups`): entries that are made of items one after the other. There is a group for
  every key that an item has (`keys_groups`), made of the items with that key (`get?_groups`), and
  whatever is collected in a group is what these items give (`reading_of_mem_groups`). What is
  counted in all groups together is the number of items that have a key (`sum_groups`).
-/

namespace Roster.Ascending

/-! ## The order -/

/-- Whether the encoding of a text comes strictly before that of another. -/
def Before (s t : String) : Prop :=
  Text.utf8Bytes s.toList < Text.utf8Bytes t.toList

/-- Texts in strict order. -/
def IsAscending (texts : List String) : Prop :=
  texts.Pairwise Before

variable {s t u : String} {texts : List String}

theorem before_iff : Before s t ↔ precedes t s = false := by
  rw [Before, ← List.not_le, ← Text.precedes_iff_utf8Bytes_le, Bool.not_eq_true]
  rfl

theorem Before.trans (h : Before s t) (h' : Before t u) : Before s u :=
  List.lt_trans h h'

theorem Before.ne (h : Before s t) : s ≠ t := by
  rintro rfl
  exact List.lt_irrefl _ h

/-- Of two texts the first comes before the second if it is another one and precedes it. -/
theorem before_of_ne (hne : s ≠ t) (h : precedes s t = true) : Before s t := by
  rw [before_iff, Bool.eq_false_iff]
  exact fun h' => hne (String.toList_inj.mp (Text.precedes_antisymm h h'))

private theorem before_of_not_precedes (h : ¬ precedes s t = true) : Before t s :=
  before_iff.mpr (Bool.eq_false_iff.mpr h)

theorem isAscending_nil : IsAscending [] :=
  .nil

theorem IsAscending.nodup (h : IsAscending texts) : texts.Nodup :=
  h.imp Before.ne

/-- Ascending lists are determined by what is in them. -/
theorem IsAscending.ext {others : List String} (h : IsAscending texts) (h' : IsAscending others)
    (hmem : ∀ s, s ∈ texts ↔ s ∈ others) : texts = others := by
  refine List.Perm.eq_of_pairwise (fun s t _ _ hst hts => ?_) h h'
    ((List.perm_ext_iff_of_nodup h.nodup h'.nodup).mpr hmem)
  exact absurd (hst.trans hts) (List.lt_irrefl _)

/-! ## Texts -/

theorem IsAscending.insertText (h : IsAscending texts) (s : String) :
    IsAscending (insertText s texts) := by
  induction texts with
  | nil => exact List.pairwise_singleton Before s
  | cons t texts ih =>
    obtain ⟨hhead, htail⟩ := List.pairwise_cons.mp h
    rw [Ascending.insertText]
    split
    · exact h
    · rename_i hne
      split
      · rename_i hle
        have hst : Before s t := before_of_ne hne hle
        refine List.pairwise_cons.mpr ⟨fun u hu => ?_, h⟩
        rcases List.mem_cons.mp hu with rfl | hu
        · exact hst
        · exact hst.trans (hhead u hu)
      · rename_i hle
        refine List.pairwise_cons.mpr ⟨fun u hu => ?_, ih htail⟩
        rcases mem_insertText.mp hu with rfl | hu
        · exact before_of_not_precedes hle
        · exact hhead u hu

theorem IsAscending.foldl_insertText {sorted : List String} (h : IsAscending sorted)
    (texts : List String) :
    IsAscending (texts.foldl (fun sorted s => Ascending.insertText s sorted) sorted) := by
  induction texts generalizing sorted with
  | nil => exact h
  | cons s texts ih => exact ih (h.insertText s)

theorem isAscending_ofTexts (texts : List String) : IsAscending (ofTexts texts) :=
  isAscending_nil.foldl_insertText texts

theorem nodup_ofTexts (texts : List String) : (ofTexts texts).Nodup :=
  (isAscending_ofTexts texts).nodup

/-- The ascending list does not tell in which order the texts stood. -/
theorem ofTexts_eq_of_perm {others : List String} (h : texts.Perm others) :
    ofTexts texts = ofTexts others :=
  (isAscending_ofTexts texts).ext (isAscending_ofTexts others) fun _ =>
    mem_ofTexts.trans (h.mem_iff.trans mem_ofTexts.symm)

/-- The different texts of a list, each counted as often as it stands there, are all of the list. -/
theorem sum_count_ofTexts (texts : List String) :
    ((ofTexts texts).map fun s => texts.count s).sum = texts.length := by
  have hperm : (ofTexts texts).Perm texts.dedup := by
    rw [List.perm_ext_iff_of_nodup (nodup_ofTexts texts) (List.nodup_dedup texts)]
    exact fun s => mem_ofTexts.trans List.mem_dedup.symm
  rw [(hperm.map _).sum_eq, List.sum_map_count_dedup_eq_length]

/-! ## Entries -/

section Entries

variable {σ : Type} {entries : List (String × σ)}

/-- An update leaves the keys as they are, or puts a new one in its place. -/
theorem keys_updateEntry (key : String) (change : Option σ → σ) (entries : List (String × σ)) :
    Fields.keys (updateEntry key change entries) = insertText key (Fields.keys entries) := by
  induction entries with
  | nil => rfl
  | cons entry entries ih =>
    rw [updateEntry, Fields.keys_cons, insertText]
    split
    · rfl
    · split
      · rfl
      · rw [Fields.keys_cons, ih]

/-- An update is seen under its key and under no other. -/
theorem get?_updateEntry (h : IsAscending (Fields.keys entries)) (key other : String)
    (change : Option σ → σ) :
    Fields.get? other (updateEntry key change entries)
      = if key = other then some (change (Fields.get? key entries))
        else Fields.get? other entries := by
  induction entries with
  | nil => rfl
  | cons entry entries ih =>
    obtain ⟨k, a⟩ := entry
    obtain ⟨hhead, htail⟩ := List.pairwise_cons.mp h
    rw [updateEntry]
    split
    · rename_i hkey
      subst hkey
      by_cases hother : key = other <;> simp [Fields.get?, hother]
    · rename_i hkey
      split
      · rename_i hle
        -- The key is before all others, so it has no entry yet.
        have hnone : Fields.get? key ((k, a) :: entries) = none := by
          rw [Fields.get?_eq_none_iff, Fields.keys_cons, List.mem_cons]
          rintro (hk | hk)
          · exact hkey hk
          · exact ((before_of_ne hkey hle).trans (hhead key hk)).ne rfl
        rw [hnone, Fields.get?]
      · rw [Fields.get?, Fields.get?, Fields.get?, if_neg (Ne.symm hkey), ih htail]
        by_cases hother : key = other
        · subst hother
          rw [if_neg (Ne.symm hkey), if_pos rfl, if_pos rfl]
        · rw [if_neg hother, if_neg hother]

end Entries

/-! ## Groups -/

section Groups

variable {α σ : Type} {key? : α → Option String} {add : α → Option σ → σ}

/-- The groups with one more item, which goes to the group of its key. -/
def addToGroups (key? : α → Option String) (add : α → Option σ → σ) (groups : List (String × σ))
    (a : α) : List (String × σ) :=
  match key? a with
  | some key => updateEntry key (add a) groups
  | none => groups

/-- The groups of items by their keys. -/
def groups (key? : α → Option String) (add : α → Option σ → σ) (items : List α) :
    List (String × σ) :=
  items.foldl (addToGroups key? add) []

private theorem addToGroups_of_some {a : α} {key : String} (h : key? a = some key)
    (entries : List (String × σ)) :
    addToGroups key? add entries a = updateEntry key (add a) entries := by
  rw [addToGroups, h]

private theorem addToGroups_of_none {a : α} (h : key? a = none) (entries : List (String × σ)) :
    addToGroups key? add entries a = entries := by
  rw [addToGroups, h]

theorem keys_foldl_addToGroups (items : List α) (entries : List (String × σ)) :
    Fields.keys (items.foldl (addToGroups key? add) entries)
      = (items.filterMap key?).foldl (fun sorted s => insertText s sorted)
          (Fields.keys entries) := by
  induction items generalizing entries with
  | nil => rfl
  | cons a items ih =>
    rw [List.foldl_cons, ih]
    cases hkey : key? a with
    | none => rw [addToGroups_of_none hkey, List.filterMap_cons_none hkey]
    | some key =>
      rw [addToGroups_of_some hkey, keys_updateEntry, List.filterMap_cons_some hkey,
        List.foldl_cons]

/-- There is a group for every key that an item has. -/
theorem keys_groups (items : List α) :
    Fields.keys (groups key? add items) = ofTexts (items.filterMap key?) :=
  keys_foldl_addToGroups items []

theorem get?_foldl_addToGroups {entries : List (String × σ)}
    (h : IsAscending (Fields.keys entries)) (items : List α) (key : String) :
    Fields.get? key (items.foldl (addToGroups key? add) entries)
      = (items.filter fun a => key? a == some key).foldl (fun s a => some (add a s))
          (Fields.get? key entries) := by
  induction items generalizing entries with
  | nil => rfl
  | cons a items ih =>
    rw [List.foldl_cons]
    cases hkey : key? a with
    | none =>
      rw [addToGroups_of_none hkey, ih h, List.filter_cons, if_neg (by simp [hkey])]
    | some other =>
      have hkeys : IsAscending (Fields.keys (updateEntry other (add a) entries)) := by
        rw [keys_updateEntry]
        exact h.insertText other
      rw [addToGroups_of_some hkey, ih hkeys, get?_updateEntry h]
      -- The update counts for its own group and leaves the others as they are.
      by_cases hother : other = key
      · subst hother
        rw [if_pos rfl, List.filter_cons, if_pos (by simp [hkey]), List.foldl_cons]
      · rw [if_neg hother, List.filter_cons, if_neg (by simpa [hkey] using hother)]

/-- A group is made of the items with its key. -/
theorem get?_groups (items : List α) (key : String) :
    Fields.get? key (groups key? add items)
      = (items.filter fun a => key? a == some key).foldl (fun s a => some (add a s)) none := by
  have hnil : IsAscending (Fields.keys ([] : List (String × σ))) := isAscending_nil
  exact get?_foldl_addToGroups hnil items key

theorem nodup_keys_groups (items : List α) : (Fields.keys (groups key? add items)).Nodup := by
  rw [keys_groups]
  exact nodup_ofTexts _

/-- What can be read of a group is what the items with its key give, if every item gives it by a
step on what could be read before. -/
theorem reading_of_mem_groups {β : Type} {read : σ → β} {step : β → α → β} {init : β}
    (hstep : ∀ a s, read (add a s) = step ((s.map read).getD init) a) {items : List α}
    {key : String} {group : σ} (h : (key, group) ∈ groups key? add items) :
    read group = (items.filter fun a => key? a == some key).foldl step init := by
  -- From the first member on there is a state, and `hstep` reads each step.
  have hfold : ∀ (members : List α) (s : Option σ),
      ((members.foldl (fun s a => some (add a s)) s).map read).getD init
        = members.foldl step ((s.map read).getD init) := by
    intro members
    induction members with
    | nil => exact fun _ => rfl
    | cons a members ih =>
      intro s
      rw [List.foldl_cons, List.foldl_cons, ih, Option.map_some, Option.getD_some, hstep]
  have hget := (Fields.get?_eq_some_iff (nodup_keys_groups items)).mpr h
  rw [get?_groups] at hget
  simpa [hget] using hfold (items.filter fun a => key? a == some key) none

/-- What every item adds one to is in each group the number of items with its key. -/
theorem count_of_mem_groups {size : σ → Nat}
    (hstep : ∀ a s, size (add a s) = (s.map size).getD 0 + 1) {items : List α} {key : String}
    {group : σ} (h : (key, group) ∈ groups key? add items) :
    size group = (items.filterMap key?).count key := by
  have hread : size group
      = (items.filter fun a => key? a == some key).foldl (fun n _ => n + 1) 0 :=
    reading_of_mem_groups hstep h
  rw [hread, List.foldl_add_const, List.count_filterMap, List.countP_eq_length_filter]
  simp

/-- What every item adds one to is in all groups together the number of items that have a key. -/
theorem sum_groups {size : σ → Nat} (hstep : ∀ a s, size (add a s) = (s.map size).getD 0 + 1)
    (items : List α) :
    ((groups key? add items).map fun group => size group.2).sum
      = items.countP fun a => (key? a).isSome := by
  have hcount : ((groups key? add items).map fun group => size group.2)
      = (Fields.keys (groups key? add items)).map fun key => (items.filterMap key?).count key := by
    rw [Fields.keys, List.map_map]
    exact List.map_congr_left fun _ hgroup => count_of_mem_groups hstep hgroup
  rw [hcount, keys_groups, sum_count_ofTexts, List.length_filterMap_eq_countP]

end Groups

end Roster.Ascending
