import Mathlib.Logic.Relation
import Roster.Column.Selection
import Roster.Proofs.Column.Names
import Roster.Proofs.Text.FirstSeen

/-!
# What requested names choose

- **One more name** (`addRequest_of_new` and its fellows): it adds its column with this spelling, unless it
  names no column or one that is chosen already.
- **All names**: the columns that they name, in the order of first mention (`map_fst_selection`), each
  with the spelling of its first mention (`mem_selection_iff`, `pairwise_selection`). These spellings
  alone choose the same (`selection_map_snd`).
- **Noise** (`Restates`): names of no column, columns that are mentioned again and other spellings
  change nothing in the columns (`map_fst_selection_of_restates`).
-/

namespace Roster.Column

open Text

variable {names before after : List String} {name spelling : String} {c d : Column}
  {chosen : List (Column × String)}

/-- Whether a name is one of a column's two. -/
def hasName (c : Column) (name : String) : Bool :=
  ofName? name == some c

theorem hasName_iff : c.hasName name = true ↔ ofName? name = some c :=
  beq_iff_eq

/-! ## One more name -/

theorem addRequest_of_unknown (h : ofName? name = none) : addRequest chosen name = chosen := by
  rw [addRequest, h]

theorem addRequest_of_chosen (h : ofName? name = some c) (hc : c ∈ chosen.map Prod.fst) :
    addRequest chosen name = chosen := by
  have hany : (chosen.any fun pair => pair.1 == c) = true := by simpa using hc
  rw [addRequest, h]
  exact if_pos hany

theorem addRequest_of_new (h : ofName? name = some c) (hc : c ∉ chosen.map Prod.fst) :
    addRequest chosen name = chosen ++ [(c, name)] := by
  have hany : ¬(chosen.any fun pair => pair.1 == c) = true := by simpa using hc
  rw [addRequest, h]
  exact if_neg hany

theorem addRequest_cases (chosen : List (Column × String)) (name : String) :
    addRequest chosen name = chosen ∨
      ∃ c, ofName? name = some c ∧ c ∉ chosen.map Prod.fst ∧
        addRequest chosen name = chosen ++ [(c, name)] := by
  cases hname : ofName? name with
  | none => exact .inl (addRequest_of_unknown hname)
  | some c =>
    by_cases hc : c ∈ chosen.map Prod.fst
    · exact .inl (addRequest_of_chosen hname hc)
    · exact .inr ⟨c, rfl, hc, addRequest_of_new hname hc⟩

theorem selection_concat (names : List String) (name : String) :
    selection (names ++ [name]) = addRequest (selection names) name := by
  rw [selection, List.foldl_append]
  rfl

/-! ## All names -/

theorem map_fst_selection (names : List String) :
    (selection names).map Prod.fst = (names.filterMap ofName?).eraseDups := by
  induction names using List.reverseRecOn with
  | nil => rfl
  | append_singleton names name ih =>
    rw [selection_concat, List.filterMap_append]
    cases hname : ofName? name with
    | none => simp [addRequest_of_unknown hname, hname, ih]
    | some c =>
      have hlast : [name].filterMap ofName? = [c] := by simp [hname]
      have hchosen : c ∈ names.filterMap ofName? ↔ c ∈ (selection names).map Prod.fst := by
        rw [ih, List.mem_eraseDups]
      rw [hlast, eraseDups_concat, ← ih]
      by_cases hc : c ∈ (selection names).map Prod.fst
      · rw [addRequest_of_chosen hname hc, if_pos (hchosen.mpr hc)]
      · rw [addRequest_of_new hname hc, if_neg (mt hchosen.mp hc), List.map_append]
        rfl

theorem nodup_map_fst_selection (names : List String) : ((selection names).map Prod.fst).Nodup := by
  rw [map_fst_selection]
  exact nodup_eraseDups _

theorem mem_map_fst_selection_iff :
    c ∈ (selection names).map Prod.fst ↔ ∃ name ∈ names, ofName? name = some c := by
  rw [map_fst_selection, List.mem_eraseDups, List.mem_filterMap]

/-- A column is not chosen if none of the names is its. -/
theorem find?_hasName_eq_none_iff :
    names.find? c.hasName = none ↔ c ∉ (selection names).map Prod.fst := by
  simp [mem_map_fst_selection_iff, hasName_iff]

private theorem find?_of_mem_selection (h : (c, spelling) ∈ selection names) :
    names.find? c.hasName = some spelling := by
  induction names using List.reverseRecOn with
  | nil => cases h
  | append_singleton names name ih =>
    rw [selection_concat] at h
    rw [List.find?_append]
    rcases addRequest_cases (selection names) name with hkept | ⟨d, hname, hnew, hadded⟩
    · rw [ih (hkept ▸ h), Option.some_or]
    · rw [hadded, List.mem_append, List.mem_singleton] at h
      rcases h with h | h
      · rw [ih h, Option.some_or]
      · obtain ⟨rfl, rfl⟩ := Prod.mk.inj h
        rw [find?_hasName_eq_none_iff.mpr hnew, Option.none_or,
          List.find?_cons_of_pos (hasName_iff.mpr hname)]

/-- The chosen columns are those that are named, each with the spelling of its first mention. -/
theorem mem_selection_iff :
    (c, spelling) ∈ selection names ↔ names.find? c.hasName = some spelling := by
  refine ⟨find?_of_mem_selection, fun h => ?_⟩
  have hc : c ∈ (selection names).map Prod.fst := by
    by_contra hc
    rw [find?_hasName_eq_none_iff.mpr hc] at h
    cases h
  obtain ⟨⟨d, first⟩, hpair, rfl⟩ := List.mem_map.mp hc
  rw [find?_of_mem_selection hpair] at h
  rwa [← Option.some.inj h]

/-- Names after the first mention do not move it. -/
private theorem findIdx_append_of_mem (h : c ∈ (selection before).map Prod.fst) (after : List String) :
    (before ++ after).findIdx c.hasName = before.findIdx c.hasName ∧
      before.findIdx c.hasName < before.length := by
  obtain ⟨name, hmem, hname⟩ := mem_map_fst_selection_iff.mp h
  have hlt : before.findIdx c.hasName < before.length :=
    List.findIdx_lt_length_of_exists ⟨name, hmem, hasName_iff.mpr hname⟩
  rw [List.findIdx_append, if_pos hlt]
  exact ⟨rfl, hlt⟩

private theorem length_le_findIdx_append_of_notMem (h : c ∉ (selection before).map Prod.fst)
    (after : List String) : before.length ≤ (before ++ after).findIdx c.hasName := by
  have hnone : ∀ name ∈ before, c.hasName name = false := by
    simpa using find?_hasName_eq_none_iff.mpr h
  rw [List.findIdx_append, List.findIdx_eq_length.mpr hnone, if_neg (Nat.lt_irrefl _)]
  exact Nat.le_add_left _ _

/-- Chosen columns stand in the order of their first mentions. -/
theorem pairwise_selection (names : List String) :
    (selection names).Pairwise fun first second =>
      names.findIdx first.1.hasName < names.findIdx second.1.hasName := by
  induction names using List.reverseRecOn with
  | nil => exact .nil
  | append_singleton names name ih =>
    -- One more mention at the end moves no first mention.
    have hbefore : (selection names).Pairwise fun first second =>
        (names ++ [name]).findIdx first.1.hasName < (names ++ [name]).findIdx second.1.hasName := by
      refine ih.imp_of_mem fun hfirst hsecond hlt => ?_
      rwa [(findIdx_append_of_mem (List.mem_map_of_mem hfirst) _).1,
        (findIdx_append_of_mem (List.mem_map_of_mem hsecond) _).1]
    rw [selection_concat]
    rcases addRequest_cases (selection names) name with hkept | ⟨c, -, hnew, hadded⟩
    · rwa [hkept]
    · rw [hadded, List.pairwise_append]
      refine ⟨hbefore, List.pairwise_singleton _ _, fun first hfirst last hlast => ?_⟩
      rw [List.mem_singleton.mp hlast]
      obtain ⟨hsame, hlt⟩ := findIdx_append_of_mem (List.mem_map_of_mem hfirst) [name]
      rw [hsame]
      exact Nat.lt_of_lt_of_le hlt (length_le_findIdx_append_of_notMem hnew [name])

/-- Different columns, each with one of its names, are chosen by these names. -/
theorem selection_map_snd_of_nodup (hnodup : (chosen.map Prod.fst).Nodup)
    (hnames : ∀ pair ∈ chosen, ofName? pair.2 = some pair.1) :
    selection (chosen.map Prod.snd) = chosen := by
  induction chosen using List.reverseRecOn with
  | nil => rfl
  | append_singleton chosen last ih =>
    rw [List.map_append, List.nodup_append] at hnodup
    have hnew : last.1 ∉ chosen.map Prod.fst := fun hmem =>
      hnodup.2.2 last.1 hmem last.1 List.mem_cons_self rfl
    have hlast : ofName? last.2 = some last.1 :=
      hnames last (List.mem_append_right _ List.mem_cons_self)
    rw [List.map_append, List.map_singleton, selection_concat,
      ih hnodup.1 fun pair hpair => hnames pair (List.mem_append_left _ hpair),
      addRequest_of_new hlast hnew]

theorem selection_map_snd (names : List String) :
    selection ((selection names).map Prod.snd) = selection names := by
  refine selection_map_snd_of_nodup (nodup_map_fst_selection names) fun pair hpair => ?_
  exact hasName_iff.mp (List.find?_some (mem_selection_iff.mp hpair))

example :
    selection ["company_name", "nickname", "id", "company.name", ""]
      = [(.companyName, "company_name"), (.id, "id")] := by decide

/-! ## Noise -/

/-- A change to requested names that leaves the choice as it is. -/
inductive Restates : List String → List String → Prop
  /-- One more name that is no column's. -/
  | unknown (before after : List String) {name : String} (h : ofName? name = none) :
      Restates (before ++ after) (before ++ name :: after)
  /-- One more mention of a column that was mentioned before. -/
  | again (before after : List String) {earlier name : String} {c : Column}
      (hmem : earlier ∈ before) (hearlier : ofName? earlier = some c) (h : ofName? name = some c) :
      Restates (before ++ after) (before ++ name :: after)
  /-- The other spelling of a column. -/
  | respell (before after : List String) {name other : String} {c : Column}
      (h : ofName? name = some c) (hother : ofName? other = some c) :
      Restates (before ++ name :: after) (before ++ other :: after)

variable {other : List String}

theorem Restates.eraseDups_eq (h : Restates names other) :
    (other.filterMap ofName?).eraseDups = (names.filterMap ofName?).eraseDups := by
  cases h with
  | unknown before after h => simp [h]
  | again before after hmem hearlier h =>
    simp only [List.filterMap_append, List.filterMap_cons, h]
    exact eraseDups_append_cons (List.mem_filterMap.mpr ⟨_, hmem, hearlier⟩) _
  | respell before after h hother => simp [h, hother]

theorem Restates.ne_nil (h : Restates names other) : other ≠ [] := by
  cases h <;> simp

/-- However often names are restated, they choose the same columns. -/
theorem map_fst_selection_of_restates (h : Relation.ReflTransGen Restates names other) :
    (selection other).map Prod.fst = (selection names).map Prod.fst := by
  rw [map_fst_selection, map_fst_selection]
  induction h with
  | refl => rfl
  | tail _ hstep ih => exact hstep.eraseDups_eq.trans ih

theorem ne_nil_of_restates (h : Relation.ReflTransGen Restates names other) (hne : names ≠ []) :
    other ≠ [] := by
  cases h with
  | refl => exact hne
  | tail _ hstep => exact hstep.ne_nil

end Roster.Column
