import Roster.Column.Basic

/-!
# The names of columns

- **Ways** (`Column.segments`): a column can be told by the names on the way to it
  (`ofSegments?_eq_some_iff`), and no column lies on the way to another (`eq_of_prefix_segments`).
- **Paths** (`splitOn_eq_segments_iff`): cut at its dots, a text gives the way to a column exactly
  if it is the path of the column.
- **Names** (`ofName?_eq_some_iff`): a text names a column exactly if it is its path or its flat key.
  Flat keys have no dots, and a path without dots is a flat key.
-/

namespace Roster.Column

variable {c d : Column}

/-- A column that is found by something has it. -/
private theorem eq_of_find? {α : Type} [BEq α] [LawfulBEq α] {f : Column → α} {a : α}
    (h : (all.find? fun c => f c == a) = some c) : f c = a :=
  beq_iff_eq.mp (List.find?_some (p := fun c => f c == a) h)

/-- The column with given names on the way to it. -/
def ofSegments? (names : List String) : Option Column :=
  all.find? fun c => c.segments == names

/-- No column lies on the way to another one. -/
theorem eq_of_prefix_segments (h : c.segments <+: d.segments) : c = d := by
  have hall : ∀ c ∈ all, ∀ d ∈ all, c.segments <+: d.segments → c = d := by decide
  exact hall c (mem_all c) d (mem_all d) h

theorem ofSegments?_segments (c : Column) : ofSegments? c.segments = some c := by
  cases c <;> decide

theorem ofSegments?_eq_some_iff {names : List String} :
    ofSegments? names = some c ↔ c.segments = names :=
  ⟨eq_of_find?, fun h => h ▸ ofSegments?_segments c⟩

theorem exists_segments_eq_cons (c : Column) : ∃ key path, c.segments = key :: path := by
  cases c <;> exact ⟨_, _, rfl⟩

/-! ## Paths -/

theorem toList_path (c : Column) :
    c.path.toList = ['.'].intercalate (c.segments.map String.toList) := by
  cases c <;> decide

theorem splitOn_path (c : Column) :
    (c.path.toList.splitOn '.').map String.ofList = c.segments := by
  cases c <;> decide

theorem splitOn_eq_segments_iff {name : String} :
    (name.toList.splitOn '.').map String.ofList = c.segments ↔ name = c.path := by
  refine ⟨fun h => ?_, fun h => h ▸ splitOn_path c⟩
  have hpieces : name.toList.splitOn '.' = c.segments.map String.toList := by
    rw [← h, List.map_map]
    exact (List.map_id'' (fun piece => String.toList_ofList) _).symm
  apply String.toList_inj.mp
  rw [toList_path, ← hpieces]
  exact (List.intercalate_splitOn '.').symm

/-! ## Names -/

theorem notMem_flatKey (c : Column) : '.' ∉ c.flatKey.toList := by
  cases c <;> decide

theorem flatKey_eq_path (h : '.' ∉ c.path.toList) : c.flatKey = c.path := by
  revert h
  cases c <;> decide

theorem ofFlatKey?_eq_some_iff {key : String} : ofFlatKey? key = some c ↔ key = c.flatKey :=
  ⟨fun h => (eq_of_find? h).symm, fun h => h ▸ ofFlatKey?_flatKey c⟩

theorem ofPath?_eq_some_iff {path : String} : ofPath? path = some c ↔ path = c.path :=
  ⟨fun h => (eq_of_find? h).symm, fun h => h ▸ ofPath?_path c⟩

theorem flatKey_inj : c.flatKey = d.flatKey ↔ c = d := by
  refine ⟨fun h => ?_, congrArg flatKey⟩
  have hc := ofFlatKey?_flatKey c
  rw [h, ofFlatKey?_flatKey] at hc
  exact (Option.some.inj hc).symm

theorem ofName?_flatKey (c : Column) : ofName? c.flatKey = some c := by
  cases c <;> decide

theorem ofName?_eq_some_iff {name : String} :
    ofName? name = some c ↔ name = c.path ∨ name = c.flatKey := by
  constructor
  · intro h
    rw [ofName?, Option.orElse_eq_orElse, Option.orElse_eq_or, Option.or_eq_some_iff,
      ofPath?_eq_some_iff, ofFlatKey?_eq_some_iff] at h
    exact h.imp_right And.right
  · rintro (rfl | rfl)
    · rw [ofName?, ofPath?_path]
      rfl
    · exact ofName?_flatKey c

end Roster.Column
