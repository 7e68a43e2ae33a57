import Roster.Files.Glob
import Roster.Proofs.Files.Entries

/-!
# Paths

- **Names** (`FileTree.namesOf_append_slash`): each name of a path is a step (`advance`), and a name
  after a slash is one more.
- **Following** (`FileTree.find?_eq_namesOf`): a path that can be followed leads where its names say,
  whatever is in the tree.
- **One place**: a path that does not lead to the one place in which two trees differ leads to the same
  in both (`FileTree.SameBut.find?`), and so a file there has the same text.
- **Order** (`pathPrecedes_total`, `pathPrecedes_trans`): paths are ordered by their steps.
-/

namespace Roster

open Text

/-! ## Names -/

/-- The place that a name leads to from a place, whatever is in the tree. -/
def advance (here : List String) (name : String) : List String :=
  if name == "" || name == "." then here
  else if name == ".." then here.dropLast
  else here ++ [name]

/-- Whether a name can be that of an entry: it is none of those that do not lead on, and has no slash
in it. -/
structure IsFileName (name : String) : Prop where
  ne_empty : name ≠ ""
  ne_current : name ≠ "."
  ne_parent : name ≠ ".."
  noSlash : '/' ∉ name.toList

theorem IsFileName.advance {name : String} (h : IsFileName name) (here : List String) :
    advance here name = here ++ [name] := by
  simp [Roster.advance, h.ne_empty, h.ne_current, h.ne_parent]

theorem pathNames_append_slash (path rest : String) :
    pathNames (path ++ "/" ++ rest) = pathNames path ++ pathNames rest := by
  have hpath : (path ++ "/" ++ rest).toList = path.toList ++ '/' :: rest.toList := by
    simp [show "/".toList = ['/'] from rfl]
  rw [pathNames, hpath, List.splitOn_append_cons_self, List.map_append]
  rfl

theorem pathNames_of_noSlash {name : String} (h : '/' ∉ name.toList) : pathNames name = [name] := by
  rw [pathNames, List.splitOn_eq_singleton h, List.map_singleton, String.ofList_toList]

private theorem pathNames_empty : pathNames "" = [""] :=
  pathNames_of_noSlash (by simp)

namespace FileTree

variable {tree other : FileTree} {names here hidden : List String} {path : String}

/-- The place that a path starts from. -/
def startOf (tree : FileTree) (path : String) : List String :=
  if "/".toList.isPrefixOf path.toList then [] else tree.current

theorem namesOf_eq_foldl (tree : FileTree) (path : String) :
    tree.namesOf path = (pathNames path).foldl advance (tree.startOf path) :=
  rfl

/-- The start of a path does not depend on how it goes on. -/
theorem startOf_append (h : path ≠ "") (rest : String) :
    tree.startOf (path ++ rest) = tree.startOf path := by
  have hne : path.toList ≠ [] := by simpa using h
  obtain ⟨c, cs, hcs⟩ := List.exists_cons_of_ne_nil hne
  have hslash : "/".toList = ['/'] := rfl
  simp [startOf, String.toList_append, hcs, hslash]

/-- A path that starts with a slash has an empty first name. -/
theorem startOf_of_notMem (h : "" ∉ pathNames path) :
    tree.startOf path = tree.current := by
  refine if_neg fun hway => h ?_
  obtain ⟨rest, hrest⟩ := List.isPrefixOf_iff_prefix.mp hway
  obtain rfl : path = "" ++ "/" ++ String.ofList rest := by
    rw [← String.toList_inj, ← hrest]
    simp
  rw [pathNames_append_slash, pathNames_empty]
  exact List.mem_cons_self

/-- The names of a path with a further name after a slash. -/
theorem namesOf_append_slash {name : String} (hpath : path ≠ "") (hname : '/' ∉ name.toList) :
    tree.namesOf (path ++ "/" ++ name) = advance (tree.namesOf path) name := by
  have hstart : tree.startOf (path ++ "/" ++ name) = tree.startOf path := by
    rw [String.append_assoc, startOf_append hpath]
  rw [namesOf_eq_foldl, hstart, pathNames_append_slash, pathNames_of_noSlash hname,
    List.foldl_append, ← namesOf_eq_foldl]
  rfl

/-- The slash at the end of a path does not lead anywhere. -/
theorem namesOf_append_of_suffix {name : String}
    (hpath : "/".toList.isSuffixOf path.toList = true) (hname : '/' ∉ name.toList) :
    tree.namesOf (path ++ name) = advance (tree.namesOf path) name := by
  obtain ⟨start, hstart⟩ := List.isSuffixOf_iff_suffix.mp hpath
  obtain rfl : path = String.ofList start ++ "/" := by
    rw [← String.toList_inj, ← hstart]
    simp
  have hne : String.ofList start ++ "/" ≠ "" := by simp
  have hslash : pathNames (String.ofList start ++ "/") = pathNames (String.ofList start) ++ [""] := by
    rw [← pathNames_empty, ← pathNames_append_slash, String.append_empty]
  rw [namesOf_eq_foldl, startOf_append hne, pathNames_append_slash,
    pathNames_of_noSlash hname, namesOf_eq_foldl, hslash, List.foldl_append,
    List.foldl_append]
  rfl

/-! ## Following -/

/-- Whether a name leads on from a place: one that names an entry has to have one there. -/
def LeadsOn (tree : FileTree) (here : List String) (name : String) : Prop :=
  name ≠ "" → name ≠ "." → name ≠ ".." →
    name.utf8ByteSize ≤ longestName ∧ (tree.entryAt? (here ++ [name])).isSome = true

/-- A walk goes on from folders only, and where names lead on. -/
theorem walk_cons_eq_ok_iff {name : String} {last : List String} :
    tree.walk here (name :: names) = .ok last ↔
      tree.entryAt? here = some .folder ∧ tree.LeadsOn here name ∧
        tree.walk (advance here name) names = .ok last := by
  rw [walk]
  cases hhere : tree.entryAt? here with
  | none => simp
  | some entry =>
    cases entry with
    | file bytes => simp
    | folder =>
      -- Three kinds of names: that of the folder itself, that of the one above, and those of entries.
      by_cases hstay : (name == "" || name == ".") = true
      · have hleads : tree.LeadsOn here name := by
          intro hempty hcurrent
          simp [hempty, hcurrent] at hstay
        simp only [advance, if_pos hstay, hleads, true_and]
      · by_cases hparent : (name == "..") = true
        · have hleads : tree.LeadsOn here name := by
            intro _ _ hne
            simp [hne] at hparent
          simp only [advance, if_neg hstay, if_pos hparent, hleads, true_and]
        · simp only [advance, if_neg hstay, if_neg hparent]
          have hleads : tree.LeadsOn here name ↔ name.utf8ByteSize ≤ longestName ∧
              (tree.entryAt? (here ++ [name])).isSome = true := by
            refine ⟨fun h => ?_, fun h _ _ _ => h⟩
            simp only [Bool.or_eq_true, beq_iff_eq, not_or] at hstay hparent
            exact h hstay.1 hstay.2 hparent
          rw [hleads]
          split
          · simp
            omega
          · split <;> simp_all

/-- A walk that comes to its end is at the place that its names say. -/
private theorem walk_eq_foldl {last : List String} (h : tree.walk here names = .ok last) :
    last = names.foldl advance here := by
  induction names generalizing here with
  | nil =>
    cases h
    rfl
  | cons name names ih =>
    obtain ⟨-, -, hwalk⟩ := walk_cons_eq_ok_iff.mp h
    exact ih hwalk

theorem find?_eq_ok_iff :
    tree.find? path = .ok names ↔
      '\x00' ∉ path.toList ∧ path.utf8ByteSize ≤ longestPath ∧ path ≠ "" ∧
        tree.walk (tree.startOf path) (pathNames path) = .ok names := by
  unfold find?
  split
  · rename_i hnul
    simp [List.contains_iff_mem.mp hnul]
  · rename_i hnul
    rw [List.contains_iff_mem] at hnul
    split
    · simp
      omega
    · split
      · rename_i hempty
        simp [String.isEmpty_iff.mp hempty]
      · rename_i hlong hempty
        rw [String.isEmpty_iff] at hempty
        simp only [hnul, not_false_eq_true, hempty, ne_eq, true_and, Nat.le_of_not_lt hlong]
        rfl

/-- A path that can be followed leads to the place that its names say. -/
theorem find?_eq_namesOf (h : tree.find? path = .ok names) : names = tree.namesOf path := by
  obtain ⟨-, -, -, hwalk⟩ := find?_eq_ok_iff.mp h
  exact walk_eq_foldl hwalk

theorem isFile_iff :
    tree.isFile path = true ↔
      ∃ bytes, tree.find? path = .ok (tree.namesOf path) ∧
        tree.entryAt? (tree.namesOf path) = some (.file bytes) := by
  unfold isFile
  cases hfind : tree.find? path with
  | error fault => simp
  | ok names =>
    obtain rfl := find?_eq_namesOf hfind
    cases hentry : tree.entryAt? (tree.namesOf path) with
    | none => simp [hentry]
    | some entry => cases entry <;> simp [hentry]

/-- A file can be read unless its bytes are no text. -/
theorem readText_of_isFile (h : tree.isFile path = true) :
    (∃ text, tree.readText path = .ok text) ∨ tree.readText path = .error .notText := by
  obtain ⟨bytes, hfind, hentry⟩ := isFile_iff.mp h
  unfold readText
  simp only [hfind, bind, Except.bind, hentry]
  cases String.fromUTF8? bytes with
  | none => exact .inr rfl
  | some text => exact .inl ⟨text, rfl⟩

/-- A file that a text was written to has this text. -/
theorem readText_of_toUTF8 {text : String} (hfind : tree.find? path = .ok names)
    (hentry : tree.entryAt? names = some (.file text.toUTF8)) : tree.readText path = .ok text := by
  have htext : String.fromUTF8? text.toUTF8 = some text := dif_pos text.isValidUTF8
  unfold readText
  simp only [hfind, bind, Except.bind, hentry, htext]

/-! ## One place -/

namespace SameBut

/-- From a place without a folder no walk leads on. -/
private theorem eq_of_walk (hfolder : tree.entryAt? hidden ≠ some .folder)
    (hwalk : tree.walk hidden names = .ok here) : here = hidden := by
  cases names with
  | nil =>
    cases hwalk
    rfl
  | cons name names => exact absurd (walk_cons_eq_ok_iff.mp hwalk).1 hfolder

/-- A walk that does not end at the one place does not pass it. -/
theorem walk (h : SameBut hidden tree other) {last : List String}
    (hwalk : tree.walk here names = .ok last) (hne : last ≠ hidden) :
    other.walk here names = .ok last := by
  induction names generalizing here with
  | nil => exact hwalk
  | cons name names ih =>
    obtain ⟨hfolder, hleads, hnext⟩ := walk_cons_eq_ok_iff.mp hwalk
    have hhere : here ≠ hidden := fun heq => h.notFolder (heq ▸ hfolder)
    refine walk_cons_eq_ok_iff.mpr ⟨?_, fun hempty hcurrent hparent => ?_, ih hnext⟩
    · rw [h.entryAt here hhere, hfolder]
    · obtain ⟨hshort, hsome⟩ := hleads hempty hcurrent hparent
      have hadvance : advance here name = here ++ [name] := by
        simp [advance, hempty, hcurrent, hparent]
      rw [hadvance] at hnext
      -- A step to the one place would end the walk there.
      have hstep : here ++ [name] ≠ hidden := fun heq =>
        hne (eq_of_walk h.notFolder (heq ▸ hnext))
      rw [h.entryAt _ hstep]
      exact ⟨hshort, hsome⟩

theorem startOf (h : SameBut hidden tree other) (path : String) :
    other.startOf path = tree.startOf path := by
  rw [FileTree.startOf, h.current, FileTree.startOf]

theorem namesOf (h : SameBut hidden tree other) (path : String) :
    other.namesOf path = tree.namesOf path := by
  rw [namesOf_eq_foldl, h.startOf, namesOf_eq_foldl]

/-- A path that does not lead to the one place leads to the same in both trees. -/
theorem find? (h : SameBut hidden tree other) (hfind : tree.find? path = .ok names)
    (hne : names ≠ hidden) : other.find? path = .ok names := by
  obtain ⟨hnul, hshort, hempty, hwalk⟩ := find?_eq_ok_iff.mp hfind
  refine find?_eq_ok_iff.mpr ⟨hnul, hshort, hempty, ?_⟩
  rw [h.startOf]
  exact h.walk hwalk hne

theorem isFile_of_isFile (h : SameBut hidden tree other) (hne : tree.namesOf path ≠ hidden)
    (hfile : tree.isFile path = true) : other.isFile path = true := by
  obtain ⟨bytes, hfind, hentry⟩ := isFile_iff.mp hfile
  refine isFile_iff.mpr ⟨bytes, ?_⟩
  rw [h.namesOf, h.entryAt _ hne]
  exact ⟨h.find? hfind hne, hentry⟩

theorem isFile (h : SameBut hidden tree other) (hne : tree.namesOf path ≠ hidden) :
    other.isFile path = tree.isFile path := by
  rw [Bool.eq_iff_iff]
  exact ⟨h.symm.isFile_of_isFile (h.namesOf path ▸ hne), h.isFile_of_isFile hne⟩

/-- A file elsewhere has the same text in both trees. -/
theorem readText (h : SameBut hidden tree other) (hne : tree.namesOf path ≠ hidden)
    (hfile : tree.isFile path = true) : other.readText path = tree.readText path := by
  obtain ⟨bytes, hfind, hentry⟩ := isFile_iff.mp hfile
  unfold FileTree.readText
  simp only [hfind, h.find? hfind hne, bind, Except.bind, h.entryAt _ hne]

end SameBut

end FileTree

/-! ## Order -/

/-- How the first steps of two paths compare: by their numbers, then by their names, and otherwise what
follows them decides. -/
private theorem stepsPrecede_cons {m n : Nat} {s t : String} {as bs : List (Nat × String)} :
    stepsPrecede ((m, s) :: as) ((n, t) :: bs) = true ↔
      m < n ∨ m = n ∧ (s ≠ t ∧ precedes s.toList t.toList = true ∨
        s = t ∧ stepsPrecede as bs = true) := by
  rw [stepsPrecede]
  rcases Nat.lt_trichotomy m n with h | rfl | h
  · simp [h]
  · by_cases hst : s = t <;> simp [hst]
  · simp [h, Nat.lt_asymm h, Nat.ne_of_gt h]

theorem stepsPrecede_total (as bs : List (Nat × String)) :
    stepsPrecede as bs = true ∨ stepsPrecede bs as = true := by
  induction as generalizing bs with
  | nil => exact .inl (by simp [stepsPrecede])
  | cons a as ih =>
    cases bs with
    | nil => exact .inr (by simp [stepsPrecede])
    | cons b bs =>
      obtain ⟨m, s⟩ := a
      obtain ⟨n, t⟩ := b
      rw [stepsPrecede_cons, stepsPrecede_cons]
      rcases Nat.lt_trichotomy m n with h | rfl | h
      · exact .inl (.inl h)
      · by_cases hst : s = t
        · subst hst
          exact (ih bs).imp (fun h => .inr ⟨rfl, .inr ⟨rfl, h⟩⟩) fun h => .inr ⟨rfl, .inr ⟨rfl, h⟩⟩
        · exact (precedes_total s.toList t.toList).imp (fun h => .inr ⟨rfl, .inl ⟨hst, h⟩⟩)
            fun h => .inr ⟨rfl, .inl ⟨Ne.symm hst, h⟩⟩
      · exact .inr (.inl h)

theorem stepsPrecede_trans {as bs cs : List (Nat × String)} (h : stepsPrecede as bs = true)
    (h' : stepsPrecede bs cs = true) : stepsPrecede as cs = true := by
  induction as generalizing bs cs with
  | nil => simp [stepsPrecede]
  | cons a as ih =>
    match bs, cs with
    | [], _ => simp [stepsPrecede] at h
    | _ :: _, [] => simp [stepsPrecede] at h'
    | (n, t) :: bs, (k, u) :: cs =>
      obtain ⟨m, s⟩ := a
      rw [stepsPrecede_cons] at h h' ⊢
      -- The first step at which one of the two comparisons is decided also decides the third.
      rcases h with h | ⟨rfl, ⟨hst, h⟩ | ⟨rfl, h⟩⟩
      · exact .inl (by omega)
      · rcases h' with h' | ⟨rfl, ⟨-, h'⟩ | ⟨rfl, -⟩⟩
        · exact .inl h'
        · refine .inr ⟨rfl, .inl ⟨?_, precedes_trans h h'⟩⟩
          rintro rfl
          exact hst (String.toList_inj.mp (precedes_antisymm h h'))
        · exact .inr ⟨rfl, .inl ⟨hst, h⟩⟩
      · rcases h' with h' | ⟨rfl, ⟨hsu, h'⟩ | ⟨rfl, h'⟩⟩
        · exact .inl h'
        · exact .inr ⟨rfl, .inl ⟨hsu, h'⟩⟩
        · exact .inr ⟨rfl, .inr ⟨rfl, ih h h'⟩⟩

theorem pathPrecedes_total (a b : String) : (pathPrecedes a b || pathPrecedes b a) = true := by
  rw [Bool.or_eq_true]
  exact stepsPrecede_total _ _

theorem pathPrecedes_trans (a b c : String) (h : pathPrecedes a b = true)
    (h' : pathPrecedes b c = true) : pathPrecedes a c = true :=
  stepsPrecede_trans h h'

end Roster
