import Roster.Files.Source
import Roster.Proofs.Files.Patterns
import Roster.Proofs.Text.Cutting

/-!
# The files that a location stands for

- **Extensions** (`hasDataExtension_iff`): a data file has a name that ends in `json` after its last dot,
  in any letter case.
- **Selection** (`FileTree.mem_selected_iff`): the paths of the data files that a location stands for.
  They are in path order (`FileTree.pairwise_selected`), each once unless a pattern lists a path more
  often (`FileTree.nodup_selected`), and are what loading starts from (`FileTree.dataPaths_eq`).
- **One place** (`FileTree.SameBut.selected`): a file that is not selected does not count.
-/

namespace Roster

/-! ## Extensions -/

/-- The extension of a name is what follows its last dot, if there is something before it. -/
private theorem extension?_of_append {name : String} {stem e : List Char} (he : '.' ∉ e)
    (hname : name.toList = stem ++ '.' :: e) :
    extension? name = if stem = [] then none else some (String.ofList e) := by
  have hcut : (name.toList.splitOn '.').reverse = e :: (stem.splitOn '.').reverse := by
    rw [hname, List.splitOn_append_cons_self, List.splitOn_eq_singleton he, List.reverse_append]
    rfl
  rw [extension?, hcut]
  -- Without a stem the name is one that starts with its only dot.
  by_cases hstem : stem = []
  · simp [hstem, List.splitOn_nil]
  · obtain ⟨before, rest, hrest⟩ :=
      List.exists_cons_of_ne_nil (List.reverse_ne_nil_iff.mpr (List.splitOn_ne_nil '.' stem))
    have hkeep : (before.isEmpty && rest.isEmpty) = false := by
      refine Bool.eq_false_iff.mpr fun hempty => hstem ?_
      obtain ⟨rfl, rfl⟩ : before = [] ∧ rest = [] := by simpa using hempty
      have hjoin : ['.'].intercalate (stem.splitOn '.') = stem := List.intercalate_splitOn '.'
      rwa [List.reverse_eq_iff.mp hrest, List.reverse_singleton, List.intercalate_singleton,
        eq_comm] at hjoin
    simp only [hrest, hkeep, if_neg hstem]
    rfl

private theorem extension?_of_notMem {name : String} (h : '.' ∉ name.toList) : extension? name = none := by
  rw [extension?, List.splitOn_eq_singleton h]
  rfl

/-- The last name of a path. -/
def lastName? (path : String) : Option String :=
  ((pathNames path).filter fun s => s != "" && s != ".").getLast?

/-- Whether a path ends in a name with the extension `json`, in any letter case. -/
def EndsInJson (path : String) : Prop :=
  ∃ name stem e, lastName? path = some name ∧ name.toList = stem ++ '.' :: e ∧ stem ≠ [] ∧
    e.map Char.toLower = "json".toList

private theorem notMem_of_map_toLower {e : List Char} (h : e.map Char.toLower = "json".toList) : '.' ∉ e := by
  intro hmem
  have hdot : '.' ∈ e.map Char.toLower := List.mem_map.mpr ⟨'.', hmem, by decide⟩
  rw [h] at hdot
  exact absurd hdot (by decide)

/-- A name has the extension `json` exactly if that stands behind a dot with something before it. -/
theorem extension?_json_iff {name : String} :
    (∃ e, extension? name = some e ∧ e.toList.map Char.toLower = "json".toList) ↔
      ∃ stem e, name.toList = stem ++ '.' :: e ∧ stem ≠ [] ∧ e.map Char.toLower = "json".toList := by
  constructor
  · rintro ⟨e, he, hjson⟩
    -- The extension starts at the last dot, so it has none.
    by_cases hdot : '.' ∈ name.toList
    · obtain ⟨stem, rest, hname, hrest⟩ := Text.exists_last_of_mem hdot
      rw [extension?_of_append hrest hname] at he
      split at he
      · cases he
      · rename_i hstem
        obtain rfl := Option.some.inj he
        exact ⟨stem, rest, hname, hstem, by rwa [String.toList_ofList] at hjson⟩
    · rw [extension?_of_notMem hdot] at he
      cases he
  · rintro ⟨stem, e, hname, hstem, hjson⟩
    refine ⟨String.ofList e, ?_, by rwa [String.toList_ofList]⟩
    rw [extension?_of_append (notMem_of_map_toLower hjson) hname, if_neg hstem]

theorem hasDataExtension_iff {path : String} : hasDataExtension path = true ↔ EndsInJson path := by
  unfold hasDataExtension
  rw [← lastName?]
  split
  · rename_i hlast
    refine iff_of_false (by simp) ?_
    rintro ⟨name, stem, e, hname, hsplit, -, hjson⟩
    obtain rfl := Option.some.inj (hlast.symm.trans hname)
    -- The name of the parent folder is too short for an extension.
    have hlength := congrArg List.length hsplit
    have hlength' := congrArg List.length hjson
    simp at hlength hlength'
    omega
  · rename_i name _ hlast
    have hends : EndsInJson path ↔ ∃ stem e, name.toList = stem ++ '.' :: e ∧ stem ≠ [] ∧
        e.map Char.toLower = "json".toList := by simp [EndsInJson, hlast]
    rw [hends, ← extension?_json_iff]
    cases extension? name <;> simp
  · rename_i hlast
    simp [EndsInJson, hlast]

/-! ## Selection -/

/-- What is reported when a location stands for no file. -/
def nothingSelected (location : String) : SourceFailure :=
  if isPattern location then .noMatch location else .noFile location

namespace FileTree

variable {tree other : FileTree} {location path : String} {hidden : List String} {place : Place}

/-- Whether a path is that of a data file among what a pattern lists. -/
def isData (tree : FileTree) (path : String) : Bool :=
  tree.isFile path && hasDataExtension path

/-- Whether a location stands for the file at a path. -/
def IsSelected (tree : FileTree) (location path : String) : Prop :=
  tree.isFile path = true ∧
    if isPattern location then
      EndsInJson path ∧ ∃ pattern, GlobPattern.ofText? location = some pattern ∧
        ∃ place ∈ tree.select pattern, place.path = path
    else path = location

/-- Whether a location that is a pattern lists the path of every data file only once. -/
def SelectsOnce (tree : FileTree) (location : String) : Prop :=
  isPattern location = true → ∀ pattern, GlobPattern.ofText? location = some pattern →
    (((tree.select pattern).map Place.path).filter tree.isData).Nodup

/-- The paths of the files that a location stands for, in path order. -/
def selected (tree : FileTree) (location : String) : List String :=
  if isPattern location then
    match GlobPattern.ofText? location with
    | some pattern =>
      (((tree.select pattern).map Place.path).filter tree.isData).mergeSort pathPrecedes
    | none => []
  else if tree.isFile location then [location]
  else []

theorem isSelected_iff_of_pattern {pattern : GlobPattern} (hpattern : isPattern location = true)
    (hread : GlobPattern.ofText? location = some pattern) :
    tree.IsSelected location path ↔
      path ∈ ((tree.select pattern).map Place.path).filter tree.isData := by
  rw [IsSelected, if_pos hpattern, hread]
  simp only [Option.some.injEq, exists_eq_left', List.mem_filter, List.mem_map, isData,
    Bool.and_eq_true, hasDataExtension_iff]
  constructor
  · rintro ⟨hfile, hextension, hplace⟩
    exact ⟨hplace, hfile, hextension⟩
  · rintro ⟨hplace, hfile, hextension⟩
    exact ⟨hfile, hextension, hplace⟩

theorem mem_selected_iff : path ∈ tree.selected location ↔ tree.IsSelected location path := by
  unfold selected
  split
  · rename_i hpattern
    cases hread : GlobPattern.ofText? location with
    | none => simp [IsSelected, hpattern, hread]
    | some pattern => rw [List.mem_mergeSort, isSelected_iff_of_pattern hpattern hread]
  · rename_i hpattern
    rw [IsSelected, if_neg hpattern]
    split
    · rename_i hfile
      rw [List.mem_singleton]
      refine ⟨?_, And.right⟩
      rintro rfl
      exact ⟨hfile, rfl⟩
    · rename_i hfile
      simp only [List.not_mem_nil, false_iff, not_and]
      rintro hpath rfl
      exact hfile hpath

theorem pairwise_selected (tree : FileTree) (location : String) :
    (tree.selected location).Pairwise fun a b => pathPrecedes a b = true := by
  unfold selected
  split
  · split
    · exact List.pairwise_mergeSort pathPrecedes_trans pathPrecedes_total _
    · exact .nil
  · split
    · exact List.pairwise_singleton _ _
    · exact .nil

theorem nodup_selected (h : tree.SelectsOnce location) : (tree.selected location).Nodup := by
  unfold selected
  split
  · rename_i hpattern
    split
    · rename_i pattern hread
      exact (List.mergeSort_perm _ _).nodup_iff.mpr (h hpattern pattern hread)
    · exact .nil
  · split
    · exact List.nodup_singleton location
    · exact .nil

/-- A location is refused if it is no pattern but for its wildcards, or if it stands for nothing. -/
theorem dataPaths_eq (tree : FileTree) (location : String) :
    dataPaths tree location =
      if isPattern location = true ∧ GlobPattern.ofText? location = none then
        .error (.badPattern location)
      else if tree.selected location = [] then .error (nothingSelected location)
      else .ok (tree.selected location) := by
  have hsort (paths : List String) : paths.mergeSort pathPrecedes = [] ↔ paths = [] := by
    rw [← List.length_eq_zero_iff, List.length_mergeSort, List.length_eq_zero_iff]
  unfold dataPaths selected nothingSelected
  by_cases hpattern : isPattern location = true
  · simp only [hpattern, if_true, true_and]
    cases GlobPattern.ofText? location with
    | none => rfl
    | some pattern =>
      simp only [reduceCtorEq, if_false, hsort, List.isEmpty_iff]
      rfl
  · simp only [hpattern]
    cases tree.isFile location <;> simp

theorem dataPaths_eq_ok_iff {paths : List String} :
    dataPaths tree location = .ok paths ↔ paths = tree.selected location ∧ paths ≠ [] := by
  rw [dataPaths_eq]
  split
  · rename_i hrefused
    have hnone : tree.selected location = [] := by
      rw [selected, if_pos hrefused.1, hrefused.2]
    refine iff_of_false (by simp) ?_
    rintro ⟨rfl, hne⟩
    exact hne hnone
  · split
    · rename_i hnone
      refine iff_of_false (by simp) ?_
      rintro ⟨rfl, hne⟩
      exact hne hnone
    · rename_i hne
      constructor
      · intro h
        cases h
        exact ⟨rfl, hne⟩
      · rintro ⟨rfl, -⟩
        rfl

theorem dataPaths_eq_error_iff {cause : SourceFailure} :
    dataPaths tree location = .error cause ↔
      (isPattern location = true ∧ GlobPattern.ofText? location = none ∧
        cause = .badPattern location) ∨
      ((isPattern location = true → GlobPattern.ofText? location ≠ none) ∧
        tree.selected location = [] ∧ cause = nothingSelected location) := by
  rw [dataPaths_eq]
  split
  · rename_i hrefused
    rw [Except.error.injEq]
    constructor
    · rintro rfl
      exact .inl ⟨hrefused.1, hrefused.2, rfl⟩
    · rintro (⟨-, -, rfl⟩ | ⟨haccepted, -, -⟩)
      · rfl
      · exact absurd hrefused.2 (haccepted hrefused.1)
  · rename_i haccepted
    -- From here on the location is no pattern, or one that can be read.
    rw [not_and] at haccepted
    split
    · rename_i hnone
      simp only [Except.error.injEq, hnone, true_and]
      constructor
      · rintro rfl
        exact .inr ⟨haccepted, rfl⟩
      · rintro (⟨hpattern, hread, -⟩ | ⟨-, rfl⟩)
        · exact absurd hread (haccepted hpattern)
        · rfl
    · rename_i hne
      refine iff_of_false (by simp) ?_
      rintro (⟨hpattern, hread, -⟩ | ⟨-, hnone, -⟩)
      · exact haccepted hpattern hread
      · exact hne hnone

/-! ## One place -/

theorem isData_iff : tree.isData path = true ↔ tree.isFile path = true ∧ hasDataExtension path = true :=
  Bool.and_eq_true_iff

/-- A place from where components were followed is not the one place if its file is selected. -/
private theorem names_ne_of_isSelected (hselected : ∀ p, tree.IsSelected location p → tree.find? p ≠ .ok hidden)
    (hplace : place.IsAt tree) (h : tree.IsSelected location place.path) : place.names ≠ hidden := by
  obtain ⟨bytes, hfind, -⟩ := isFile_iff.mp h.1
  rintro rfl
  rw [hplace.names] at hfind
  exact hselected _ h hfind

/-- What a pattern selects stands elsewhere than at a place that is not selected. -/
private theorem filter_select_eq {pattern : GlobPattern} (hproper : tree.IsProper)
    (hpattern : isPattern location = true) (hread : GlobPattern.ofText? location = some pattern)
    (hselected : ∀ p, tree.IsSelected location p → tree.find? p ≠ .ok hidden) :
    ((tree.select pattern).map Place.path).filter tree.isData
      = (((tree.select pattern).filter (elsewhere hidden)).filter
          fun place => tree.isData place.path).map Place.path := by
  rw [List.filter_map, List.filter_filter]
  refine congrArg _ (List.filter_congr fun place hplace => ?_)
  rw [Function.comp_apply, Bool.eq_iff_iff, Bool.and_eq_true, iff_self_and]
  intro hdata
  obtain ⟨hfile, hextension⟩ := isData_iff.mp hdata
  refine elsewhere_eq_true_iff.mpr
    (names_ne_of_isSelected hselected (hproper.isAt_of_mem_select hread hplace) ⟨hfile, ?_⟩)
  rw [if_pos hpattern]
  exact ⟨hasDataExtension_iff.mp hextension, pattern, hread, place, hplace, rfl⟩

/-- Two trees that differ at one place have the same selected files if that place is selected in
neither. -/
theorem SameBut.selected (h : SameBut hidden tree other) (hproper : tree.IsProper)
    (hproper' : other.IsProper)
    (hselected : ∀ p, tree.IsSelected location p → tree.find? p ≠ .ok hidden)
    (hselected' : ∀ p, other.IsSelected location p → other.find? p ≠ .ok hidden) :
    other.selected location = tree.selected location := by
  unfold FileTree.selected
  by_cases hpattern : isPattern location = true
  · rw [if_pos hpattern, if_pos hpattern]
    cases hread : GlobPattern.ofText? location with
    | none => rfl
    | some pattern =>
      simp only
      rw [filter_select_eq hproper hpattern hread hselected,
        filter_select_eq hproper' hpattern hread hselected', h.select hproper hproper']
      refine congrArg (fun places => List.mergeSort (List.map Place.path places) pathPrecedes) ?_
      -- Only places elsewhere are left, and there the files are the same.
      refine List.filter_congr fun place hplace => ?_
      obtain ⟨hplace, helsewhere⟩ := List.mem_filter.mp hplace
      have hnames : tree.namesOf place.path = place.names :=
        (h.namesOf place.path).symm.trans (hproper'.isAt_of_mem_select hread hplace).names
      rw [isData, isData, h.isFile (hnames ▸ elsewhere_eq_true_iff.mp helsewhere)]
  · have hplain {tree : FileTree} (hselected : ∀ p, tree.IsSelected location p → tree.find? p ≠ .ok hidden)
        (hfile : tree.isFile location = true) : tree.namesOf location ≠ hidden := by
      obtain ⟨bytes, hfind, -⟩ := isFile_iff.mp hfile
      rintro rfl
      refine hselected location ⟨hfile, ?_⟩ hfind
      rw [if_neg hpattern]
    rw [if_neg hpattern, if_neg hpattern]
    have hfile : other.isFile location = tree.isFile location := by
      rw [Bool.eq_iff_iff]
      exact ⟨fun hfile => h.symm.isFile_of_isFile (hplain hselected' hfile) hfile,
        fun hfile => h.isFile_of_isFile (hplain hselected hfile) hfile⟩
    rw [hfile]

end FileTree

end Roster
