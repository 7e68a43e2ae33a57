import Mathlib.Data.List.Forall2
import Roster.Proofs.Files.Selection
import Roster.Proofs.Record.Json
import Roster.Proofs.Store.Index
import Roster.Service

/-!
# Loading is all or nothing

- **Reading** (`mapM_eq_ok_iff`, `mapM_eq_error_iff`): either all files are read, or those before the
  first one that cannot be.
- **Outcomes** (`loadStore_eq_ok_iff`, `loadStore_eq_error_iff`): when loading succeeds and what the
  store holds, and for every cause when loading fails with it.
- **Other files** (`FileTree.SameBut.loadStore`): a file that is not selected does not count.
- **All of it** (`Service.load_outcomes`).
-/

namespace Roster

/-! ## Reading -/

section Traversal

variable {α β ε : Type} {f : α → Except ε β} {items : List α}

private theorem mapM_cons_eq (f : α → Except ε β) (a : α) (items : List α) :
    (a :: items).mapM f = match f a with
      | .error e => .error e
      | .ok b => (items.mapM f).map (b :: ·) := by
  -- The law of the library binds what the first item gives. Here its two outcomes are told apart.
  rw [List.mapM_cons]
  cases f a with
  | error e => rfl
  | ok b =>
    cases items.mapM f with
    | error e => rfl
    | ok bs => rfl

private theorem map_eq_ok_iff {g : α → β} {result : Except ε α} {b : β} :
    result.map g = .ok b ↔ ∃ a, result = .ok a ∧ g a = b := by
  cases result <;> simp [Except.map]

private theorem map_eq_error_iff {g : α → β} {result : Except ε α} {e : ε} :
    result.map g = .error e ↔ result = .error e := by
  cases result <;> simp [Except.map]

/-- All items are read exactly if each of them is. -/
theorem mapM_eq_ok_iff {values : List β} :
    items.mapM f = .ok values ↔ List.Forall₂ (fun a b => f a = .ok b) items values := by
  induction items generalizing values with
  | nil =>
    rw [List.forall₂_nil_left_iff, eq_comm]
    exact ⟨fun h => by cases h; rfl, fun h => by subst h; rfl⟩
  | cons a items ih =>
    rw [mapM_cons_eq, List.forall₂_cons_left_iff]
    cases f a with
    | error e => simp
    | ok b =>
      simp only [map_eq_ok_iff, ih, Except.ok.injEq]
      constructor
      · rintro ⟨bs, hbs, rfl⟩
        exact ⟨b, bs, rfl, hbs, rfl⟩
      · rintro ⟨_, bs, rfl, hbs, rfl⟩
        exact ⟨bs, hbs, rfl⟩

/-- Reading stops at the first item that cannot be read. -/
theorem mapM_eq_error_iff {e : ε} :
    items.mapM f = .error e ↔ ∃ before a after, items = before ++ a :: after ∧
      (∀ b ∈ before, ∃ value, f b = .ok value) ∧ f a = .error e := by
  -- What stands before the item that cannot be read is empty, or starts with the first item.
  induction items with
  | nil =>
    refine iff_of_false (fun h => by cases h) ?_
    rintro ⟨before, a, after, hsplit, -⟩
    simp at hsplit
  | cons a items ih =>
    rw [mapM_cons_eq]
    constructor
    · intro h
      cases ha : f a with
      | error e' =>
        rw [ha] at h
        cases h
        exact ⟨[], a, items, rfl, by simp, ha⟩
      | ok b =>
        simp only [ha, map_eq_error_iff] at h
        obtain ⟨before, c, after, rfl, hbefore, hc⟩ := ih.mp h
        refine ⟨a :: before, c, after, rfl, fun d hd => ?_, hc⟩
        rcases List.mem_cons.mp hd with rfl | hd
        · exact ⟨b, ha⟩
        · exact hbefore d hd
    · rintro ⟨before, c, after, hsplit, hbefore, hc⟩
      cases before with
      | nil =>
        obtain ⟨rfl, -⟩ := List.cons.inj hsplit
        rw [hc]
      | cons d before =>
        obtain ⟨rfl, rfl⟩ := List.cons.inj hsplit
        obtain ⟨b, hb⟩ := hbefore a List.mem_cons_self
        simp only [hb, map_eq_error_iff]
        exact ih.mpr ⟨before, c, after, rfl, fun d hd => hbefore d (List.mem_cons_of_mem a hd), hc⟩

private theorem mapM_congr {g : α → Except ε β} (h : ∀ a ∈ items, f a = g a) :
    items.mapM f = items.mapM g := by
  induction items with
  | nil => rfl
  | cons a items ih =>
    rw [mapM_cons_eq, mapM_cons_eq, h a List.mem_cons_self,
      ih fun b hb => h b (List.mem_cons_of_mem a hb)]

end Traversal

namespace FileTree

variable {tree other : FileTree} {location path : String} {paths : List String}
  {hidden : List String}

/-- Whether the text of the file at a path is a JSON array of records. -/
def HoldsRecords (tree : FileTree) (path : String) (records : List Record) : Prop :=
  ∃ text, tree.readText path = .ok text ∧ (Decoder.list Record.decoder).ofText text = .ok records

/-- Why a location makes no store, if it stands for the files at some paths. -/
inductive FailsWith (tree : FileTree) (location : String) (paths : List String) : SourceFailure → Prop
  /-- The wildcards do not form a pattern. -/
  | badPattern (hpattern : isPattern location = true)
      (hread : GlobPattern.ofText? location = none) :
      FailsWith tree location paths (.badPattern location)
  /-- The location stands for no file. -/
  | nothing (hread : isPattern location = true → GlobPattern.ofText? location ≠ none)
      (hpaths : paths = []) : FailsWith tree location paths (nothingSelected location)
  /-- The first file without records is no text. -/
  | unreadable {before after : List String} {path : String} (hsplit : paths = before ++ path :: after)
      (hbefore : ∀ p ∈ before, ∃ records, tree.HoldsRecords p records)
      (hread : tree.readText path = .error .notText) :
      FailsWith tree location paths (.unreadable path .notText)
  /-- The first file without records is another text. -/
  | badText {before after : List String} {path text : String} {fault : JsonFault}
      (hsplit : paths = before ++ path :: after)
      (hbefore : ∀ p ∈ before, ∃ records, tree.HoldsRecords p records)
      (hread : tree.readText path = .ok text)
      (hfault : (Decoder.list Record.decoder).ofText text = .error fault) :
      FailsWith tree location paths (.badText path fault)
  /-- All files hold records, and these make no store. -/
  | badRecords {contents : List (List Record)} {fault : StoreFault} (hpaths : paths ≠ [])
      (hcontents : List.Forall₂ tree.HoldsRecords paths contents)
      (hfault : Store.ofRecords contents.flatten ("file:" ++ location) = .error fault) :
      FailsWith tree location paths (.badRecords fault)

/-- A file does not hold different records. -/
theorem HoldsRecords.unique {records others : List Record} (h : tree.HoldsRecords path records)
    (h' : tree.HoldsRecords path others) : records = others := by
  obtain ⟨text, hread, hrecords⟩ := h
  obtain ⟨other, hread', hothers⟩ := h'
  obtain rfl : text = other := Except.ok.inj (hread.symm.trans hread')
  exact Except.ok.inj (hrecords.symm.trans hothers)

theorem readRecords_eq_ok_iff {records : List Record} :
    readRecords tree path = .ok records ↔ tree.HoldsRecords path records := by
  unfold readRecords HoldsRecords
  cases hread : tree.readText path with
  | error fault => cases fault <;> simp
  | ok text =>
    cases htext : (Decoder.list Record.decoder).ofText text with
    | error fault => simp [htext]
    | ok records => simp [htext]

/-- A file that is there cannot be read for one of two reasons. -/
theorem readRecords_eq_error_iff (hfile : tree.isFile path = true) {cause : SourceFailure} :
    readRecords tree path = .error cause ↔
      (tree.readText path = .error .notText ∧ cause = .unreadable path .notText) ∨
      ∃ text fault, tree.readText path = .ok text ∧
        (Decoder.list Record.decoder).ofText text = .error fault ∧ cause = .badText path fault := by
  unfold readRecords
  -- The file is there. Of all faults of a path only that its bytes are no text is left.
  rcases readText_of_isFile hfile with ⟨text, hread⟩ | hread
  · cases htext : (Decoder.list Record.decoder).ofText text with
    | error fault => simp [hread, htext, eq_comm]
    | ok records => simp [hread, htext]
  · simp [hread, eq_comm]

end FileTree

/-! ## Outcomes -/

open FileTree

variable {tree other : FileTree} {location : String} {hidden : List String}

theorem loadStore_eq (tree : FileTree) (location : String) :
    loadStore tree location = match dataPaths tree location with
      | .error cause => .error cause
      | .ok paths => match paths.mapM (readRecords tree) with
        | .error cause => .error cause
        | .ok contents => match Store.ofRecords contents.flatten ("file:" ++ location) with
          | .error fault => .error (.badRecords fault)
          | .ok store => .ok store := by
  unfold loadStore loadRecords
  cases dataPaths tree location with
  | error cause => rfl
  | ok paths =>
    simp only [bind, Except.bind]
    cases paths.mapM (readRecords tree) with
    | error cause => rfl
    | ok contents =>
      simp only [pure, Except.pure]
      cases Store.ofRecords contents.flatten ("file:" ++ location) <;> rfl

private theorem mapM_readRecords_eq_ok_iff {paths : List String} {contents : List (List Record)} :
    paths.mapM (readRecords tree) = .ok contents ↔
      List.Forall₂ tree.HoldsRecords paths contents := by
  simp only [mapM_eq_ok_iff, readRecords_eq_ok_iff]

/-- A store is made of all selected files together. -/
theorem loadStore_eq_ok_iff {store : Store} :
    loadStore tree location = .ok store ↔
      tree.selected location ≠ [] ∧ ∃ contents,
        List.Forall₂ tree.HoldsRecords (tree.selected location) contents ∧
          Store.ofRecords contents.flatten ("file:" ++ location) = .ok store := by
  rw [loadStore_eq]
  constructor
  · intro h
    cases hpaths : dataPaths tree location with
    | error cause => simp [hpaths] at h
    | ok paths =>
      obtain ⟨rfl, hne⟩ := dataPaths_eq_ok_iff.mp hpaths
      cases hcontents : (tree.selected location).mapM (readRecords tree) with
      | error cause => simp [hpaths, hcontents] at h
      | ok contents =>
        refine ⟨hne, contents, mapM_readRecords_eq_ok_iff.mp hcontents, ?_⟩
        cases hstore : Store.ofRecords contents.flatten ("file:" ++ location) with
        | error fault => simp [hpaths, hcontents, hstore] at h
        | ok made => simpa [hpaths, hcontents, hstore] using h
  · rintro ⟨hne, contents, hcontents, hstore⟩
    simp only [dataPaths_eq_ok_iff.mpr ⟨rfl, hne⟩, mapM_readRecords_eq_ok_iff.mpr hcontents, hstore]

/-- Reading files stops at the first one that is no text or another one than that of records. -/
private theorem mapM_readRecords_eq_error_iff {paths : List String}
    (hfiles : ∀ path ∈ paths, tree.isFile path = true) {cause : SourceFailure} :
    paths.mapM (readRecords tree) = .error cause ↔
      ∃ before path after, paths = before ++ path :: after ∧
        (∀ p ∈ before, ∃ records, tree.HoldsRecords p records) ∧
        ((tree.readText path = .error .notText ∧ cause = .unreadable path .notText) ∨
          ∃ text fault, tree.readText path = .ok text ∧
            (Decoder.list Record.decoder).ofText text = .error fault ∧
              cause = .badText path fault) := by
  simp only [mapM_eq_error_iff, readRecords_eq_ok_iff]
  refine exists_congr fun before => exists_congr fun path => exists_congr fun after => ?_
  refine and_congr_right fun hsplit => and_congr_right fun _ => readRecords_eq_error_iff ?_
  exact hfiles path (by simp [hsplit])

private theorem isFile_of_mem_selected {path : String} (h : path ∈ tree.selected location) :
    tree.isFile path = true :=
  (mem_selected_iff.mp h).1

/-- Whatever loading fails with is a reason to fail. -/
private theorem failsWith_of_loadStore {cause : SourceFailure} (h : loadStore tree location = .error cause) :
    tree.FailsWith location (tree.selected location) cause := by
  rw [loadStore_eq] at h
  -- Loading has three steps: the paths, what their files hold, the store. The first of them that
  -- fails gives the cause.
  cases hpaths : dataPaths tree location with
  | error other =>
    obtain rfl : other = cause := by simpa [hpaths] using h
    rcases dataPaths_eq_error_iff.mp hpaths with ⟨hpattern, hread, rfl⟩ | ⟨hread, hnone, rfl⟩
    · exact .badPattern hpattern hread
    · exact .nothing hread hnone
  | ok paths =>
    obtain ⟨rfl, hne⟩ := dataPaths_eq_ok_iff.mp hpaths
    cases hcontents : (tree.selected location).mapM (readRecords tree) with
    | error other =>
      obtain rfl : other = cause := by simpa [hpaths, hcontents] using h
      obtain ⟨before, path, after, hsplit, hbefore, ⟨hread, rfl⟩ | ⟨text, fault, hread, hfault, rfl⟩⟩ :=
        (mapM_readRecords_eq_error_iff fun _ => isFile_of_mem_selected).mp hcontents
      · exact .unreadable hsplit hbefore hread
      · exact .badText hsplit hbefore hread hfault
    | ok contents =>
      cases hstore : Store.ofRecords contents.flatten ("file:" ++ location) with
      | error fault =>
        obtain rfl : .badRecords fault = cause := by simpa [hpaths, hcontents, hstore] using h
        exact .badRecords hne (mapM_readRecords_eq_ok_iff.mp hcontents) hstore
      | ok store => simp [hpaths, hcontents, hstore] at h

/-- Every reason to fail is what loading fails with: it is met before any other. -/
private theorem loadStore_of_failsWith {cause : SourceFailure}
    (h : tree.FailsWith location (tree.selected location) cause) :
    loadStore tree location = .error cause := by
  -- Both causes that lie in one file, its bytes and its JSON, stop the reading there.
  have hstops {before after : List String} {path : String}
      (hsplit : tree.selected location = before ++ path :: after)
      (hbefore : ∀ p ∈ before, ∃ records, tree.HoldsRecords p records)
      (hpath : (tree.readText path = .error .notText ∧ cause = .unreadable path .notText) ∨
        ∃ text fault, tree.readText path = .ok text ∧
          (Decoder.list Record.decoder).ofText text = .error fault ∧
            cause = .badText path fault) :
      loadStore tree location = .error cause := by
    have hpaths : dataPaths tree location = .ok (tree.selected location) :=
      dataPaths_eq_ok_iff.mpr ⟨rfl, by simp [hsplit]⟩
    have hcontents : (tree.selected location).mapM (readRecords tree) = .error cause :=
      (mapM_readRecords_eq_error_iff fun _ => isFile_of_mem_selected).mpr
        ⟨before, path, after, hsplit, hbefore, hpath⟩
    simp only [loadStore_eq, hpaths, hcontents]
  cases h with
  | badPattern hpattern hread =>
    rw [loadStore_eq, dataPaths_eq_error_iff.mpr (.inl ⟨hpattern, hread, rfl⟩)]
  | nothing hread hnone =>
    rw [loadStore_eq, dataPaths_eq_error_iff.mpr (.inr ⟨hread, hnone, rfl⟩)]
  | unreadable hsplit hbefore hread => exact hstops hsplit hbefore (.inl ⟨hread, rfl⟩)
  | badText hsplit hbefore hread hfault =>
    exact hstops hsplit hbefore (.inr ⟨_, _, hread, hfault, rfl⟩)
  | badRecords hne hcontents hfault =>
    simp only [loadStore_eq, dataPaths_eq_ok_iff.mpr ⟨rfl, hne⟩,
      mapM_readRecords_eq_ok_iff.mpr hcontents, hfault]

theorem loadStore_eq_error_iff {cause : SourceFailure} :
    loadStore tree location = .error cause ↔
      tree.FailsWith location (tree.selected location) cause :=
  ⟨failsWith_of_loadStore, loadStore_of_failsWith⟩

/-! ## Other files -/

/-- A file that is selected in neither of two trees that differ there does not count. -/
theorem FileTree.SameBut.loadStore (h : SameBut hidden tree other) (hproper : tree.IsProper)
    (hproper' : other.IsProper)
    (hselected : ∀ p, tree.IsSelected location p → tree.find? p ≠ .ok hidden)
    (hselected' : ∀ p, other.IsSelected location p → other.find? p ≠ .ok hidden) :
    loadStore other location = loadStore tree location := by
  have hpaths := h.selected hproper hproper' hselected hselected'
  have hread : ∀ path ∈ tree.selected location, readRecords other path = readRecords tree path := by
    intro path hpath
    have hpath := mem_selected_iff.mp hpath
    obtain ⟨bytes, hfind, -⟩ := isFile_iff.mp hpath.1
    -- A selected path leads to its file, so not to the place where the trees differ.
    have hne : tree.namesOf path ≠ hidden := by
      rintro rfl
      exact hselected path hpath hfind
    unfold readRecords
    rw [h.readText hne hpath.1]
  have hdata : dataPaths other location = dataPaths tree location := by
    rw [dataPaths_eq, dataPaths_eq, hpaths]
  rw [loadStore_eq, loadStore_eq, hdata]
  cases hfound : dataPaths tree location with
  | error cause => rfl
  | ok paths =>
    obtain ⟨rfl, -⟩ := dataPaths_eq_ok_iff.mp hfound
    have hcontents : (tree.selected location).mapM (readRecords other)
        = (tree.selected location).mapM (readRecords tree) := mapM_congr hread
    simp only [hcontents]

/-! ## All of it -/

namespace Service

variable {settings : Settings}

theorem load_eq_ok_iff {s : Service} :
    load tree settings = .ok s ↔
      s.settings = settings ∧ Roster.loadStore tree settings.dataPath = .ok s.store := by
  unfold load
  cases Roster.loadStore tree settings.dataPath with
  | error cause => simp
  | ok store =>
    simp only [Except.ok.injEq]
    constructor
    · rintro rfl
      exact ⟨rfl, rfl⟩
    · rintro ⟨rfl, rfl⟩
      rfl

theorem load_eq_error_iff {failure : Failure} :
    load tree settings = .error failure ↔
      ∃ cause, failure = .source cause ∧ Roster.loadStore tree settings.dataPath = .error cause := by
  unfold load
  cases Roster.loadStore tree settings.dataPath with
  | error cause => simp [eq_comm]
  | ok store => simp

end Service

/-- **Loading is all or nothing.** A location stands for some paths: those of the files that are
selected, in path order, and each once unless a pattern lists a path more often. Loading succeeds
exactly if there is one, all of the files hold records, and the ids of all records together are
positive and different; the store then has these records, file by file. Otherwise it fails for the one
reason that `FileTree.FailsWith` gives. A file that is not selected can be made, changed or removed
without any difference. -/
theorem Service.load_outcomes (tree : FileTree) (settings : Settings) :
    ∃ paths : List String,
      (∀ path, path ∈ paths ↔ tree.IsSelected settings.dataPath path) ∧
      paths.Pairwise (fun a b => pathPrecedes a b = true) ∧
      (tree.SelectsOnce settings.dataPath → paths.Nodup) ∧
      ((∃ s, Service.load tree settings = .ok s) ↔
        paths ≠ [] ∧ ∃ contents, List.Forall₂ tree.HoldsRecords paths contents ∧
          Store.IsIndexable contents.flatten) ∧
      (∀ s, Service.load tree settings = .ok s →
        s.settings = settings ∧ ∃ contents, List.Forall₂ tree.HoldsRecords paths contents ∧
          s.store.records = contents.flatten) ∧
      (∀ failure, Service.load tree settings = .error failure ↔
        ∃ cause, failure = .source cause ∧ tree.FailsWith settings.dataPath paths cause) ∧
      ∀ (other : FileTree) (hidden : List String), tree.IsProper → other.IsProper →
        SameBut hidden tree other →
        (∀ path, tree.IsSelected settings.dataPath path → tree.find? path ≠ .ok hidden) →
        (∀ path, other.IsSelected settings.dataPath path → other.find? path ≠ .ok hidden) →
          Service.load other settings = Service.load tree settings := by
  refine ⟨tree.selected settings.dataPath, fun path => mem_selected_iff, tree.pairwise_selected _,
    nodup_selected, ⟨?_, ?_⟩, fun s hs => ?_, fun failure => ?_, ?_⟩
  · rintro ⟨s, hs⟩
    obtain ⟨hne, contents, hcontents, hstore⟩ := loadStore_eq_ok_iff.mp (load_eq_ok_iff.mp hs).2
    exact ⟨hne, contents, hcontents, Store.exists_ofRecords_iff.mp ⟨s.store, hstore⟩⟩
  · rintro ⟨hne, contents, hcontents, hrecords⟩
    obtain ⟨store, hstore⟩ := Store.exists_ofRecords_iff.mpr hrecords
    exact ⟨⟨settings, store⟩,
      load_eq_ok_iff.mpr ⟨rfl, loadStore_eq_ok_iff.mpr ⟨hne, contents, hcontents, hstore⟩⟩⟩
  · obtain ⟨hsettings, hload⟩ := load_eq_ok_iff.mp hs
    obtain ⟨-, contents, hcontents, hstore⟩ := loadStore_eq_ok_iff.mp hload
    exact ⟨hsettings, contents, hcontents, Store.records_of_ofRecords hstore⟩
  · simp only [load_eq_error_iff, loadStore_eq_error_iff]
  · intro other hidden hproper hproper' h hselected hselected'
    unfold load
    rw [h.loadStore hproper hproper' hselected hselected']

/-- A file with the JSON of records. -/
def dataFile (records : List Record) : FileEntry :=
  .file (Json.array (records.map Record.json)).compact.toUTF8

private theorem holdsRecords_of_entry {path : String} {names : List String} {records : List Record}
    (hfind : tree.find? path = .ok names)
    (hentry : tree.entryAt? names = some (dataFile records)) : tree.HoldsRecords path records :=
  ⟨_, readText_of_toUTF8 hfind hentry, (Record.decodes_array records).2⟩

/-- A data file and a file of another kind in the current folder. -/
def notesTree : FileTree :=
  ⟨[(["users.json"], dataFile [{ id := 1, name := "Ann" }]), (["notes.csv"], .file .empty)], []⟩

/-- Notes beside the data do not count, nor does a change of them. -/
theorem Service.load_outcomes_notes :
    ∃ s, Service.load notesTree { dataPath := "*.json" } = .ok s ∧
      s.store.records = [{ id := 1, name := "Ann" }] ∧
      Service.load (notesTree.insertFile "notes.csv" "2".toUTF8) { dataPath := "*.json" } = .ok s := by
  let changed := notesTree.insertFile "notes.csv" "2".toUTF8
  let pattern : GlobPattern := ⟨false, [.tokens (.anySequence :: ".json".toList.map .literal)], false⟩
  have hpattern : isPattern "*.json" = true := by decide
  have hread : GlobPattern.ofText? "*.json" = some pattern := by decide +kernel
  have hpaths : ((notesTree.select pattern).map Place.path).filter notesTree.isData
      = ["users.json"] := by decide +kernel
  have hpaths' : ((changed.select pattern).map Place.path).filter changed.isData
      = ["users.json"] := by decide +kernel
  obtain ⟨paths, hselected, -, hnodup, hok, hrecords, -, hother⟩ :=
    Service.load_outcomes notesTree { dataPath := "*.json" }
  -- One path cannot repeat, so the members of the list say what the list is.
  have honce : notesTree.SelectsOnce "*.json" := by
    intro _ other hother
    obtain rfl := Option.some.inj (hread.symm.trans hother)
    rw [hpaths]
    exact List.nodup_singleton _
  obtain rfl : paths = ["users.json"] := by
    refine List.perm_singleton.mp ((List.perm_ext_iff_of_nodup (hnodup honce)
      (List.nodup_singleton _)).mpr fun path => ?_)
    rw [hselected, isSelected_iff_of_pattern hpattern hread, hpaths]
  have hholds : notesTree.HoldsRecords "users.json" [{ id := 1, name := "Ann" }] := by
    have hfind : notesTree.find? "users.json" = .ok ["users.json"] := by decide +kernel
    exact holdsRecords_of_entry hfind rfl
  obtain ⟨s, hs⟩ := hok.mpr ⟨by simp, [[{ id := 1, name := "Ann" }]], .cons hholds .nil,
    ⟨by decide, by decide⟩⟩
  obtain ⟨-, contents, hcontents, hstore⟩ := hrecords s hs
  refine ⟨s, hs, ?_, ?_⟩
  · rw [hstore]
    cases hcontents with
    | cons hfirst hrest =>
      cases hrest
      rw [hfirst.unique hholds]
      rfl
  · have hnames : notesTree.namesOf "notes.csv" = ["notes.csv"] := by decide +kernel
    have hproper : notesTree.IsProper := by
      refine ⟨by simp [notesTree], fun entry hentry name hname => ?_⟩
      rcases List.mem_pair.mp hentry with rfl | rfl <;> obtain rfl := List.mem_singleton.mp hname <;>
        exact ⟨by decide, by decide, by decide, by decide⟩
    have hchange : SameBut ["notes.csv"] notesTree changed := by
      rw [← hnames]
      refine sameBut_insertFile _ ?_ ?_ <;> rw [hnames]
      · rw [ne_eq, entryAt?_eq_folder_iff]
        decide
      · exact entryAt?_eq_folder_iff.mpr (by decide)
    have helsewhere {tree : FileTree} (hnames : tree.namesOf "users.json" = ["users.json"])
        (hpaths : ((tree.select pattern).map Place.path).filter tree.isData = ["users.json"])
        (path : String) (h : tree.IsSelected "*.json" path) : tree.find? path ≠ .ok ["notes.csv"] := by
      rw [isSelected_iff_of_pattern hpattern hread, hpaths] at h
      obtain rfl := List.mem_singleton.mp h
      intro hfind
      exact absurd ((find?_eq_namesOf hfind).trans hnames) (by decide)
    rw [hother changed ["notes.csv"] hproper (hproper.insertFile _ _) hchange
      (helsewhere (by decide +kernel) hpaths) (helsewhere (by decide +kernel) hpaths'), hs]

/-- One data file, two folders down. -/
def deepTree : FileTree :=
  ⟨[(["a", "b", "f.json"], dataFile [{ id := 7 }])], []⟩

/-- The pattern matches the path of the only data file in two ways, with a folder before or after the
star. The file is read as often, and its id is reported as a repeated one. -/
theorem Service.load_outcomes_listedTwice :
    (∀ path, deepTree.IsSelected "**/*/**/f.json" path ↔ path = "a/b/f.json") ∧
    deepTree.HoldsRecords "a/b/f.json" [{ id := 7 }] ∧ Store.IsIndexable [{ id := 7 }] ∧
    Service.load deepTree { dataPath := "**/*/**/f.json" }
      = .error (.source (.badRecords (.duplicateId 7))) := by
  let pattern : GlobPattern :=
    ⟨false, [.anyFolders, .tokens [.anySequence], .anyFolders, .name "f.json"], false⟩
  have hselected : deepTree.selected "**/*/**/f.json" = ["a/b/f.json", "a/b/f.json"] := by
    have hread : GlobPattern.ofText? "**/*/**/f.json" = some pattern := by decide +kernel
    have hpaths : ((deepTree.select pattern).map Place.path).filter deepTree.isData
        = ["a/b/f.json", "a/b/f.json"] := by decide +kernel
    rw [selected, if_pos (by decide), hread]
    simp only [hpaths]
    exact List.mergeSort_of_pairwise (by decide)
  have hholds : deepTree.HoldsRecords "a/b/f.json" [{ id := 7 }] := by
    have hfind : deepTree.find? "a/b/f.json" = .ok ["a", "b", "f.json"] := by decide +kernel
    exact holdsRecords_of_entry hfind rfl
  refine ⟨fun path => ?_, hholds, ⟨by decide, by decide⟩, ?_⟩
  · rw [← mem_selected_iff, hselected]
    simp
  · refine Service.load_eq_error_iff.mpr ⟨_, rfl, loadStore_eq_error_iff.mpr ?_⟩
    rw [hselected]
    refine .badRecords (by simp) (.cons hholds (.cons hholds .nil)) ?_
    simp [Store.ofRecords, Store.addToIndex, Except.map]

end Roster
