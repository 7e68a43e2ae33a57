import Roster.Proofs.Files.Paths
import Roster.Proofs.Text.Cutting

/-!
# What patterns list

- **Reading** (`GlobPattern.notMem_of_ofText?`): no name in a pattern has a slash in it.
- **Places** (`FileTree.isAt_of_mem_select`): what a pattern lists is where its path says, if all names
  in the tree are names of files (`FileTree.IsProper`).
- **One place** (`FileTree.SameBut.select`): two trees that differ at one place list the same for a
  pattern, in the same order, but for what they list at this place.
-/

namespace Roster

open Text

/-! ## Reading -/

private theorem notMem_of_mem_splitOn {c : Char} {cs piece : List Char} (h : piece ∈ cs.splitOn c) :
    c ∉ piece := by
  induction cs generalizing piece with
  | nil =>
    obtain rfl : piece = [] := by simpa [List.splitOn_nil] using h
    exact List.not_mem_nil
  | cons d cs ih =>
    rw [List.splitOn_cons_eq_if_modifyHead] at h
    split at h
    · rcases List.mem_cons.mp h with rfl | h
      · exact List.not_mem_nil
      · exact ih h
    · rename_i hne
      obtain ⟨first, rest, hcut⟩ := List.exists_cons_of_ne_nil (List.splitOn_ne_nil c cs)
      rw [hcut, List.modifyHead_cons] at h
      rw [hcut] at ih
      rcases List.mem_cons.mp h with rfl | h
      · have hfirst := ih List.mem_cons_self
        have hdc : c ≠ d := fun heq => hne (beq_iff_eq.mpr heq.symm)
        simp [hdc, hfirst]
      · exact ih (List.mem_cons_of_mem first h)

/-- What is read from a row of texts is read from one of them. -/
private theorem exists_of_mem_mapM {α β : Type} {f : α → Option β} {items : List α} {values : List β}
    (h : items.mapM f = some values) {b : β} (hb : b ∈ values) : ∃ a ∈ items, f a = some b := by
  induction items generalizing values with
  | nil =>
    cases h
    cases hb
  | cons a items ih =>
    rw [List.mapM_cons] at h
    obtain ⟨first, hfirst, h⟩ := Option.bind_eq_some_iff.mp h
    obtain ⟨rest, hrest, h⟩ := Option.bind_eq_some_iff.mp h
    cases h
    rcases List.mem_cons.mp hb with rfl | hb
    · exact ⟨a, List.mem_cons_self, hfirst⟩
    · obtain ⟨other, hother, heq⟩ := ih hrest hb
      exact ⟨other, List.mem_cons_of_mem a hother, heq⟩

private theorem notMem_of_mem_pieces {cs piece : List Char} (h : piece ∈ pieces cs) : '/' ∉ piece := by
  simp only [pieces] at h
  split at h
  · exact notMem_of_mem_splitOn (List.mem_of_mem_dropLast h)
  · exact notMem_of_mem_splitOn h

namespace GlobToken

/-- A set is no character, and what stands behind it stands in the text. -/
theorem of_set? {cs rest : List Char} {token : GlobToken} (h : set? cs = some (token, rest)) :
    (∀ c, token ≠ .literal c) ∧ ∀ c ∈ rest, c ∈ cs := by
  have hcut {as inside rest : List Char} (h : cut? [']'] as = some (inside, rest)) :
      ∀ c ∈ rest, c ∈ as := by
    intro c hc
    rw [eq_append_of_cut? h]
    exact List.mem_append_right _ hc
  unfold set? at h
  split at h
  · obtain ⟨⟨inside, _⟩, hfound, heq⟩ := Option.map_eq_some_iff.mp h
    cases heq
    refine ⟨fun c => by simp, fun c hc => ?_⟩
    exact List.mem_cons_of_mem _ (List.mem_cons_of_mem _ (hcut hfound c hc))
  · cases h
  · obtain ⟨⟨inside, _⟩, hfound, heq⟩ := Option.map_eq_some_iff.mp h
    cases heq
    exact ⟨fun c => by simp, fun c hc => List.mem_cons_of_mem _ (hcut hfound c hc)⟩
  · cases h

/-- The characters that tokens stand for without a choice stand in the text. -/
theorem mem_of_ofText? {fuel : Nat} {cs : List Char} {tokens : List GlobToken}
    (h : ofText? fuel cs = some tokens) {c : Char} (hc : .literal c ∈ tokens) : c ∈ cs := by
  fun_induction ofText? fuel cs generalizing tokens with
  | case1 => simp_all
  | case2 => cases h
  | case3 fuel cs ih =>
    obtain ⟨rest, hrest, rfl⟩ := Option.map_eq_some_iff.mp h
    exact List.mem_cons_of_mem _ (ih hrest (by simpa using hc))
  | case4 => cases h
  | case5 fuel cs _ ih =>
    obtain ⟨rest, hrest, rfl⟩ := Option.map_eq_some_iff.mp h
    exact List.mem_cons_of_mem _ (ih hrest (by simpa using hc))
  | case6 fuel cs ih =>
    obtain ⟨⟨token, rest⟩, hset, htokens⟩ := Option.bind_eq_some_iff.mp h
    obtain ⟨others, hothers, htokens⟩ := Option.bind_eq_some_iff.mp htokens
    cases htokens
    obtain ⟨htoken, hrest⟩ := of_set? hset
    -- A set leaves a choice, so it is none of the literals.
    rcases List.mem_cons.mp hc with heq | hc
    · exact absurd heq.symm (htoken c)
    · exact List.mem_cons_of_mem _ (hrest c (ih rest hothers hc))
  | case7 fuel d cs _ _ _ _ ih =>
    obtain ⟨rest, hrest, rfl⟩ := Option.map_eq_some_iff.mp h
    rcases List.mem_cons.mp hc with heq | hc
    · cases heq
      exact List.mem_cons_self
    · exact List.mem_cons_of_mem _ (ih hrest hc)

end GlobToken

namespace GlobComponent

/-- The name that a component stands for has the characters of its text. -/
theorem mem_of_ofText? {cs : List Char} {s : String} (h : ofText? cs = some (.name s)) {c : Char}
    (hc : c ∈ s.toList) : c ∈ cs := by
  unfold ofText? at h
  split at h
  · cases h
  · obtain ⟨tokens, htokens, h⟩ := Option.map_eq_some_iff.mp h
    split at h
    · rename_i literal hliteral
      cases h
      rw [String.toList_ofList] at hc
      obtain ⟨token, htoken, hc⟩ := exists_of_mem_mapM hliteral hc
      cases token <;> cases hc
      exact GlobToken.mem_of_ofText? htokens htoken
    · cases h

private theorem mem_of_mem_collapse {component : GlobComponent} {components : List GlobComponent}
    (h : component ∈ collapse components) : component ∈ components := by
  fun_induction collapse components with
  | case1 cs ih => exact List.mem_cons_of_mem _ (ih h)
  | case2 c cs _ ih =>
    rcases List.mem_cons.mp h with rfl | h
    · exact List.mem_cons_self
    · exact List.mem_cons_of_mem _ (ih h)
  | case3 => cases h

end GlobComponent

/-- Components in which no name has a slash. -/
def AreNames (components : List GlobComponent) : Prop :=
  ∀ s, GlobComponent.name s ∈ components → '/' ∉ s.toList

theorem GlobPattern.areNames_of_ofText? {text : String} {pattern : GlobPattern}
    (h : ofText? text = some pattern) : AreNames pattern.components := by
  obtain ⟨components, hcomponents, hpattern⟩ := Option.bind_eq_some_iff.mp h
  cases hpattern
  intro s hs hslash
  obtain ⟨piece, hpiece, hread⟩ :=
    exists_of_mem_mapM hcomponents (GlobComponent.mem_of_mem_collapse hs)
  exact notMem_of_mem_pieces hpiece (GlobComponent.mem_of_ofText? hread hslash)

/-! ## Places -/

namespace Place

/-- Whether a place is where its path says. -/
structure IsAt (tree : FileTree) (here : Place) : Prop where
  ne_empty : here.path ≠ ""
  names : tree.namesOf here.path = here.names

variable {tree : FileTree} {here : Place} {name : String}

theorem names_step (here : Place) (name : String) : (here.step name).names = advance here.names name :=
  rfl

theorem names_enter (here : Place) (name : String) :
    (here.enter name).names = advance here.names name := by
  unfold enter
  split <;> rfl

theorem IsAt.step (h : here.IsAt tree) (hname : '/' ∉ name.toList) : (here.step name).IsAt tree := by
  obtain ⟨hne, hnames⟩ := h
  refine ⟨?_, ?_⟩
  · unfold Place.step
    split <;> simp [hne]
  · rw [names_step, ← hnames]
    -- A slash is put between the path and the name, unless the path ends in one or there is no name.
    by_cases hend : (name.isEmpty || "/".toList.isSuffixOf here.path.toList) = true
    · simp only [Place.step, if_pos hend]
      rcases Bool.or_eq_true_iff.mp hend with hempty | hslash
      · obtain rfl := String.isEmpty_iff.mp hempty
        rw [String.append_empty]
        rfl
      · exact FileTree.namesOf_append_of_suffix hslash hname
    · simp only [Place.step, if_neg hend]
      exact FileTree.namesOf_append_slash hne hname

/-- In the current folder a name alone leads to the same place. -/
theorem IsAt.namesOf_of_isCurrent (h : here.IsAt tree) (hcurrent : here.isCurrent = true)
    (hname : '/' ∉ name.toList) (hne : name ≠ "") : tree.namesOf name = advance here.names name := by
  have hdots : ∀ s ∈ pathNames here.path, s = "." := by
    simpa [Place.isCurrent] using hcurrent
  have hstay (names : List String) (hnames : ∀ s ∈ names, s = ".") (start : List String) :
      names.foldl advance start = start := by
    induction names with
    | nil => rfl
    | cons s names ih =>
      obtain rfl := hnames s List.mem_cons_self
      exact ih fun t ht => hnames t (List.mem_cons_of_mem _ ht)
  have hhere : here.names = tree.current := by
    have hstart : tree.startOf here.path = tree.current :=
      FileTree.startOf_of_notMem fun hempty => absurd (hdots "" hempty) (by decide)
    rw [← h.names, FileTree.namesOf_eq_foldl, hstay _ hdots, hstart]
  have hstart : tree.startOf name = tree.current :=
    FileTree.startOf_of_notMem (by simpa [pathNames_of_noSlash hname] using Ne.symm hne)
  rw [FileTree.namesOf_eq_foldl, hstart, pathNames_of_noSlash hname, hhere]
  rfl

theorem IsAt.enter (h : here.IsAt tree) (hname : '/' ∉ name.toList)
    (hne : (here.enter name).path ≠ "") : (here.enter name).IsAt tree := by
  by_cases hcurrent : here.isCurrent = true
  · refine ⟨hne, ?_⟩
    rw [names_enter]
    simp only [Place.enter, if_pos hcurrent] at hne ⊢
    exact h.namesOf_of_isCurrent hcurrent hname hne
  · simp only [Place.enter, if_neg hcurrent]
    exact h.step hname

private theorem path_enter_ne_empty (here : Place) (hname : name ≠ "") : (here.enter name).path ≠ "" := by
  unfold enter step
  split
  · exact hname
  · dsimp only
    split <;> simp [hname]

end Place

namespace FileTree

variable {tree other : FileTree} {here place : Place} {components : List GlobComponent}
  {names hidden : List String}

/-- A tree all of whose names are names of files. -/
structure IsProper (tree : FileTree) : Prop where
  current : ∀ name ∈ tree.current, IsFileName name
  entries : ∀ entry ∈ tree.entries, ∀ name ∈ entry.1, IsFileName name

/-- All names that lead to something are names of files. -/
theorem IsProper.isFileName (h : tree.IsProper) (hnames : (tree.entryAt? names).isSome = true) :
    ∀ name ∈ names, IsFileName name := by
  intro name hname
  rcases isSome_entryAt?_iff.mp hnames with hway | ⟨entry, hentry, hway⟩
  · exact h.current name (hway.subset hname)
  · exact h.entries entry hentry name (hway.subset hname)

/-- The names of a path that lead on are names of files. -/
theorem IsProper.namesOf (h : tree.IsProper) (path : String) :
    ∀ name ∈ tree.namesOf path, IsFileName name := by
  have hsteps (names here : List String) (hnames : ∀ s ∈ names, '/' ∉ s.toList)
      (hhere : ∀ s ∈ here, IsFileName s) : ∀ s ∈ names.foldl advance here, IsFileName s := by
    induction names generalizing here with
    | nil => exact hhere
    | cons name names ih =>
      refine ih _ (fun s hs => hnames s (List.mem_cons_of_mem name hs)) fun s hs => ?_
      -- A step stays, drops the last name, or adds one that is neither empty nor `.` nor `..`.
      unfold advance at hs
      split at hs
      · exact hhere s hs
      · rename_i hstay
        split at hs
        · exact hhere s (List.mem_of_mem_dropLast hs)
        · rename_i hparent
          rcases List.mem_append.mp hs with hs | hs
          · exact hhere s hs
          · obtain rfl := List.mem_singleton.mp hs
            simp only [Bool.or_eq_true, beq_iff_eq, not_or] at hstay hparent
            exact ⟨hstay.1, hstay.2, hparent, hnames s List.mem_cons_self⟩
  rw [namesOf_eq_foldl]
  refine hsteps _ _ (fun s hs => ?_) fun s hs => ?_
  · obtain ⟨piece, hpiece, rfl⟩ := List.mem_map.mp hs
    rw [String.toList_ofList]
    exact notMem_of_mem_splitOn hpiece
  · unfold startOf at hs
    split at hs
    · cases hs
    · exact h.current s hs

/-- Making a file at the end of a path leaves only names of files. -/
theorem IsProper.insertFile (h : tree.IsProper) (path : String) (bytes : ByteArray) :
    (tree.insertFile path bytes).IsProper where
  current := h.current
  entries := by
    intro entry hentry
    rcases List.mem_cons.mp hentry with rfl | hentry
    · exact h.namesOf path
    · exact h.entries entry hentry

theorem isFolder_iff :
    tree.isFolder here = true ↔
      here.path ≠ "" ∧ here.path.utf8ByteSize ≤ longestPath ∧
        tree.entryAt? here.names = some .folder := by
  unfold isFolder entry?
  by_cases hpath : (here.path.isEmpty || decide (longestPath < here.path.utf8ByteSize)) = true
  · rw [if_pos hpath]
    simp only [Bool.or_eq_true, String.isEmpty_iff, decide_eq_true_eq] at hpath
    refine iff_of_false (by simp) fun ⟨hne, hshort, _⟩ => hpath.elim hne (Nat.not_lt.mpr hshort)
  · rw [if_neg hpath]
    simp only [Bool.or_eq_true, String.isEmpty_iff, decide_eq_true_eq, not_or, Nat.not_lt] at hpath
    cases hentry : tree.entryAt? here.names with
    | none => simp
    | some entry => cases entry <;> simp [hpath]

/-- What is below a folder has names of files on the way. -/
private theorem isSome_of_mem_below {depth : Nat} {folder : List String}
    (h : names ∈ tree.below depth folder) : (tree.entryAt? (folder ++ names)).isSome = true := by
  induction depth generalizing folder names with
  | zero => cases h
  | succ depth ih =>
    obtain ⟨name, hname, h⟩ := List.mem_flatMap.mp h
    rcases List.mem_cons.mp h with rfl | h
    · exact mem_children.mp hname
    · obtain ⟨rest, hrest, rfl⟩ := List.mem_map.mp h
      simpa using ih hrest

/-- Entering names of files one after the other. -/
private theorem names_foldl_enter (hnames : ∀ name ∈ names, IsFileName name) (here : Place) :
    (names.foldl Place.enter here).names = here.names ++ names := by
  induction names generalizing here with
  | nil => simp
  | cons name names ih =>
    rw [List.foldl_cons, ih (fun s hs => hnames s (List.mem_cons_of_mem name hs)),
      Place.names_enter, (hnames name List.mem_cons_self).advance, List.append_assoc,
      List.singleton_append]

theorem isAt_foldl_enter (hhere : here.IsAt tree) (hnames : ∀ name ∈ names, IsFileName name) :
    (names.foldl Place.enter here).IsAt tree := by
  induction names generalizing here with
  | nil => exact hhere
  | cons name names ih =>
    have hname := hnames name List.mem_cons_self
    exact ih (hhere.enter hname.noSlash (here.path_enter_ne_empty hname.ne_empty))
      fun s hs => hnames s (List.mem_cons_of_mem name hs)

theorem IsProper.isAt_of_mem_placesBelow (h : tree.IsProper) (hhere : here.IsAt tree)
    (hplace : place ∈ tree.placesBelow here) : place.IsAt tree := by
  obtain ⟨names, hnames, rfl⟩ := List.mem_map.mp hplace
  have hproper := h.isFileName (isSome_of_mem_below hnames)
  exact isAt_foldl_enter hhere fun name hname => hproper name (List.mem_append_right _ hname)

/-- What components lead to from a place is where its path says. -/
theorem IsProper.isAt_of_mem_places (h : tree.IsProper) (hcomponents : AreNames components)
    (hhere : here.IsAt tree) (hplace : place ∈ tree.places components here) :
    place.IsAt tree := by
  fun_induction places tree components here with
  | case1 here =>
    obtain rfl := List.mem_singleton.mp hplace
    exact hhere
  | case2 s components here next hnext ih =>
    obtain ⟨-, hentry⟩ := Bool.and_eq_true_iff.mp hnext
    -- There is no entry at an empty path.
    have hne : next.path ≠ "" := by
      intro hempty
      simp [hempty, entry?] at hentry
    exact ih (fun t ht => hcomponents t (List.mem_cons_of_mem _ ht))
      (hhere.enter (hcomponents s List.mem_cons_self) hne) hplace
  | case3 => cases hplace
  | case4 ts components here hfolder special listed ih =>
    have hcomponents : AreNames components := fun t ht => hcomponents t (List.mem_cons_of_mem _ ht)
    obtain ⟨next, hnext, hplace⟩ := List.mem_flatMap.mp hplace
    refine ih next hcomponents ?_ hplace
    rcases List.mem_append.mp hnext with hnext | hnext
    · obtain ⟨name, hname, rfl⟩ := List.mem_map.mp hnext
      -- The names `.` and `..` are no names of files, but they are steps of a walk.
      refine hhere.step ?_
      dsimp only [special] at hname
      split at hname
      · have hspecial := (List.mem_filter.mp hname).1
        rcases List.mem_pair.mp hspecial with rfl | rfl <;> decide
      · cases hname
    · obtain ⟨name, hname, rfl⟩ := List.mem_map.mp hnext
      have hname : IsFileName name :=
        h.isFileName (mem_children.mp (List.mem_filter.mp hname).1) name (by simp)
      exact hhere.enter hname.noSlash (here.path_enter_ne_empty hname.ne_empty)
  | case5 => cases hplace
  | case6 here =>
    exact h.isAt_of_mem_placesBelow hhere (List.mem_filter.mp hplace).1
  | case7 component components here ih =>
    obtain ⟨next, hnext, hplace⟩ := List.mem_flatMap.mp hplace
    refine ih next (fun t ht => hcomponents t ?_) ?_ hplace
    · exact List.mem_cons_of_mem _ (List.mem_cons_of_mem _ ht)
    · exact h.isAt_of_mem_placesBelow hhere (List.mem_filter.mp hnext).1

/-- The place that a pattern starts from. -/
def startOfPattern (tree : FileTree) (pattern : GlobPattern) : Place :=
  if pattern.fromRoot then ⟨"/", []⟩ else ⟨".", tree.current⟩

theorem isAt_startOfPattern (tree : FileTree) (pattern : GlobPattern) :
    (tree.startOfPattern pattern).IsAt tree := by
  unfold startOfPattern
  split
  · exact ⟨by simp, rfl⟩
  · have hdot : pathNames "." = ["."] := pathNames_of_noSlash (by decide)
    refine ⟨by simp, ?_⟩
    rw [namesOf_eq_foldl, startOf_of_notMem (by rw [hdot]; decide), hdot]
    rfl

/-- What a pattern lists is where its path says. -/
theorem IsProper.isAt_of_mem_select (h : tree.IsProper) {text : String} {pattern : GlobPattern}
    (hpattern : GlobPattern.ofText? text = some pattern) (hplace : place ∈ tree.select pattern) :
    place.IsAt tree :=
  h.isAt_of_mem_places (GlobPattern.areNames_of_ofText? hpattern) (tree.isAt_startOfPattern pattern)
    (List.mem_filter.mp hplace).1

/-! ## One place -/

/-- Places other than the one with given names. -/
def elsewhere (hidden : List String) (place : Place) : Bool :=
  place.names ≠ hidden

theorem elsewhere_eq_true_iff : elsewhere hidden place = true ↔ place.names ≠ hidden := by
  simp [elsewhere]

theorem elsewhere_eq_false_iff : elsewhere hidden place = false ↔ place.names = hidden := by
  simp [elsewhere]

/-- Where there is no folder components lead no further. -/
private theorem filter_places_of_names_eq (hfile : tree.entryAt? hidden ≠ some .folder)
    (hhere : here.names = hidden) (components : List GlobComponent) :
    (tree.places components here).filter (elsewhere hidden) = [] := by
  subst hhere
  have hfolder : tree.isFolder here = false :=
    Bool.eq_false_iff.mpr fun h => hfile (isFolder_iff.mp h).2.2
  have hbelow : tree.placesBelow here = [] := by
    rw [placesBelow, below_eq_nil hfile, List.map_nil]
  fun_cases places tree components here <;> simp_all [elsewhere]

/-- Entering the one place leads no further. -/
theorem IsProper.filter_places_enter (h : tree.IsProper) (hfile : tree.entryAt? hidden ≠ some .folder)
    {name : String} (hname : name ∈ tree.children here.names)
    (hhidden : here.names ++ [name] = hidden) :
    (tree.places components (here.enter name)).filter (elsewhere hidden) = [] := by
  have hname : IsFileName name := h.isFileName (mem_children.mp hname) name (by simp)
  refine filter_places_of_names_eq hfile ?_ components
  rw [Place.names_enter, hname.advance, hhidden]

namespace SameBut

theorem isFolder (h : SameBut hidden tree other) (place : Place) :
    other.isFolder place = tree.isFolder place := by
  rw [Bool.eq_iff_iff, isFolder_iff, isFolder_iff]
  refine and_congr_right fun _ => and_congr_right fun _ => ?_
  by_cases hplace : place.names = hidden
  · rw [hplace]
    exact iff_of_false h.notFolder' h.notFolder
  · rw [h.entryAt _ hplace]

theorem entry? (h : SameBut hidden tree other) (hplace : place.names ≠ hidden) :
    other.entry? place = tree.entry? place := by
  unfold FileTree.entry?
  rw [h.entryAt _ hplace]

theorem placesBelow (h : SameBut hidden tree other) (hproper : tree.IsProper)
    (hproper' : other.IsProper) (here : Place) :
    (tree.placesBelow here).filter (elsewhere hidden)
      = (other.placesBelow here).filter (elsewhere hidden) := by
  have hplaces {tree : FileTree} (hproper : tree.IsProper) :
      (tree.placesBelow here).filter (elsewhere hidden)
        = ((tree.below tree.depth here.names).filter fun names => here.names ++ names ≠ hidden).map
          fun names => names.foldl Place.enter here := by
    rw [FileTree.placesBelow, List.filter_map]
    refine congrArg _ (List.filter_congr fun names hnames => ?_)
    have hnames := hproper.isFileName (isSome_of_mem_below hnames)
    simp [elsewhere, names_foldl_enter fun name hname => hnames name (List.mem_append_right _ hname)]
  rw [hplaces hproper, hplaces hproper', h.below_depth]

/-- Components lead to the same places in both trees, but for the one place. -/
theorem places (h : SameBut hidden tree other) (hproper : tree.IsProper) (hproper' : other.IsProper)
    (components : List GlobComponent) (here : Place) :
    (tree.places components here).filter (elsewhere hidden)
      = (other.places components here).filter (elsewhere hidden) := by
  fun_induction FileTree.places tree components here with
  | case1 => rfl
  | case2 s components here next hnext ih =>
    rw [FileTree.places, h.isFolder]
    -- From the one place no component leads further, in either tree. Elsewhere the entries are the same.
    by_cases hhidden : next.names = hidden
    · rw [filter_places_of_names_eq h.notFolder hhidden]
      split
      · exact (filter_places_of_names_eq h.notFolder' hhidden _).symm
      · rfl
    · rw [h.entry? hhidden, if_pos hnext]
      exact ih
  | case3 s components here next hnext =>
    rw [FileTree.places, h.isFolder]
    by_cases hhidden : next.names = hidden
    · split
      · exact (filter_places_of_names_eq h.notFolder' hhidden _).symm
      · rfl
    · rw [h.entry? hhidden, if_neg hnext]
  | case4 ts components here hfolder special listed ih =>
    rw [FileTree.places, h.isFolder, if_pos hfolder, List.flatMap_append, List.flatMap_append,
      List.filter_append, List.filter_append]
    -- First the steps `.` and `..`, then the entries of the folder, which may hold the one place.
    refine congrArg₂ (· ++ ·) ?_ ?_ <;>
      rw [List.filter_flatMap, List.filter_flatMap, List.flatMap_map, List.flatMap_map]
    · exact List.flatMap_congr fun name _ => ih (here.step name)
    · refine flatMap_congr_of_filter (fun name => here.names ++ [name] ≠ hidden) ?_
        (fun name _ => ih (here.enter name)) (fun name hname hlast => ?_)
        (fun name hname hlast => ?_)
      · rw [List.filter_comm, h.children, List.filter_comm]
      · exact hproper.filter_places_enter h.notFolder (List.mem_filter.mp hname).1 (by simpa using hlast)
      · exact hproper'.filter_places_enter h.notFolder' (List.mem_filter.mp hname).1
          (by simpa using hlast)
  | case5 ts components here hfolder =>
    rw [FileTree.places, h.isFolder, if_neg hfolder]
  | case6 here =>
    rw [FileTree.places, funext h.isFolder, List.filter_comm, h.placesBelow hproper hproper',
      List.filter_comm]
  | case7 component components here ih =>
    rw [FileTree.places, List.filter_flatMap, List.filter_flatMap]
    refine flatMap_congr_of_filter (elsewhere hidden) ?_ (fun place _ => ih place)
      (fun place _ hplace => ?_) (fun place _ hplace => ?_)
    · rw [List.filter_comm, h.placesBelow hproper hproper', List.filter_comm]
    · exact filter_places_of_names_eq h.notFolder (elsewhere_eq_false_iff.mp hplace) _
    · exact filter_places_of_names_eq h.notFolder' (elsewhere_eq_false_iff.mp hplace) _

/-- A pattern lists the same in both trees, but for the one place. -/
theorem select (h : SameBut hidden tree other) (hproper : tree.IsProper) (hproper' : other.IsProper)
    (pattern : GlobPattern) :
    (tree.select pattern).filter (elsewhere hidden)
      = (other.select pattern).filter (elsewhere hidden) := by
  have hstart : other.startOfPattern pattern = tree.startOfPattern pattern := by
    rw [startOfPattern, h.current, startOfPattern]
  have hplaces := h.places hproper hproper' pattern.components (tree.startOfPattern pattern)
  have hselect (tree : FileTree) : tree.select pattern
      = (tree.places pattern.components (tree.startOfPattern pattern)).filter fun place =>
        !pattern.foldersOnly || tree.isFolder place := rfl
  rw [hselect, hselect, hstart, funext h.isFolder, List.filter_comm, hplaces, List.filter_comm]

end SameBut

end FileTree

end Roster
