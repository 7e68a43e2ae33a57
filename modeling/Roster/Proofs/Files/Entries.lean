import Roster.Files.Tree
import Roster.Proofs.Statistics.Ascending

/-!
# What stands in a tree

- **Entries** (`isSome_entryAt?_iff`): names lead to something if they lead to an entry or to the
  current folder, or are on the way there.
- **Folders** (`mem_children`): a folder lists exactly the names that lead on from it. What is below
  it is found at every depth that is not less than that of the tree (`below_of_depth_le`).
- **One place** (`SameBut`): two trees that differ at one place, where neither has a folder, as when a
  file is made or changed there (`sameBut_insertFile`). Apart from this place their folders list the
  same names in the same order (`SameBut.children`), and the same is below them
  (`SameBut.below_depth`).
-/

namespace Roster.FileTree

variable {tree other : FileTree} {names folder hidden : List String} {name : String}

/-! ## Entries -/

theorem isFolderAt_iff :
    tree.isFolderAt names = true ↔ names <+: tree.current ∨
      ∃ entry ∈ tree.entries, names <+: entry.1 ∧
        ∀ bytes, entry.2 = .file bytes → names.length < entry.1.length := by
  rw [isFolderAt, Bool.or_eq_true, List.isPrefixOf_iff_prefix, List.any_eq_true]
  refine or_congr_right (exists_congr fun entry => and_congr_right fun _ => ?_)
  obtain ⟨place, entry⟩ := entry
  cases entry <;> simp

/-- Names lead to something exactly if an entry or the current folder is there or further on. -/
theorem isSome_entryAt?_iff :
    (tree.entryAt? names).isSome = true ↔
      names <+: tree.current ∨ ∃ entry ∈ tree.entries, names <+: entry.1 := by
  unfold entryAt?
  split
  · rename_i hfolder
    refine iff_of_true rfl ((isFolderAt_iff.mp hfolder).imp_right ?_)
    rintro ⟨entry, hentry, hway, -⟩
    exact ⟨entry, hentry, hway⟩
  · rename_i hfolder
    rw [Option.isSome_map, List.find?_isSome]
    constructor
    · rintro ⟨entry, hentry, heq⟩
      refine .inr ⟨entry, hentry, ?_⟩
      rw [beq_iff_eq.mp heq]
    · rw [isFolderAt_iff] at hfolder
      rintro (hcurrent | ⟨entry, hentry, hway⟩)
      · exact absurd (.inl hcurrent) hfolder
      -- An entry further on would make a folder of this place.
      · refine ⟨entry, hentry, beq_iff_eq.mpr (hway.eq_of_length_le ?_).symm⟩
        by_contra hlt
        exact hfolder (.inr ⟨entry, hentry, hway, fun _ _ => Nat.lt_of_not_le hlt⟩)

private theorem isFolderAt_of_prefix (h : tree.isFolderAt folder = true) (hway : names <+: folder) :
    tree.isFolderAt names = true := by
  rw [isFolderAt_iff] at h ⊢
  refine h.imp hway.trans ?_
  rintro ⟨entry, hentry, hfolder, hshort⟩
  exact ⟨entry, hentry, hway.trans hfolder, fun bytes hbytes =>
    Nat.lt_of_le_of_lt hway.length_le (hshort bytes hbytes)⟩

theorem entryAt?_eq_folder_iff :
    tree.entryAt? names = some .folder ↔ tree.isFolderAt names = true := by
  refine ⟨fun h => ?_, fun h => if_pos h⟩
  by_contra hfolder
  rw [entryAt?, if_neg hfolder] at h
  obtain ⟨⟨place, entry⟩, hfound, hentry⟩ := Option.map_eq_some_iff.mp h
  obtain rfl : entry = .folder := hentry
  obtain rfl : place = names := by simpa using List.find?_some hfound
  refine hfolder (isFolderAt_iff.mpr (.inr ⟨_, List.mem_of_find?_eq_some hfound, ?_⟩))
  exact ⟨List.prefix_rfl, fun bytes hbytes => by cases hbytes⟩

/-- What is on the way to something is a folder. -/
private theorem entryAt?_of_append {rest : List String} (hrest : rest ≠ [])
    (h : (tree.entryAt? (folder ++ rest)).isSome = true) : tree.entryAt? folder = some .folder := by
  have hfolder : tree.isFolderAt folder = true := by
    rw [isFolderAt_iff]
    have hway : folder <+: folder ++ rest := List.prefix_append folder rest
    refine (isSome_entryAt?_iff.mp h).imp hway.trans ?_
    rintro ⟨entry, hentry, hrest'⟩
    refine ⟨entry, hentry, hway.trans hrest', fun _ _ => Nat.lt_of_lt_of_le ?_ hrest'.length_le⟩
    rw [List.length_append]
    have := List.length_pos_iff.mpr hrest
    omega
  exact entryAt?_eq_folder_iff.mpr hfolder

/-- No names lead further than the depth of the tree. -/
theorem length_le_depth (h : (tree.entryAt? names).isSome = true) : names.length ≤ tree.depth := by
  rw [depth, List.foldl_max]
  rcases isSome_entryAt?_iff.mp h with hcurrent | ⟨entry, hentry, hway⟩
  · exact hcurrent.length_le.trans (Nat.le_max_left _ _)
  · have hlength := hway.length_le
    have hmem : entry.1.length ∈ tree.entries.map fun entry => entry.1.length :=
      List.mem_map_of_mem hentry
    have hmax := List.le_max?_getD_of_mem hmem (k := tree.current.length)
    omega

/-! ## Folders -/

private theorem append_singleton_prefix_iff :
    folder ++ [name] <+: names ↔ folder <+: names ∧ (names.drop folder.length).head? = some name := by
  constructor
  · rintro ⟨rest, rfl⟩
    simp
  · rintro ⟨⟨rest, rfl⟩, hhead⟩
    rw [List.drop_left] at hhead
    obtain ⟨rest, rfl⟩ := List.head?_eq_some_iff.mp hhead
    simp

/-- A folder lists the names that lead on from it. -/
theorem mem_children :
    name ∈ tree.children folder ↔ (tree.entryAt? (folder ++ [name])).isSome = true := by
  -- A way through the folder gives the name that follows it there.
  have hlists (names : List String) :
      (if folder.isPrefixOf names then (names.drop folder.length).head? else none) = some name
        ↔ folder ++ [name] <+: names := by
    rw [append_singleton_prefix_iff, ← List.isPrefixOf_iff_prefix]
    split <;> simp_all
  rw [children, Ascending.mem_ofTexts, List.mem_filterMap, isSome_entryAt?_iff]
  simp only [hlists, List.mem_append, List.mem_map, List.mem_singleton]
  constructor
  · rintro ⟨names, ⟨entry, hentry, rfl⟩ | rfl, hway⟩
    · exact .inr ⟨entry, hentry, hway⟩
    · exact .inl hway
  · rintro (hway | ⟨entry, hentry, hway⟩)
    · exact ⟨_, .inr rfl, hway⟩
    · exact ⟨_, .inl ⟨entry, hentry, rfl⟩, hway⟩

/-- Only folders list anything. -/
theorem children_eq_nil (h : tree.entryAt? folder ≠ some .folder) : tree.children folder = [] := by
  rw [List.eq_nil_iff_forall_not_mem]
  exact fun name hname => h (entryAt?_of_append (List.cons_ne_nil name []) (mem_children.mp hname))

theorem below_eq_nil (h : tree.entryAt? folder ≠ some .folder) (depth : Nat) :
    tree.below depth folder = [] := by
  cases depth with
  | zero => rfl
  | succ depth => rw [below, children_eq_nil h, List.flatMap_nil]

/-- Nothing more is found at a greater depth than what there is at all. -/
private theorem below_of_le {depth more : Nat} (hle : depth ≤ more)
    (h : ∀ names, (tree.entryAt? (folder ++ names)).isSome = true → names.length ≤ depth) :
    tree.below more folder = tree.below depth folder := by
  induction depth generalizing folder more with
  | zero =>
    cases more with
    | zero => rfl
    | succ more =>
      -- An entry here would be at a greater depth than there is.
      have hnone : tree.children folder = [] := by
        rw [List.eq_nil_iff_forall_not_mem]
        intro name hname
        have := h [name] (mem_children.mp hname)
        simp at this
      simp only [below, hnone, List.flatMap_nil]
  | succ depth ih =>
    obtain ⟨more, rfl⟩ : ∃ n, more = n + 1 := ⟨more - 1, by omega⟩
    rw [below, below]
    refine List.flatMap_congr fun name _ => ?_
    rw [ih (Nat.le_of_succ_le_succ hle) fun names hnames => ?_]
    have := h (name :: names) (by simpa using hnames)
    simpa using this

theorem below_of_depth_le {depth : Nat} (hle : tree.depth ≤ depth) (folder : List String) :
    tree.below depth folder = tree.below tree.depth folder :=
  below_of_le hle fun names hnames =>
    (by simp : names.length ≤ (folder ++ names).length).trans (length_le_depth hnames)

/-! ## One place -/

/-- Two trees that differ at most at one place, where neither has a folder: one of them comes from the
other by making, changing or removing a file there. -/
structure SameBut (hidden : List String) (tree other : FileTree) : Prop where
  current : other.current = tree.current
  entryAt : ∀ names, names ≠ hidden → other.entryAt? names = tree.entryAt? names
  notFolder : tree.entryAt? hidden ≠ some .folder
  notFolder' : other.entryAt? hidden ≠ some .folder

theorem SameBut.symm (h : SameBut hidden tree other) : SameBut hidden other tree where
  current := h.current.symm
  entryAt names hne := (h.entryAt names hne).symm
  notFolder := h.notFolder'
  notFolder' := h.notFolder

/-- Making a file in a folder, or changing one there, makes a difference at one place. -/
theorem sameBut_insertFile {path : String} (bytes : ByteArray)
    (hfile : tree.entryAt? (tree.namesOf path) ≠ some .folder)
    (hparent : tree.entryAt? (tree.namesOf path).dropLast = some .folder) :
    SameBut (tree.namesOf path) tree (tree.insertFile path bytes) := by
  have hfolder (names : List String) :
      (tree.insertFile path bytes).isFolderAt names = true ↔ tree.isFolderAt names = true := by
    constructor
    · intro h
      rcases isFolderAt_iff.mp h with hcurrent | ⟨entry, hentry, hway, hshort⟩
      · exact isFolderAt_iff.mpr (.inl hcurrent)
      rcases List.mem_cons.mp hentry with rfl | hentry
      -- The way to the new file goes through its folder.
      · refine isFolderAt_of_prefix (entryAt?_eq_folder_iff.mp hparent) ?_
        have hlt : names.length < (tree.namesOf path).length := hshort bytes rfl
        rw [List.dropLast_eq_take]
        exact List.prefix_take_iff.mpr ⟨hway, by omega⟩
      · exact isFolderAt_iff.mpr (.inr ⟨entry, hentry, hway, hshort⟩)
    · intro h
      refine isFolderAt_iff.mpr ((isFolderAt_iff.mp h).imp_right ?_)
      rintro ⟨entry, hentry, h⟩
      exact ⟨entry, List.mem_cons_of_mem _ hentry, h⟩
  refine ⟨rfl, fun names hnames => ?_, hfile, ?_⟩
  · unfold entryAt?
    by_cases h : tree.isFolderAt names = true
    · rw [if_pos h, if_pos ((hfolder names).mpr h)]
    · rw [if_neg h, if_neg (mt (hfolder names).mp h), insertFile,
        List.find?_cons_of_neg (by simpa using Ne.symm hnames)]
  · rw [ne_eq, entryAt?_eq_folder_iff] at hfile ⊢
    exact mt (hfolder _).mp hfile

/-- A list that only what a test keeps contributes to may as well be filtered first. -/
private theorem flatMap_filter_of_eq_nil {α β : Type} {keep : α → Bool} {f : α → List β} {items : List α}
    (h : ∀ a ∈ items, keep a = false → f a = []) : (items.filter keep).flatMap f = items.flatMap f := by
  induction items with
  | nil => rfl
  | cons a items ih =>
    have ih := ih fun b hb => h b (List.mem_cons_of_mem a hb)
    cases hkeep : keep a with
    | true => rw [List.filter_cons_of_pos hkeep, List.flatMap_cons, List.flatMap_cons, ih]
    | false =>
      rw [List.filter_cons_of_neg (by simp [hkeep]), List.flatMap_cons, ih,
        h a List.mem_cons_self hkeep, List.nil_append]

/-- Two lists with the same items that contribute anything give the same if these items do. -/
theorem flatMap_congr_of_filter {α β : Type} (keep : α → Bool) {f g : α → List β} {as bs : List α}
    (hfilter : as.filter keep = bs.filter keep) (hkeep : ∀ a, keep a = true → f a = g a)
    (hf : ∀ a ∈ as, keep a = false → f a = []) (hg : ∀ b ∈ bs, keep b = false → g b = []) :
    as.flatMap f = bs.flatMap g := by
  rw [← flatMap_filter_of_eq_nil hf, ← flatMap_filter_of_eq_nil hg, hfilter]
  exact List.flatMap_congr fun a ha => hkeep a (List.mem_filter.mp ha).2

namespace SameBut

theorem children (h : SameBut hidden tree other) (folder : List String) :
    (tree.children folder).filter (fun name => folder ++ [name] ≠ hidden)
      = (other.children folder).filter fun name => folder ++ [name] ≠ hidden := by
  refine Ascending.IsAscending.ext ((Ascending.isAscending_ofTexts _).filter _)
    ((Ascending.isAscending_ofTexts _).filter _) fun name => ?_
  simp only [List.mem_filter, mem_children, decide_eq_true_eq]
  exact and_congr_left fun hne => by rw [h.entryAt _ hne]

theorem below (h : SameBut hidden tree other) (depth : Nat) (folder : List String) :
    (tree.below depth folder).filter (fun names => folder ++ names ≠ hidden)
      = (other.below depth folder).filter fun names => folder ++ names ≠ hidden := by
  -- The hidden name contributes itself, which the filter drops, and nothing below it.
  have hhidden {tree : FileTree} {name : String} {depth : Nat} {folder : List String}
      (hfile : tree.entryAt? hidden ≠ some .folder) (hname : folder ++ [name] = hidden) :
      ([name] :: (tree.below depth (folder ++ [name])).map (name :: ·)).filter
        (fun names => folder ++ names ≠ hidden) = [] := by
    rw [hname, below_eq_nil hfile]
    simp [hname]
  induction depth generalizing folder with
  | zero => rfl
  | succ depth ih =>
    rw [FileTree.below, FileTree.below, List.filter_flatMap, List.filter_flatMap]
    refine flatMap_congr_of_filter _ (h.children folder) (fun name _ => ?_) (fun name _ hname => ?_)
      (fun name _ hname => ?_)
    · have hnext := ih (folder ++ [name])
      simp only [List.append_assoc, List.singleton_append] at hnext
      rw [List.filter_cons, List.filter_cons, List.filter_map, List.filter_map]
      simp only [Function.comp_def, hnext]
    · exact hhidden h.notFolder (by simpa using hname)
    · exact hhidden h.notFolder' (by simpa using hname)

/-- Below a folder the trees have the same apart from the one place. -/
theorem below_depth (h : SameBut hidden tree other) (folder : List String) :
    (tree.below tree.depth folder).filter (fun names => folder ++ names ≠ hidden)
      = (other.below other.depth folder).filter fun names => folder ++ names ≠ hidden := by
  rw [← below_of_depth_le (Nat.le_max_left tree.depth other.depth),
    ← below_of_depth_le (Nat.le_max_right tree.depth other.depth)]
  exact h.below _ folder

end SameBut

end Roster.FileTree
