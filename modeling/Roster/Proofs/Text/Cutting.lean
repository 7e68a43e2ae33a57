import Mathlib.Data.List.Basic
import Roster.Text.Basic

/-!
# Where a text is cut

- **Patterns** (`eq_append_of_cut?`, `cut?_eq_none_iff`): the parts and the pattern make up the text again,
  and only a text without the pattern is not cut.
- **One character** (`cut?_singleton`): a text is cut at the first place where the character stands.
- **The last piece** (`getLast?_splitOn_eq_nil_iff`): it is empty if nothing follows the last cut, as after
  lines that all have their end (`splitOn_flatMap_concat`).
- **A doubled character** (`cut?_pair`): what stands before the cut has no such pair and does not
  end in the character, or the cut would be further to the left.
- **Passing over** what stands at the front of a text leaves every character that stops it
  (`count_dropWhile`).
-/

namespace Roster.Text

variable {c : Char} {pat cs as bs : List Char}

/-! ## Patterns -/

theorem isPrefixOf?_eq_none_iff : pat.isPrefixOf? cs = none ↔ ¬ pat <+: cs := by
  rw [← List.isPrefixOf_iff_prefix, ← List.isSome_isPrefixOf?_eq_isPrefixOf,
    Option.not_isSome_iff_eq_none]

/-- A cut gives back the text: what stands before, the pattern, and what stands after. -/
theorem eq_append_of_cut? (h : cut? pat cs = some (as, bs)) : cs = as ++ pat ++ bs := by
  induction cs generalizing as with
  | nil =>
    simp only [cut?] at h
    split at h <;> simp_all
  | cons c cs ih =>
    simp only [cut?] at h
    split at h
    · rename_i rest hrest
      obtain ⟨rfl, rfl⟩ := Prod.mk.inj (Option.some.inj h)
      exact (List.isPrefixOf?_eq_some_iff_append_eq.mp hrest).symm
    · obtain ⟨⟨before, after⟩, hcut, heq⟩ := Option.map_eq_some_iff.mp h
      obtain ⟨rfl, rfl⟩ := Prod.mk.inj heq
      rw [ih hcut, List.cons_append, List.cons_append]

theorem cut?_eq_none_iff : cut? pat cs = none ↔ ¬ pat <:+: cs := by
  induction cs with
  | nil => simp [cut?]
  | cons a cs ih =>
    rw [List.infix_cons_iff, not_or, ← ih, ← isPrefixOf?_eq_none_iff, cut?]
    cases pat.isPrefixOf? (a :: cs) <;> simp

/-! ## One character -/

theorem cut?_singleton (h : c ∉ as) (bs : List Char) :
    cut? [c] (as ++ c :: bs) = some (as, bs) := by
  induction as with
  | nil => simp [cut?, List.isPrefixOf?]
  | cons a as ih =>
    obtain ⟨hne, has⟩ := not_or.mp (mt List.mem_cons.mpr h)
    simp [cut?, List.isPrefixOf?, hne, ih has]

theorem cut?_singleton_eq_none (h : c ∉ cs) : cut? [c] cs = none := by
  induction cs with
  | nil => rfl
  | cons a cs ih =>
    obtain ⟨hne, hcs⟩ := not_or.mp (mt List.mem_cons.mpr h)
    simp [cut?, List.isPrefixOf?, hne, ih hcs]

/-- Pieces with a character between them are no text only if there is no piece with a character, nor
a second one. -/
theorem intercalate_singleton_eq_nil {pieces : List (List Char)}
    (h : [c].intercalate pieces = []) : pieces = [] ∨ pieces = [[]] := by
  match pieces with
  | [] => exact .inl rfl
  | [piece] => exact .inr (by simpa [List.intercalate] using h)
  | piece :: next :: pieces => simp [List.intercalate] at h

/-! ## The ends of a text -/

/-- A text begins with a character that its first part does not have only if that part is empty. -/
theorem singleton_prefix_of_append (h : c ∉ as) (hpre : [c] <+: as ++ bs) : [c] <+: bs := by
  cases as with
  | nil => exact hpre
  | cons a as =>
    obtain ⟨rfl, -⟩ := List.cons_prefix_cons.mp hpre
    exact absurd List.mem_cons_self h

theorem singleton_suffix_of_append (h : c ∉ bs) (hsuf : [c] <:+ as ++ bs) : [c] <:+ as := by
  rw [List.singleton_suffix_iff_getLast?_eq_some, List.getLast?_append] at hsuf
  rw [List.singleton_suffix_iff_getLast?_eq_some]
  match hlast : bs.getLast? with
  | none => simpa [hlast] using hsuf
  | some b =>
    obtain rfl : b = c := by simpa [hlast] using hsuf
    exact absurd (List.mem_of_getLast? hlast) h

/-! ## The last piece -/

/-- A text with a character in it, cut at the last place where it stands. -/
theorem exists_last_of_mem (h : c ∈ cs) : ∃ before after, cs = before ++ c :: after ∧ c ∉ after := by
  obtain ⟨after, before, hsplit, hafter⟩ := List.eq_append_cons_of_mem (List.mem_reverse.mpr h)
  refine ⟨before.reverse, after.reverse, ?_, by simpa using hafter⟩
  rw [← List.reverse_reverse cs, hsplit]
  simp

/-- A text of lines that all have their end is cut into these lines. -/
theorem splitOn_flatMap_concat {lines : List (List Char)} (h : ∀ line ∈ lines, c ∉ line) :
    (lines.flatMap (· ++ [c])).splitOn c = lines ++ [[]] := by
  induction lines with
  | nil => rfl
  | cons line lines ih =>
    obtain ⟨hline, hlines⟩ := List.forall_mem_cons.mp h
    rw [List.flatMap_cons, List.append_assoc, List.singleton_append,
      List.splitOn_append_cons_self_of_not_mem hline, ih hlines, List.cons_append]

/-- The last piece of a text is empty if the text is, or if nothing follows its last cut. -/
theorem getLast?_splitOn_eq_nil_iff :
    (cs.splitOn c).getLast? = some [] ↔ cs = [] ∨ [c] <:+ cs := by
  by_cases hc : c ∈ cs
  · obtain ⟨before, after, rfl, hafter⟩ := exists_last_of_mem hc
    rw [List.splitOn_append_cons_self, List.splitOn_eq_singleton hafter, List.getLast?_concat,
      Option.some.injEq]
    constructor
    · rintro rfl
      exact .inr (List.suffix_append before [c])
    · rintro (hnil | hsuf)
      · simp at hnil
      · rcases List.eq_nil_or_concat after with hnil | ⟨middle, last, rfl⟩
        · exact hnil
        · -- The text would end in a character of what follows the cut.
          rw [List.concat_eq_append] at hsuf hafter
          rw [List.singleton_suffix_iff_getLast?_eq_some, List.append_cons, ← List.append_assoc,
            List.getLast?_concat, Option.some.injEq] at hsuf
          exact absurd (hsuf ▸ List.mem_append_right middle List.mem_cons_self) hafter
  · rw [List.splitOn_eq_singleton hc, List.getLast?_singleton, Option.some.injEq, or_iff_left]
    exact fun hsuf => hc (hsuf.subset List.mem_cons_self)

/-! ## A doubled character -/

/-- A pair needs both of its characters. -/
theorem pair_infix_append_of_notMem_left (h : c ∉ as) :
    [c, c] <:+: as ++ bs ↔ [c, c] <:+: bs := by
  induction as with
  | nil => rfl
  | cons a as ih =>
    obtain ⟨hne, has⟩ := not_or.mp (mt List.mem_cons.mpr h)
    rw [List.cons_append, List.infix_cons_iff, ih has, List.cons_prefix_cons]
    simp [hne]

theorem pair_infix_append_of_notMem_right (h : c ∉ bs) :
    [c, c] <:+: as ++ bs ↔ [c, c] <:+: as := by
  rw [← List.reverse_infix, List.reverse_append]
  rw [show [c, c].reverse = [c, c] from rfl]
  rw [pair_infix_append_of_notMem_left (by simpa using h), ← List.reverse_infix]
  simp

theorem cut?_pair (h : ¬ [c, c] <:+: as) (hlast : ¬ [c] <:+ as) (bs : List Char) :
    cut? [c, c] (as ++ c :: c :: bs) = some (as, bs) := by
  induction as with
  | nil => simp [cut?, List.isPrefixOf?]
  | cons a as ih =>
    have has : ¬ [c, c] <:+: as := fun hin => h (List.infix_cons hin)
    have hlast' : ¬ [c] <:+ as := fun hsuf => hlast (hsuf.trans (List.suffix_cons a as))
    -- The text does not start with the pair: `as` would go on with `c`, or end in it.
    have hdrop : [c, c].isPrefixOf? (a :: (as ++ c :: c :: bs)) = none := by
      cases as with
      | nil =>
        have hne : c ≠ a := by rintro rfl; exact hlast (List.suffix_refl _)
        simp [List.isPrefixOf?, hne]
      | cons b as =>
        have hpair : c = a → ¬ c = b := by
          rintro rfl rfl
          exact h ⟨[], as, rfl⟩
        simpa [List.isPrefixOf?] using hpair
    simp [cut?, hdrop, ih has hlast']

/-- What is passed over holds no character that would have stopped it. -/
theorem count_dropWhile {p : Char → Bool} (hc : p c = false) (cs : List Char) :
    (cs.dropWhile p).count c = cs.count c := by
  induction cs with
  | nil => rfl
  | cons a cs ih =>
    by_cases ha : p a = true
    · have hne : a ≠ c := by
        rintro rfl
        exact Bool.false_ne_true (hc.symm.trans ha)
      rw [List.dropWhile_cons_of_pos ha, List.count_cons_of_ne hne, ih]
    · rw [List.dropWhile_cons_of_neg ha]

end Roster.Text
