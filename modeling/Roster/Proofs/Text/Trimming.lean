import Mathlib.Data.List.DropRight
import Roster.Proofs.Text.Cutting
import Roster.Text.Blank

/-!
# Trimming

- **A character that is no blank** ends what is trimmed: a text with one in it is trimmed by trimming what
  stands before that character and what stands after it (`trim_append_cons`).
- **Trimmed texts** are unchanged by trimming (`trim_trim`), and so is every text without a blank at either end
  (`trim_eq_self`).
- **Blanks** put before or after a text are dropped again (`trim_append_left`, `trim_append_right`).
-/

namespace Roster.Text

variable {c : Char} {cs blanks : List Char}

/-! ## A character that is no blank -/

theorem notMem_of_isBlank (h : ∀ b ∈ blanks, isBlank b = true) (hc : isBlank c = false) : c ∉ blanks :=
  fun hmem => Bool.false_ne_true (hc.symm.trans (h c hmem))

theorem mem_of_mem_trim (h : c ∈ trim cs) : c ∈ cs := by
  have hend : c ∈ (trimStart cs).reverse :=
    (List.dropWhile_sublist _).subset (List.mem_reverse.mp h)
  exact (List.dropWhile_sublist _).subset (List.mem_reverse.mp hend)

theorem trimStart_append_cons (hc : isBlank c = false) (as bs : List Char) :
    trimStart (as ++ c :: bs) = trimStart as ++ c :: bs := by
  induction as with
  | nil => simp [trimStart, List.dropWhile, hc]
  | cons a as ih =>
    unfold trimStart at ih ⊢
    by_cases ha : isBlank a = true
    · simpa [List.dropWhile, ha] using ih
    · simp [List.dropWhile, ha]

theorem trimEnd_append_cons (hc : isBlank c = false) (as bs : List Char) :
    trimEnd (as ++ c :: bs) = as ++ c :: trimEnd bs := by
  have h := trimStart_append_cons hc bs.reverse as.reverse
  unfold trimStart at h
  simp [trimEnd, h]

theorem trim_append_cons (hc : isBlank c = false) (as bs : List Char) :
    trim (as ++ c :: bs) = trimStart as ++ c :: trimEnd bs := by
  rw [trim, trimStart_append_cons hc, trimEnd_append_cons hc]

/-- A text with something before its end keeps it. -/
theorem trimEnd_cons (hc : isBlank c = false) (cs : List Char) : trimEnd (c :: cs) = c :: trimEnd cs :=
  trimEnd_append_cons hc [] cs

theorem trim_cons (hc : isBlank c = false) (cs : List Char) : trim (c :: cs) = c :: trimEnd cs :=
  trim_append_cons hc [] cs

/-! ## Trimmed texts -/

theorem trimStart_trimStart (cs : List Char) : trimStart (trimStart cs) = trimStart cs :=
  List.dropWhile_idempotent isBlank cs

theorem trimEnd_trimEnd (cs : List Char) : trimEnd (trimEnd cs) = trimEnd cs :=
  List.rdropWhile_idempotent isBlank cs

/-- A text that starts and ends where trimming would leave it is unchanged. -/
theorem trim_eq_self (hs : trimStart cs = cs) (he : trimEnd cs = cs) : trim cs = cs := by
  rw [trim, hs, he]

theorem trimStart_trim (cs : List Char) : trimStart (trim cs) = trim cs := by
  cases hstart : trimStart cs with
  | nil => rw [trim, hstart]; rfl
  | cons c rest =>
    -- The first character that is left is no blank, so trimming the end does not reach it.
    have hleft : cs.dropWhile isBlank = c :: rest := hstart
    have hne : cs.dropWhile isBlank ≠ [] := by simp [hleft]
    have hc : isBlank c = false := by simpa [hleft] using List.head_dropWhile_not isBlank hne
    rw [trim, hstart, trimEnd_cons hc]
    exact List.dropWhile_cons_of_neg (by rw [hc]; exact Bool.false_ne_true)

theorem trimEnd_trim (cs : List Char) : trimEnd (trim cs) = trim cs :=
  trimEnd_trimEnd _

theorem trim_trim (cs : List Char) : trim (trim cs) = trim cs :=
  trim_eq_self (trimStart_trim cs) (trimEnd_trim cs)

/-! ## Blanks -/

theorem trim_append_left (h : ∀ c ∈ blanks, isBlank c = true) (cs : List Char) :
    trim (blanks ++ cs) = trim cs := by
  rw [trim, trim, trimStart, trimStart, List.dropWhile_append_of_pos h]

theorem trim_append_right (h : ∀ c ∈ blanks, isBlank c = true) (cs : List Char) :
    trim (cs ++ blanks) = trim cs := by
  have hr : ∀ c ∈ blanks.reverse, isBlank c = true := by simpa using h
  simp only [trim, trimStart, List.dropWhile_append]
  split
  · rename_i he
    rw [List.isEmpty_iff.1 he, List.dropWhile_eq_nil_iff.mpr h]
  · rw [trimEnd, trimEnd, List.reverse_append, List.dropWhile_append_of_pos hr]

private theorem exists_append_trimStart (cs : List Char) :
    ∃ blanks, (∀ b ∈ blanks, isBlank b = true) ∧ blanks ++ trimStart cs = cs :=
  ⟨cs.takeWhile isBlank, List.all_eq_true.mp List.all_takeWhile, List.takeWhile_append_dropWhile⟩

theorem exists_trimEnd_append (cs : List Char) :
    ∃ blanks, (∀ b ∈ blanks, isBlank b = true) ∧ trimEnd cs ++ blanks = cs := by
  obtain ⟨blanks, hblanks, h⟩ := exists_append_trimStart cs.reverse
  refine ⟨blanks.reverse, by simpa using hblanks, ?_⟩
  rw [trimEnd, ← List.reverse_append]
  exact List.reverse_eq_iff.mpr h

theorem trim_trimStart (cs : List Char) : trim (trimStart cs) = trim cs := by
  rw [trim, trimStart_trimStart, trim]

theorem trim_trimEnd (cs : List Char) : trim (trimEnd cs) = trim cs := by
  obtain ⟨blanks, hblanks, h⟩ := exists_trimEnd_append cs
  rw [← trim_append_right hblanks, h]

/-- There is nothing to trim without a blank. -/
theorem trim_eq_self_of_forall (h : ∀ c ∈ cs, isBlank c = false) : trim cs = cs := by
  have hnil {blanks : List Char} (hblanks : ∀ b ∈ blanks, isBlank b = true) (hsub : blanks ⊆ cs) :
      blanks = [] :=
    List.eq_nil_iff_forall_not_mem.mpr fun b hb =>
      notMem_of_isBlank hblanks (h b (hsub hb)) hb
  obtain ⟨before, hbefore, hstart⟩ := exists_append_trimStart cs
  obtain ⟨after, hafter, hend⟩ := exists_trimEnd_append cs
  refine trim_eq_self ?_ ?_
  · rwa [hnil hbefore (hstart ▸ List.subset_append_left _ _)] at hstart
  · rwa [hnil hafter (hend ▸ List.subset_append_right _ _), List.append_nil] at hend

/-- Trimming neither makes nor breaks a pair. -/
theorem pair_infix_trim_iff (hc : isBlank c = false) : [c, c] <:+: trim cs ↔ [c, c] <:+: cs := by
  obtain ⟨before, hbefore, hstart⟩ := exists_append_trimStart cs
  obtain ⟨after, hafter, hend⟩ := exists_trimEnd_append (trimStart cs)
  rw [← hstart, pair_infix_append_of_notMem_left (notMem_of_isBlank hbefore hc), ← hend,
    pair_infix_append_of_notMem_right (notMem_of_isBlank hafter hc), hend, hstart, trim]

end Roster.Text
