import Mathlib.Data.List.Infix
import Roster.Text.Lowercase

/-!
# Parts of lowercase texts

The lowercase form of a character does not depend on what stands around it, with one exception: that
of a capital sigma tells whether a word ends there. So the lowercase form of a part of a text is a
part of the lowercase form of the text if its capital sigmas end words in the part where they do so in
the text (`KeepsSigmas`): `lower_infix_lower`. Without this it need not be one.

Digits and marks stay what they are (`lower_of_isCaseless`), and no letter becomes one of them: a text
whose lowercase form is made of digits and marks is that form itself (`eq_of_lower_eq`).
-/

namespace Roster.Text

/-- The lowercase form of a part of a text, between what stands before it, given in reverse, and what
stands after it. -/
def lowerBetween (before after : List Char) : List Char → List Char
  | [] => []
  | c :: cs =>
    (if c = 'Σ' then [if endsWord before (cs ++ after) then 'ς' else 'σ'] else lowerChar c)
      ++ lowerBetween (c :: before) after cs

theorem lowerAfter_eq_lowerBetween (before part : List Char) :
    lowerAfter before part = lowerBetween before [] part := by
  induction part generalizing before with
  | nil => rfl
  | cons c cs ih => simp only [lowerAfter, lowerBetween, ih, List.append_nil]

/-- A part is written in lowercase before the next one, each with the other beside it. -/
theorem lowerBetween_append (before after part next : List Char) :
    lowerBetween before after (part ++ next)
      = lowerBetween before (next ++ after) part
        ++ lowerBetween (part.reverse ++ before) after next := by
  induction part generalizing before with
  | nil => rfl
  | cons c cs ih => simp [lowerBetween, ih]

/-- Whether each capital sigma of a part ends a word within the part exactly if it does so between
what stands before and after the part. -/
def KeepsSigmas (before part after : List Char) : Prop :=
  ∀ i < part.length, part[i]? = some 'Σ' →
    endsWord (part.take i).reverse (part.drop (i + 1))
      = endsWord ((part.take i).reverse ++ before.reverse) (part.drop (i + 1) ++ after)

instance (before part after : List Char) : Decidable (KeepsSigmas before part after) :=
  inferInstanceAs (Decidable (∀ i < part.length, part[i]? = some 'Σ' → _))

/-- What stands around a part only matters for its capital sigmas. -/
theorem lowerBetween_congr {before after other rest part : List Char}
    (h : ∀ i < part.length, part[i]? = some 'Σ' →
      endsWord ((part.take i).reverse ++ before) (part.drop (i + 1) ++ after)
        = endsWord ((part.take i).reverse ++ other) (part.drop (i + 1) ++ rest)) :
    lowerBetween before after part = lowerBetween other rest part := by
  induction part generalizing before other with
  | nil => rfl
  | cons c cs ih =>
    have hcs : lowerBetween (c :: before) after cs = lowerBetween (c :: other) rest cs := by
      refine ih fun i hi hsigma => ?_
      simpa using h (i + 1) (Nat.succ_lt_succ hi) hsigma
    -- Only a sigma looks at what stands around it.
    by_cases hc : c = 'Σ'
    · have hfirst : endsWord before (cs ++ after) = endsWord other (cs ++ rest) := by
        simpa using h 0 (Nat.zero_lt_succ _) (by simp [hc])
      simp only [lowerBetween, hfirst, hcs]
    · simp only [lowerBetween, if_neg hc, hcs]

/-- A part that keeps its capital sigmas is, in lowercase, a part of the text in lowercase. -/
theorem lower_infix_lower {before part after : List Char} (h : KeepsSigmas before part after) :
    lower part <:+: lower (before ++ part ++ after) := by
  have hpart : lower part = lowerBetween before.reverse after part := by
    rw [lower, lowerAfter_eq_lowerBetween]
    refine lowerBetween_congr fun i hi hsigma => ?_
    simpa using h i hi hsigma
  have htext : lower (before ++ part ++ after)
      = lowerBetween [] (part ++ after) before ++ lowerBetween before.reverse after part
        ++ lowerBetween (part.reverse ++ before.reverse) [] after := by
    rw [lower, lowerAfter_eq_lowerBetween, List.append_assoc, lowerBetween_append,
      lowerBetween_append]
    simp
  rw [hpart, htext]
  exact List.infix_append _ _ _

/-! ## Digits and marks -/

/-- Whether a character is one of those from the space to the at sign: the digits and marks of ASCII,
which have no letter case. -/
def isCaseless (c : Char) : Bool :=
  0x20 ≤ c.toNat && c.toNat ≤ 0x40

theorem isCaseless_of_isDigit {c : Char} (h : c.isDigit = true) : isCaseless c = true := by
  have hc : 48 ≤ c.toNat ∧ c.toNat ≤ 57 := Char.isDigit_iff_toNat.mp h
  simp only [isCaseless, Bool.and_eq_true, decide_eq_true_eq]
  omega

/-- A code point that is none has the code zero. -/
private theorem toNat_ofNat_of_isCaseless {n : Nat} (h : isCaseless (Char.ofNat n) = true) :
    (Char.ofNat n).toNat = n := by
  by_cases hn : n.isValidChar
  · rw [Char.ofNat, dif_pos hn]
    rfl
  · rw [Char.ofNat, dif_neg hn] at h
    exact absurd h (by decide)

/-- No letter outside ASCII is shifted to a digit or a mark. -/
private theorem lt_shifted {n : Nat} (h : 0x40 < n) : 0x40 < shifted n := by
  have htable : ∀ entry ∈ lowercaseShifts, (0x40 : Int) < entry.1 + entry.2.2.2 := by
    decide +kernel
  unfold shifted
  split
  · rename_i first last step shift hfind
    have hentry := htable _ (List.mem_of_find?_eq_some hfind)
    have hrange := List.find?_some hfind
    simp only [Bool.and_eq_true, decide_eq_true_eq] at hrange hentry
    omega
  · exact h

theorem lowerChar_eq_self {c : Char} (h : ∀ d ∈ lowerChar c, isCaseless d = true) :
    lowerChar c = [c] := by
  by_cases hascii : c.toNat < 0x80
  · rw [lowerChar_of_ascii hascii] at h ⊢
    have hlower := h _ (List.mem_singleton_self _)
    have hc : c = Char.ofNat c.toNat := by simp
    -- Below 128 the cases are tried one by one.
    generalize c.toNat = n at *
    subst hc
    clear h
    revert n
    decide
  · have hn : 0x40 < c.toNat := by omega
    unfold lowerChar at h
    simp only [hascii, if_false] at h
    split at h
    · exact absurd (h 'i' (by simp)) (by decide)
    · have hshift := h _ (List.mem_singleton_self _)
      have heq := toNat_ofNat_of_isCaseless hshift
      have hlt := lt_shifted hn
      simp only [isCaseless, heq, Bool.and_eq_true, decide_eq_true_eq] at hshift
      omega

theorem lowerChar_of_isCaseless {c : Char} (h : isCaseless c = true) : lowerChar c = [c] := by
  simp only [isCaseless, Bool.and_eq_true, decide_eq_true_eq] at h
  have hletter : ¬ (0x41 ≤ c.toNat ∧ c.toNat ≤ 0x5A) := by omega
  have hascii : c.toNat < 0x80 := by omega
  simp [lowerChar, hascii, hletter]

theorem lowerAfter_eq_self {before cs : List Char}
    (h : ∀ c ∈ lowerAfter before cs, isCaseless c = true) : lowerAfter before cs = cs := by
  induction cs generalizing before with
  | nil => rfl
  | cons c cs ih =>
    rw [lowerAfter] at h ⊢
    obtain ⟨hfirst, hrest⟩ := List.forall_mem_append.mp h
    rw [ih hrest]
    by_cases hsigma : c = 'Σ'
    · rw [if_pos hsigma, List.forall_mem_singleton] at hfirst
      split at hfirst <;> exact absurd hfirst (by decide)
    · rw [if_neg hsigma] at hfirst ⊢
      rw [lowerChar_eq_self hfirst]
      rfl

/-- Only the text itself has a lowercase form without letters. -/
theorem eq_of_lower_eq {cs ds : List Char} (hcs : ∀ c ∈ cs, isCaseless c = true)
    (h : lower ds = cs) : ds = cs := by
  subst h
  exact (lowerAfter_eq_self hcs).symm

private theorem lowerAfter_cons_of_isCaseless {before : List Char} {c : Char} (h : isCaseless c = true)
    (cs : List Char) : lowerAfter before (c :: cs) = c :: lowerAfter (c :: before) cs := by
  have hsigma : c ≠ 'Σ' := by
    rintro rfl
    exact absurd h (by decide)
  rw [lowerAfter, if_neg hsigma, lowerChar_of_isCaseless h]
  rfl

theorem lowerAfter_of_isCaseless {before cs : List Char} (h : ∀ c ∈ cs, isCaseless c = true) :
    lowerAfter before cs = cs := by
  induction cs generalizing before with
  | nil => rfl
  | cons c cs ih =>
    obtain ⟨hc, hcs⟩ := List.forall_mem_cons.mp h
    rw [lowerAfter_cons_of_isCaseless hc, ih hcs]

theorem head?_lower {c : Char} (h : isCaseless c = true) {cs : List Char} :
    (lower (c :: cs)).head? = some c := by
  rw [lower, lowerAfter_cons_of_isCaseless h, List.head?_cons]

/-- Digits and marks stay there beside letters. -/
private theorem mem_lowerAfter {before cs : List Char} {c : Char} (h : c ∈ cs) (hc : isCaseless c = true) :
    c ∈ lowerAfter before cs := by
  induction cs generalizing before with
  | nil => cases h
  | cons d cs ih =>
    rcases List.mem_cons.mp h with rfl | hmem
    · rw [lowerAfter_cons_of_isCaseless hc]
      exact List.mem_cons_self
    · rw [lowerAfter]
      exact List.mem_append_right _ (ih hmem)

theorem mem_lower {cs : List Char} {c : Char} (h : c ∈ cs) (hc : isCaseless c = true) :
    c ∈ lower cs :=
  mem_lowerAfter h hc

theorem lower_of_isCaseless {cs : List Char} (h : ∀ c ∈ cs, isCaseless c = true) :
    lower cs = cs :=
  lowerAfter_of_isCaseless h

end Roster.Text
