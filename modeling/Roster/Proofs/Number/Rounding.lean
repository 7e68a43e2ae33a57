import Mathlib.Algebra.Order.Field.Power
import Mathlib.Data.Rat.Cast.Order
import Mathlib.Tactic.FieldSimp
import Mathlib.Tactic.Linarith
import Mathlib.Tactic.Positivity
import Mathlib.Tactic.Ring
import Roster.Number.Binary64

/-!
# Rounding to binary values

`Binary64.ofFraction` counts how often a unit goes into a fraction, and rounds that number. The unit is
the power of two (`unitExponent`) for which the count has 53 bits, unless the fraction is too small
for that.

- **One rounding** keeps the order of fractions (`roundHalfEven_mono`).
- **The unit** of a greater fraction is not less (`unitExponent_mono`). The count is at most
  `2 ^ 53` (`unitCount_le_full`), and half of that if the unit is not the least one
  (`leastFull_le_unitCount`). So values are in the order of the fractions that they are nearest to
  (`nearest_mono`).
- **Words of 64 bits** keep their order (`compare?_ofInt_of_le`). Up to `2 ^ 53` they are values
  themselves, and different ones stay different (`eq_of_compare?_ofInt`).
-/

namespace Roster.Number.Binary64

/-! ## The nearest natural number -/

variable {num den num' den' : Nat}

private theorem roundHalfEven_bounds (num den : Nat) :
    num / den ≤ roundHalfEven num den ∧ roundHalfEven num den ≤ num / den + 1 := by
  unfold roundHalfEven
  dsimp only
  split
  · omega
  · split
    · omega
    · split <;> omega

/-- A fraction goes up if more than half is left, and if half is left beside an odd number. -/
theorem lt_roundHalfEven_iff :
    num / den < roundHalfEven num den ↔
      den < 2 * (num % den) ∨ (den = 2 * (num % den) ∧ num / den % 2 = 1) := by
  unfold roundHalfEven
  dsimp only
  split
  · omega
  · split
    · omega
    · split
      · rename_i heven
        rw [beq_iff_eq] at heven
        omega
      · rename_i hodd
        rw [beq_iff_eq] at hodd
        omega

/-- Rounding keeps the order of fractions. -/
theorem roundHalfEven_mono (hden : 0 < den) (hden' : 0 < den')
    (h : num * den' ≤ num' * den) : roundHalfEven num den ≤ roundHalfEven num' den' := by
  obtain ⟨-, hle⟩ := roundHalfEven_bounds num den
  obtain ⟨hge, -⟩ := roundHalfEven_bounds num' den'
  have hdiv : num / den ≤ num' / den' := by
    rw [Nat.le_div_iff_mul_le hden']
    refine Nat.le_of_mul_le_mul_right ?_ hden
    calc num / den * den' * den = num / den * den * den' := by ring
      _ ≤ num * den' := Nat.mul_le_mul_right _ (Nat.div_mul_le_self num den)
      _ ≤ num' * den := h
  rcases Nat.lt_or_eq_of_le hdiv with hlt | heq
  · omega
  · -- Between the same two numbers the rests are in the same order.
    have hrest : num % den * den' ≤ num' % den' * den := by
      have hnum := Nat.div_add_mod num den
      have hnum' := Nat.div_add_mod num' den'
      rw [← heq] at hnum'
      nlinarith
    have hup : num / den < roundHalfEven num den → num' / den' < roundHalfEven num' den' := by
      rw [lt_roundHalfEven_iff, lt_roundHalfEven_iff, ← heq]
      rintro (hmore | ⟨hhalf, hodd⟩)
      · refine .inl (Nat.lt_of_mul_lt_mul_right (a := den) ?_)
        nlinarith
      · have hle : den' ≤ 2 * (num' % den') := by
          refine Nat.le_of_mul_le_mul_right ?_ hden
          nlinarith
        omega
    omega

private theorem roundHalfEven_mul (q : Nat) (hden : 0 < den) : roundHalfEven (q * den) den = q := by
  simp [roundHalfEven, hden]

theorem roundHalfEven_le (hden : 0 < den) {n : Nat} (h : num ≤ n * den) :
    roundHalfEven num den ≤ n :=
  (roundHalfEven_mono hden hden (Nat.mul_le_mul_right den h)).trans_eq (roundHalfEven_mul n hden)

theorem le_roundHalfEven (hden : 0 < den) {n : Nat} (h : n * den ≤ num) :
    n ≤ roundHalfEven num den :=
  (roundHalfEven_mul n hden).ge.trans (roundHalfEven_mono hden hden (Nat.mul_le_mul_right den h))

/-! ## The unit of a fraction -/

/-- Shifts by the two halves of an exponent are one multiplication by a power of two. -/
theorem shiftLeft_div_shiftLeft (num den : Nat) (e : Int) :
    ((num <<< (-e).toNat : Nat) : ℚ) / (den <<< e.toNat : Nat) = num / den * 2 ^ (-e) := by
  obtain ⟨n, rfl | rfl⟩ := Int.eq_nat_or_neg e
  · simp [Nat.shiftLeft_eq]
    field_simp
  · simp [Nat.shiftLeft_eq]
    field_simp

private theorem shiftLeft_le_shiftLeft_iff (hden : 0 < den) (e : Int) :
    den <<< e.toNat ≤ num <<< (-e).toNat ↔ (2 : ℚ) ^ e ≤ num / den := by
  have hscaled : (0 : ℚ) < (den <<< e.toNat : Nat) := by
    rw [Nat.shiftLeft_eq]
    positivity
  rw [← Nat.cast_le (α := ℚ), ← one_le_div hscaled, shiftLeft_div_shiftLeft, zpow_neg,
    ← div_eq_mul_inv, one_le_div (by positivity)]

theorem zpow_binaryExponent_le (hnum : 0 < num) (hden : 0 < den) :
    (2 : ℚ) ^ binaryExponent num den ≤ num / den := by
  have hdenq : (0 : ℚ) < den := by exact_mod_cast hden
  have hlow : (2 : ℚ) ^ num.log2 ≤ num := by exact_mod_cast Nat.log2_self_le hnum.ne'
  have hhigh : (den : ℚ) ≤ 2 ^ (den.log2 + 1) := by exact_mod_cast Nat.lt_log2_self.le
  unfold binaryExponent
  dsimp only
  split
  · rename_i h
    exact (shiftLeft_le_shiftLeft_iff hden _).mp h
  · have hexponent : (num.log2 : Int) - den.log2 - 1 = (num.log2 : Int) - (den.log2 + 1 : Nat) := by
      push_cast
      ring
    rw [hexponent, zpow_sub₀ two_ne_zero, zpow_natCast, zpow_natCast]
    exact div_le_div₀ (by positivity) hlow hdenq hhigh

theorem lt_zpow_binaryExponent (hden : 0 < den) :
    (num : ℚ) / den < 2 ^ (binaryExponent num den + 1) := by
  have hdenq : (0 : ℚ) < den := by exact_mod_cast hden
  have hhigh : (num : ℚ) < 2 ^ (num.log2 + 1) := by exact_mod_cast Nat.lt_log2_self
  have hlow : (2 : ℚ) ^ den.log2 ≤ den := by exact_mod_cast Nat.log2_self_le hden.ne'
  unfold binaryExponent
  dsimp only
  split
  · have hexponent : (num.log2 : Int) - den.log2 + 1 = (num.log2 + 1 : Nat) - den.log2 := by
      push_cast
      ring
    rw [hexponent, zpow_sub₀ two_ne_zero, zpow_natCast, zpow_natCast]
    exact div_lt_div₀ hhigh hlow (by positivity) (by positivity)
  · rename_i h
    rw [sub_add_cancel]
    exact not_le.mp (mt (shiftLeft_le_shiftLeft_iff hden _).mpr h)

/-! ## Rounding to a significand -/

/-- The exponent of the unit to which a positive fraction is rounded. -/
def unitExponent (num den : Nat) : Int :=
  max (binaryExponent num den - 52) leastExponent

/-- The number of units that is nearest to a fraction. -/
def unitCount (num den : Nat) : Nat :=
  roundHalfEven (num <<< (-unitExponent num den).toNat) (den <<< (unitExponent num den).toNat)

private theorem ofFraction_eq (hnum : 0 < num) (negative : Bool) :
    ofFraction negative num den =
      if unitCount num den == 2 * leastFull then
        ofFraction.pack negative leastFull (unitExponent num den + 1)
      else ofFraction.pack negative (unitCount num den) (unitExponent num den) := by
  have hne : (num == 0) = false := beq_false_of_ne hnum.ne'
  rw [ofFraction, hne]
  rfl

theorem unitCount_le (hden : 0 < den) {n : Nat}
    (h : (num : ℚ) / den ≤ n * 2 ^ unitExponent num den) : unitCount num den ≤ n := by
  have hscaled : 0 < den <<< (unitExponent num den).toNat := Nat.shiftLeft_pos_iff.mpr hden
  refine roundHalfEven_le hscaled ?_
  rw [← Nat.cast_le (α := ℚ), Nat.cast_mul, ← div_le_iff₀ (by exact_mod_cast hscaled),
    shiftLeft_div_shiftLeft, zpow_neg, ← div_eq_mul_inv, div_le_iff₀ (by positivity)]
  exact h

theorem le_unitCount (hden : 0 < den) {n : Nat}
    (h : n * 2 ^ unitExponent num den ≤ (num : ℚ) / den) : n ≤ unitCount num den := by
  have hscaled : 0 < den <<< (unitExponent num den).toNat := Nat.shiftLeft_pos_iff.mpr hden
  refine le_roundHalfEven hscaled ?_
  rw [← Nat.cast_le (α := ℚ), Nat.cast_mul, ← le_div_iff₀ (by exact_mod_cast hscaled),
    shiftLeft_div_shiftLeft, zpow_neg, ← div_eq_mul_inv, le_div_iff₀ (by positivity)]
  exact h

private theorem cast_leastFull : (leastFull : ℚ) = 2 ^ (52 : Int) := by
  have hpow : leastFull = 2 ^ 52 := rfl
  rw [hpow]
  norm_num

theorem unitCount_le_full (hden : 0 < den) : unitCount num den ≤ 2 * leastFull := by
  refine unitCount_le hden ?_
  have hexponent : binaryExponent num den + 1 ≤ 53 + unitExponent num den := by
    unfold unitExponent
    omega
  calc (num : ℚ) / den ≤ 2 ^ (binaryExponent num den + 1) := (lt_zpow_binaryExponent hden).le
    _ ≤ 2 ^ (53 + unitExponent num den) := zpow_le_zpow_right₀ one_le_two hexponent
    _ = (2 * leastFull : Nat) * 2 ^ unitExponent num den := by
      rw [zpow_add₀ two_ne_zero, Nat.cast_mul, cast_leastFull]
      norm_num

theorem leastFull_le_unitCount (hnum : 0 < num) (hden : 0 < den)
    (h : leastExponent < unitExponent num den) : leastFull ≤ unitCount num den := by
  refine le_unitCount hden ?_
  have hexponent : 52 + unitExponent num den = binaryExponent num den := by
    unfold unitExponent at h ⊢
    omega
  calc (leastFull : ℚ) * 2 ^ unitExponent num den = 2 ^ (52 + unitExponent num den) := by
        rw [zpow_add₀ two_ne_zero, cast_leastFull]
    _ = 2 ^ binaryExponent num den := by rw [hexponent]
    _ ≤ (num : ℚ) / den := zpow_binaryExponent_le hnum hden

theorem unitExponent_mono (hnum : 0 < num) (hden : 0 < den) (hden' : 0 < den')
    (h : (num : ℚ) / den ≤ num' / den') : unitExponent num den ≤ unitExponent num' den' := by
  have hlt : (2 : ℚ) ^ binaryExponent num den < 2 ^ (binaryExponent num' den' + 1) :=
    ((zpow_binaryExponent_le hnum hden).trans h).trans_lt (lt_zpow_binaryExponent hden')
  have hexponent := (zpow_lt_zpow_iff_right₀ one_lt_two).mp hlt
  unfold unitExponent
  omega

/-- The value nearest to a fraction, without its sign. -/
def nearest (num den : Nat) : ℚ :=
  unitCount num den * 2 ^ unitExponent num den

/-- **Rounding keeps the order.** Fractions with the same unit are rounded to numbers of units in the
same order, and a full significand of a greater unit is beyond every one of a lesser unit. -/
theorem nearest_mono (hnum : 0 < num) (hden : 0 < den) (hnum' : 0 < num') (hden' : 0 < den')
    (h : (num : ℚ) / den ≤ num' / den') : nearest num den ≤ nearest num' den' := by
  unfold nearest
  rcases (unitExponent_mono hnum hden hden' h).lt_or_eq with hlt | heq
  · have hleast : leastExponent < unitExponent num' den' := (le_max_right _ _).trans_lt hlt
    calc (unitCount num den : ℚ) * 2 ^ unitExponent num den
        ≤ (2 * leastFull : Nat) * 2 ^ unitExponent num den := by
          gcongr
          exact unitCount_le_full hden
      _ = leastFull * 2 ^ (unitExponent num den + 1) := by
          rw [zpow_add_one₀ two_ne_zero]
          push_cast
          ring
      _ ≤ leastFull * 2 ^ unitExponent num' den' := by
          gcongr
          · exact one_le_two
          · exact hlt
      _ ≤ unitCount num' den' * 2 ^ unitExponent num' den' := by
          gcongr
          exact leastFull_le_unitCount hnum' hden' hleast
  · have hcount : unitCount num den ≤ unitCount num' den' := by
      unfold unitCount
      rw [heq]
      have hscaled : 0 < den <<< (unitExponent num' den').toNat := Nat.shiftLeft_pos_iff.mpr hden
      have hscaled' : 0 < den' <<< (unitExponent num' den').toNat := Nat.shiftLeft_pos_iff.mpr hden'
      refine roundHalfEven_mono hscaled hscaled' ?_
      rw [← Nat.cast_le (α := ℚ), Nat.cast_mul, Nat.cast_mul,
        ← div_le_div_iff₀ (by exact_mod_cast hscaled) (by exact_mod_cast hscaled'),
        shiftLeft_div_shiftLeft, shiftLeft_div_shiftLeft]
      gcongr
    rw [heq]
    gcongr

/-! ## The value of a rounded fraction -/

/-- The magnitude of a finite value. -/
def magnitude (m : Nat) (e : Int) : ℚ :=
  m * 2 ^ e

/-- A fraction that is not too great is rounded to a finite value. -/
theorem exists_ofFraction (hnum : 0 < num) (hden : 0 < den) (negative : Bool)
    (hsmall : (num : ℚ) / den < 2 ^ (1023 : Int)) :
    ∃ m e, ofFraction negative num den = .finite negative m e ∧ leastExponent ≤ e ∧
      magnitude m e = nearest num den := by
  have hexponent : unitExponent num den < greatestExponent := by
    have hlt := (zpow_binaryExponent_le hnum hden).trans_lt hsmall
    have hle := (zpow_lt_zpow_iff_right₀ (one_lt_two (α := ℚ))).mp hlt
    unfold unitExponent leastExponent greatestExponent
    omega
  have hleast : leastExponent ≤ unitExponent num den := le_max_right _ _
  rw [ofFraction_eq hnum]
  split
  · -- Rounding has gone up to twice the least full significand.
    rename_i hfull
    rw [beq_iff_eq] at hfull
    refine ⟨leastFull, unitExponent num den + 1, ?_, by omega, ?_⟩
    · rw [ofFraction.pack, if_neg (by omega)]
    · rw [magnitude, nearest, hfull, zpow_add_one₀ two_ne_zero]
      push_cast
      ring
  · refine ⟨unitCount num den, unitExponent num den, ?_, hleast, rfl⟩
    rw [ofFraction.pack, if_neg (by omega)]

/-- The significand of a finite value has 53 bits, or fewer if the exponent is the least one. -/
def IsProper : Binary64 → Prop
  | .finite _ m e => m < 2 * leastFull ∧ (leastExponent < e → leastFull ≤ m)
  | _ => True

theorem isProper_zero (negative : Bool) : (zero negative).IsProper :=
  ⟨by decide, fun h => absurd h (lt_irrefl _)⟩

theorem isProper_ofFraction (hden : 0 < den) (negative : Bool) (num : Nat) :
    (ofFraction negative num den).IsProper := by
  have hpack {m : Nat} {e : Int} (hm : m < 2 * leastFull)
      (hfull : leastExponent < e → leastFull ≤ m) : (ofFraction.pack negative m e).IsProper := by
    unfold ofFraction.pack
    split
    · trivial
    · exact ⟨hm, hfull⟩
  rcases num.eq_zero_or_pos with rfl | hnum
  · exact isProper_zero negative
  · rw [ofFraction_eq hnum]
    split
    · exact hpack (by decide) fun _ => le_rfl
    · rename_i hne
      rw [beq_iff_eq] at hne
      exact hpack (lt_of_le_of_ne (unitCount_le_full hden) hne) (leastFull_le_unitCount hnum hden)

theorem isProper_ofDecimal (negative : Bool) (m : Nat) (e : Int) :
    (ofDecimal negative m e).IsProper := by
  unfold ofDecimal
  dsimp only
  split
  · exact isProper_zero negative
  · split
    · trivial
    · split
      · exact isProper_zero negative
      · exact isProper_ofFraction (Nat.pow_pos (by decide)) negative _

/-! ## Integers -/

theorem nearest_zero (den : Nat) : nearest 0 den = 0 := by
  simp [nearest, unitCount, roundHalfEven]

theorem nearest_nonneg (num den : Nat) : 0 ≤ nearest num den := by
  unfold nearest
  positivity

theorem nearest_natural_mono {a b : Nat} (h : a ≤ b) : nearest a 1 ≤ nearest b 1 := by
  rcases a.eq_zero_or_pos with rfl | ha
  · rw [nearest_zero]
    exact nearest_nonneg b 1
  · refine nearest_mono ha one_pos (ha.trans_le h) one_pos ?_
    gcongr

/-- A natural number up to `2 ^ 53` is a value itself. -/
theorem nearest_natural {a : Nat} (h : a ≤ 2 * leastFull) : nearest a 1 = a := by
  rcases a.eq_zero_or_pos with rfl | ha
  · exact nearest_zero 1
  -- Only the bound itself is packed with the next exponent.
  rcases h.eq_or_lt with rfl | hlt
  · have hcount : unitCount (2 * leastFull) 1 = leastFull := by decide
    have hexponent : unitExponent (2 * leastFull) 1 = 1 := by decide
    rw [nearest, hcount, hexponent]
    push_cast
    ring
  have hexponent : unitExponent a 1 ≤ 0 := by
    have hpow : (2 : ℚ) ^ binaryExponent a 1 < 2 ^ (53 : Int) := by
      calc (2 : ℚ) ^ binaryExponent a 1 ≤ a / (1 : Nat) := zpow_binaryExponent_le ha one_pos
        _ = a := by rw [Nat.cast_one, div_one]
        _ < (2 * leastFull : Nat) := by exact_mod_cast hlt
        _ = 2 ^ (53 : Int) := by
          rw [Nat.cast_mul, cast_leastFull]
          norm_num
    have hle := (zpow_lt_zpow_iff_right₀ one_lt_two).mp hpow
    unfold unitExponent leastExponent
    omega
  obtain ⟨n, hn⟩ := Int.exists_eq_neg_ofNat hexponent
  -- The unit is a part of 1, so `a` is a whole number of units and rounding changes nothing.
  have hunits : ((a * 2 ^ n : Nat) : ℚ) * 2 ^ unitExponent a 1 = a / (1 : Nat) := by
    rw [hn]
    push_cast
    rw [zpow_neg, zpow_natCast]
    field_simp
  have hcount : unitCount a 1 = a * 2 ^ n :=
    le_antisymm (unitCount_le one_pos hunits.ge) (le_unitCount one_pos hunits.le)
  rw [nearest, hcount, hunits, Nat.cast_one, div_one]

/-- The value nearest to an integer. -/
def nearestInt (n : Int) : ℚ :=
  if n < 0 then -nearest n.natAbs 1 else nearest n.natAbs 1

theorem nearestInt_mono {a b : Int} (h : a ≤ b) : nearestInt a ≤ nearestInt b := by
  have hnonneg (n : Int) := nearest_nonneg n.natAbs 1
  unfold nearestInt
  split <;> split
  · exact neg_le_neg (nearest_natural_mono (by omega))
  · exact (neg_nonpos.mpr (hnonneg a)).trans (hnonneg b)
  · omega
  · exact nearest_natural_mono (by omega)

theorem nearestInt_eq_self {n : Int} (h : n.natAbs ≤ 2 * leastFull) : nearestInt n = n := by
  unfold nearestInt
  rw [nearest_natural h]
  split
  · rw [← Int.cast_natCast, ← Int.cast_neg]
    congr 1
    omega
  · rw [← Int.cast_natCast]
    congr 1
    omega

private theorem cast_units {m : Nat} {e : Int} (he : leastExponent ≤ e) (negative : Bool) :
    (units negative m e : ℚ)
      = (if negative then -magnitude m e else magnitude m e) / 2 ^ leastExponent := by
  have hshift : (((m <<< (e - leastExponent).toNat : Nat) : Int) : ℚ)
      = magnitude m e / 2 ^ leastExponent := by
    have hexponent : ((e - leastExponent).toNat : Int) = e - leastExponent := by omega
    rw [Nat.shiftLeft_eq, magnitude, mul_div_assoc, ← zpow_sub₀ two_ne_zero, ← hexponent,
      zpow_natCast]
    push_cast
    rfl
  unfold units
  dsimp only
  split
  · rw [Int.cast_neg, hshift, neg_div]
  · rw [hshift]

/-- A word of 64 bits is rounded to a finite value. -/
theorem exists_ofInt {n : Int} (h : n.natAbs ≤ 2 ^ 64) :
    ∃ s m e, ofInt n = .finite s m e ∧ (units s m e : ℚ) = nearestInt n / 2 ^ leastExponent := by
  rcases n.natAbs.eq_zero_or_pos with hzero | hpos
  · obtain rfl := Int.natAbs_eq_zero.mp hzero
    refine ⟨false, 0, leastExponent, rfl, ?_⟩
    simp [nearestInt, nearest_zero, units]
  · have hsmall : (n.natAbs : ℚ) / (1 : Nat) < 2 ^ (1023 : Int) := by
      have hle : (n.natAbs : ℚ) ≤ 2 ^ (64 : Int) := by exact_mod_cast h
      rw [Nat.cast_one, div_one]
      exact hle.trans_lt (zpow_lt_zpow_right₀ one_lt_two (by decide))
    obtain ⟨m, e, hof, he, hmagnitude⟩ := exists_ofFraction hpos one_pos (n < 0) hsmall
    refine ⟨_, m, e, hof, ?_⟩
    rw [cast_units he, hmagnitude, nearestInt]
    simp only [decide_eq_true_eq]

theorem isLE_order_iff {a b : Int} : (order a b).isLE = true ↔ a ≤ b := by
  unfold order
  split
  · simp; omega
  · split <;> simp <;> omega

theorem exists_compare?_ofInt {a b : Int} (ha : a.natAbs ≤ 2 ^ 64) (hb : b.natAbs ≤ 2 ^ 64) :
    ∃ p q : Int, (ofInt a).compare? (ofInt b) = some (order p q) ∧
      (p ≤ q ↔ nearestInt a ≤ nearestInt b) ∧ (p = q ↔ nearestInt a = nearestInt b) := by
  obtain ⟨s, m, e, hofa, hunits⟩ := exists_ofInt ha
  obtain ⟨s', m', e', hofb, hunits'⟩ := exists_ofInt hb
  refine ⟨units s m e, units s' m' e', by rw [hofa, hofb, compare?], ?_, ?_⟩
  · rw [← Int.cast_le (R := ℚ), hunits, hunits', div_le_div_iff_of_pos_right (by positivity)]
  · rw [← Int.cast_inj (α := ℚ), hunits, hunits', div_left_inj' (by positivity)]

/-- **Rounding words keeps their order**, but different words may become equal. -/
theorem compare?_ofInt_of_le {a b : Int} (ha : a.natAbs ≤ 2 ^ 64) (hb : b.natAbs ≤ 2 ^ 64)
    (h : a ≤ b) : ∃ o, (ofInt a).compare? (ofInt b) = some o ∧ o.isLE = true := by
  obtain ⟨p, q, hcompare, hle, -⟩ := exists_compare?_ofInt ha hb
  exact ⟨_, hcompare, isLE_order_iff.mpr (hle.mpr (nearestInt_mono h))⟩

/-- Up to `2 ^ 53` different integers are different values. -/
theorem eq_of_compare?_ofInt {a b : Int} (ha : a.natAbs ≤ 2 * leastFull)
    (hb : b.natAbs ≤ 2 * leastFull) (h : (ofInt a).compare? (ofInt b) = some .eq) : a = b := by
  have hwide : 2 * leastFull ≤ 2 ^ 64 := by decide
  obtain ⟨p, q, hcompare, -, heq⟩ := exists_compare?_ofInt (ha.trans hwide) (hb.trans hwide)
  rw [hcompare, Option.some.injEq, order_eq_eq_iff, heq, nearestInt_eq_self ha,
    nearestInt_eq_self hb] at h
  exact_mod_cast h

end Roster.Number.Binary64
