import Roster.Number.Shortest
import Roster.Proofs.Number.Digits
import Roster.Proofs.Number.Rounding

/-!
# The shortest decimal of a binary value

The decimal that `shortest` finds differs from the value by half a unit at most (`shortest_bounds`).

- **The search** takes a point of a grid in the interval of the value, or goes on to the next finer grid
  if the point below the value is not inside (`search_succ`).
- **It ends**: the first grid is the power of ten below the value (`zpow_decimalExponent_le`), so the step
  of the eighteenth is less than a quarter of a unit (`zpow_sub_lt`), and on such a grid the point
  below the value is inside (`floor_between`).
- **In full** a decimal is a row of digits or has a point in it (`Decimal.positionalText_cases`). A value
  of `10 ^ 18` or more is found on a grid without places after the point (`exponent_shortest_pos`).
- **Words**: the decimal of a value lies on the same side of `2 ^ 63` as the value
  (`Binary64.magnitude_add_lt`, `Binary64.lt_value_shortest`).
-/

namespace Roster.Number

/-! ## Decimals -/

namespace Decimal

/-- The number that a decimal denotes. -/
def value (d : Decimal) : ℚ :=
  d.digits * 10 ^ d.exponent

private theorem normalize_go (fuel : Nat) (d : Decimal) :
    (normalize.go fuel d).value = d.value ∧ d.exponent ≤ (normalize.go fuel d).exponent := by
  induction fuel generalizing d with
  | zero => exact ⟨rfl, le_rfl⟩
  | succ fuel ih =>
    unfold normalize.go
    split
    · rename_i hzero
      simp only [Bool.and_eq_true, beq_iff_eq] at hzero
      obtain ⟨hvalue, hexponent⟩ := ih ⟨d.digits / 10, d.exponent + 1⟩
      have hdigits : ((d.digits / 10 * 10 : Nat) : ℚ) = d.digits := by
        rw [Nat.div_mul_cancel (Nat.dvd_of_mod_eq_zero hzero.1)]
      refine ⟨hvalue.trans ?_, by dsimp only at hexponent; omega⟩
      rw [value, value, ← hdigits, zpow_add_one₀ (by norm_num)]
      push_cast
      ring
    · exact ⟨rfl, le_rfl⟩

/-- Zeros that are moved into the exponent do not change the number. -/
theorem value_normalize (d : Decimal) : d.normalize.value = d.value :=
  (normalize_go _ d).1

theorem exponent_le_normalize (d : Decimal) : d.exponent ≤ d.normalize.exponent :=
  (normalize_go _ d).2

end Decimal

/-! ## The first grid -/

variable {num den : Nat}

private theorem length_naturalText_pos (n : Nat) : 0 < (naturalText n).length :=
  List.length_pos_iff.mpr (naturalText_ne_nil n)

theorem lt_pow_length (n : Nat) : n < 10 ^ (naturalText n).length :=
  (Nat.length_toDigits_le_iff (by decide) (length_naturalText_pos n)).mp le_rfl

private theorem pow_le_of_lt_length {n k : Nat} (hn : 0 < n) (h : k < (naturalText n).length) :
    10 ^ k ≤ n := by
  rcases k.eq_zero_or_pos with rfl | hk
  · exact hn
  · exact not_lt.mp (mt (Nat.length_toDigits_le_iff (by decide) hk).mpr h.not_ge)

private theorem lt_length_of_pow_le {n k : Nat} (h : 10 ^ k ≤ n) : k < (naturalText n).length := by
  by_contra hle
  have hlt : 10 ^ (naturalText n).length ≤ 10 ^ k := Nat.pow_le_pow_right (by decide) (not_lt.mp hle)
  exact ((lt_pow_length n).trans_le hlt).not_ge h

theorem zpow_decimalExponent_le (hnum : 0 < num) (hden : 0 < den) :
    (10 : ℚ) ^ decimalExponent num den ≤ num / den := by
  have hdenq : (0 : ℚ) < den := by exact_mod_cast hden
  unfold decimalExponent
  split
  · -- From 1 on: the whole part has one digit more than the exponent says.
    rename_i hle
    have hquotient : 10 ^ ((naturalText (num / den)).length - 1) ≤ num / den :=
      pow_le_of_lt_length (Nat.div_pos hle hden) (Nat.sub_one_lt (length_naturalText_pos _).ne')
    have hlength := length_naturalText_pos (num / den)
    have hexponent : ((naturalText (num / den)).length : Int) - 1
        = ((naturalText (num / den)).length - 1 : Nat) := by omega
    rw [hexponent, zpow_natCast, le_div_iff₀ hdenq]
    exact_mod_cast (Nat.mul_le_mul_right den hquotient).trans (Nat.div_mul_le_self num den)
  · -- Below 1: the exponent counts the digits of the whole part of the inverse.
    have hquotient := lt_pow_length (den / num)
    rw [zpow_neg, zpow_natCast, le_div_iff₀ hdenq, inv_mul_le_iff₀ (by positivity)]
    have hlt : den < num * (den / num + 1) := Nat.lt_mul_div_succ den hnum
    have hle : num * (den / num + 1) ≤ num * 10 ^ (naturalText (den / num)).length :=
      Nat.mul_le_mul_left num hquotient
    rw [mul_comm]
    exact_mod_cast hlt.le.trans hle

/-- A fraction of many digits is looked for on a coarse grid first. -/
theorem le_decimalExponent {k : Nat} (hden : 0 < den) (h : 10 ^ k * den ≤ num) :
    (k : Int) ≤ decimalExponent num den := by
  have hquotient : 10 ^ k ≤ num / den := (Nat.le_div_iff_mul_le hden).mpr h
  have hle : den ≤ num := (Nat.le_mul_of_pos_left den (Nat.pow_pos (by decide))).trans h
  have hlength := lt_length_of_pow_le hquotient
  rw [decimalExponent, if_pos hle]
  omega

/-! ## Points of a grid -/

section Grid

variable {bound n : Nat} {p : Int}

private theorem zpow_eq_div (p : Int) : (10 : ℚ) ^ p = 10 ^ p.toNat / 10 ^ (-p).toNat := by
  obtain ⟨n, rfl | rfl⟩ := Int.eq_nat_or_neg p <;> simp

private theorem scaled_le_grid_iff (hden : 0 < den) :
    bound * 10 ^ (-p).toNat ≤ n * (den * 10 ^ p.toNat) ↔ (bound : ℚ) / den ≤ n * 10 ^ p := by
  have hdenq : (0 : ℚ) < den := by exact_mod_cast hden
  rw [← Nat.cast_le (α := ℚ), zpow_eq_div, div_le_iff₀ hdenq, ← mul_div_assoc, div_mul_eq_mul_div,
    le_div_iff₀ (by positivity)]
  push_cast
  rw [mul_assoc, mul_comm (den : ℚ)]

private theorem grid_le_scaled_iff (hden : 0 < den) :
    n * (den * 10 ^ p.toNat) ≤ bound * 10 ^ (-p).toNat ↔ n * 10 ^ p ≤ (bound : ℚ) / den := by
  have hdenq : (0 : ℚ) < den := by exact_mod_cast hden
  rw [← Nat.cast_le (α := ℚ), zpow_eq_div, le_div_iff₀ hdenq, ← mul_div_assoc, div_mul_eq_mul_div,
    div_le_iff₀ (by positivity)]
  push_cast
  rw [mul_assoc, mul_comm (den : ℚ)]

end Grid

/-! ## The search -/

section Search

variable {tie : Tie} {m value low high den : Nat}

private theorem bounds_of_inside {even : Bool} {a b x : Nat}
    (h : (if even = true then decide (a ≤ x) && decide (x ≤ b) else decide (a < x) && decide (x < b))
      = true) : a ≤ x ∧ x ≤ b := by
  split at h <;> simp only [Bool.and_eq_true, decide_eq_true_eq] at h <;> omega

private theorem not_between_of_not_inside {even : Bool} {a b x : Nat}
    (h : (if even = true then decide (a ≤ x) && decide (x ≤ b) else decide (a < x) && decide (x < b))
      = false) : ¬ (a < x ∧ x < b) := by
  split at h <;> simp only [Bool.and_eq_false_iff, decide_eq_false_iff_not] at h <;> omega

/-- What one grid gives: one of its points in the interval, or the finer grids if the point below the
value is not inside. -/
theorem search_succ (tie : Tie) (m value low high den fuel : Nat) (p : Int) :
    (∃ n, low * 10 ^ (-p).toNat ≤ n * (den * 10 ^ p.toNat) ∧
      n * (den * 10 ^ p.toNat) ≤ high * 10 ^ (-p).toNat ∧
      shortest.search tie m value low high den (fuel + 1) p = Decimal.normalize ⟨n, p⟩) ∨
    (¬ (low * 10 ^ (-p).toNat
          < value * 10 ^ (-p).toNat / (den * 10 ^ p.toNat) * (den * 10 ^ p.toNat) ∧
        value * 10 ^ (-p).toNat / (den * 10 ^ p.toNat) * (den * 10 ^ p.toNat)
          < high * 10 ^ (-p).toNat) ∧
      shortest.search tie m value low high den (fuel + 1) p
        = shortest.search tie m value low high den fuel (p - 1)) := by
  generalize hd : shortest.search tie m value low high den (fuel + 1) p = d
  unfold shortest.search at hd
  dsimp only at hd
  -- A grid has a point below the value and one above it. Either, both or none may be inside.
  split at hd
  · rename_i hfloor _
    exact .inr ⟨not_between_of_not_inside hfloor, hd.symm⟩
  · rename_i hfloor _
    exact .inl ⟨_, (bounds_of_inside hfloor).1, (bounds_of_inside hfloor).2, hd.symm⟩
  · rename_i _ hceiling
    exact .inl ⟨_, (bounds_of_inside hceiling).1, (bounds_of_inside hceiling).2, hd.symm⟩
  · rename_i hfloor hceiling
    split_ifs at hd
    · exact .inl ⟨_, (bounds_of_inside hceiling).1, (bounds_of_inside hceiling).2, hd.symm⟩
    · exact .inl ⟨_, (bounds_of_inside hfloor).1, (bounds_of_inside hfloor).2, hd.symm⟩

/-- On a grid that is finer than the distance to the lower end, the point below the value is inside. -/
theorem floor_between {p : Int} (hden : 0 < den) (hhigh : value < high)
    (hfine : (low : ℚ) / den + 10 ^ p < value / den) :
    low * 10 ^ (-p).toNat
        < value * 10 ^ (-p).toNat / (den * 10 ^ p.toNat) * (den * 10 ^ p.toNat) ∧
      value * 10 ^ (-p).toNat / (den * 10 ^ p.toNat) * (den * 10 ^ p.toNat)
        < high * 10 ^ (-p).toNat := by
  have hscale : 0 < 10 ^ (-p).toNat := Nat.pow_pos (by decide)
  have hgrid : 0 < den * 10 ^ p.toNat := Nat.mul_pos hden (Nat.pow_pos (by decide))
  have hfloor := Nat.div_mul_le_self (value * 10 ^ (-p).toNat) (den * 10 ^ p.toNat)
  constructor
  · -- The next point is above the value, and the two are less apart than the value is from the lower end.
    have hnext : value * 10 ^ (-p).toNat
        < (value * 10 ^ (-p).toNat / (den * 10 ^ p.toNat) + 1) * (den * 10 ^ p.toNat) := by
      rw [mul_comm _ (den * 10 ^ p.toNat)]
      exact Nat.lt_mul_div_succ _ hgrid
    have hstep : low * 10 ^ (-p).toNat + den * 10 ^ p.toNat < value * 10 ^ (-p).toNat := by
      have hdenq : (0 : ℚ) < den := by exact_mod_cast hden
      rw [zpow_eq_div, div_add_div _ _ hdenq.ne' (by positivity),
        div_lt_div_iff₀ (by positivity) hdenq, mul_left_comm (value : ℚ), mul_comm _ (den : ℚ),
        mul_lt_mul_iff_right₀ hdenq] at hfine
      exact_mod_cast hfine
    rw [Nat.add_mul, one_mul] at hnext
    omega
  · exact hfloor.trans_lt (Nat.mul_lt_mul_of_pos_right hhigh hscale)

/-- Whether a decimal lies between two fractions, and on no finer grid than a given one. -/
structure Decimal.IsWithin (d : Decimal) (low high den : Nat) (p : Int) : Prop where
  low_le : (low : ℚ) / den ≤ d.value
  le_high : d.value ≤ high / den
  le_exponent : p ≤ d.exponent

theorem isWithin_normalize {n : Nat} {p : Int} (hden : 0 < den)
    (hlow : low * 10 ^ (-p).toNat ≤ n * (den * 10 ^ p.toNat))
    (hup : n * (den * 10 ^ p.toNat) ≤ high * 10 ^ (-p).toNat) :
    (Decimal.normalize ⟨n, p⟩).IsWithin low high den p where
  low_le := ((scaled_le_grid_iff hden).mp hlow).trans_eq (Decimal.value_normalize ⟨n, p⟩).symm
  le_high := (Decimal.value_normalize ⟨n, p⟩).trans_le ((grid_le_scaled_iff hden).mp hup)
  le_exponent := Decimal.exponent_le_normalize ⟨n, p⟩

/-- The search ends on a grid that is fine enough, if it comes to one. -/
theorem search_isWithin {fuel : Nat} {p : Int} (hden : 0 < den) (hhigh : value < high)
    (hfine : (low : ℚ) / den + 10 ^ (p - fuel) < value / den) :
    (shortest.search tie m value low high den (fuel + 1) p).IsWithin low high den (p - fuel) := by
  -- The grids get finer by the induction. On the last one the point below the value is inside.
  induction fuel generalizing p with
  | zero =>
    rw [Nat.cast_zero, sub_zero] at hfine ⊢
    rcases search_succ tie m value low high den 0 p with ⟨n, hlow, hup, heq⟩ | ⟨hnot, -⟩
    · exact heq ▸ isWithin_normalize hden hlow hup
    · exact absurd (floor_between hden hhigh hfine) hnot
  | succ fuel ih =>
    have hexponent : p - (fuel + 1 : Nat) = p - 1 - (fuel : Int) := by
      push_cast
      ring
    rw [hexponent] at hfine ⊢
    rcases search_succ tie m value low high den (fuel + 1) p with ⟨n, hlow, hup, heq⟩ | ⟨-, heq⟩
    · rw [heq]
      have hwithin := isWithin_normalize hden hlow hup
      exact ⟨hwithin.low_le, hwithin.le_high, hwithin.le_exponent.trans' (by omega)⟩
    · exact heq ▸ ih hfine

end Search

/-! ## The shortest decimal -/

section Interval

variable {m : Nat} {e : Int}

private theorem shiftLeft_div_one_shiftLeft (n : Nat) (e : Int) :
    ((n <<< (e - 2).toNat : Nat) : ℚ) / (1 <<< (2 - e).toNat : Nat) = n * 2 ^ e / 4 := by
  have hneg : 2 - e = -(e - 2) := by ring
  have hshift := Binary64.shiftLeft_div_shiftLeft n 1 (-(e - 2))
  rw [neg_neg] at hshift
  rw [hneg, hshift, Nat.cast_one, div_one, zpow_sub₀ two_ne_zero, ← mul_div_assoc]
  norm_num

/-- A quarter of a unit is more than the step of the finest grid. -/
theorem zpow_sub_lt (hlt : m < 2 ^ 53) {k : Int} (h : (10 : ℚ) ^ k ≤ m * 2 ^ e) :
    (10 : ℚ) ^ (k - 17) < 2 ^ e / 4 := by
  have hunit : (0 : ℚ) < 2 ^ e := by positivity
  have hm : (m : ℚ) < 2 ^ 53 := by exact_mod_cast hlt
  have hstep : (10 : ℚ) ^ (k - 17) * 10 ^ 17 = 10 ^ k := by
    rw [zpow_sub₀ (by norm_num)]
    norm_num
  have hbound : (10 : ℚ) ^ k < 2 ^ 53 * 2 ^ e := h.trans_lt (mul_lt_mul_of_pos_right hm hunit)
  norm_num at hstep hbound
  linarith

theorem shortest_isWithin (tie : Tie) (hm : 0 < m) (hlt : m < 2 ^ 53) (e : Int) :
    ∃ below, (below = 1 ∨ below = 2) ∧
      (shortest tie m e).IsWithin ((4 * m - below) <<< (e - 2).toNat)
        ((4 * m + 2) <<< (e - 2).toNat) (1 <<< (2 - e).toNat)
        (decimalExponent ((4 * m) <<< (e - 2).toNat) (1 <<< (2 - e).toNat) - 17) := by
  -- In quarters of a unit the interval reaches two up, and two down or, where the lesser unit begins, one.
  refine ⟨if m == Binary64.leastFull && Binary64.leastExponent < e then 1 else 2, by split <;> simp, ?_⟩
  set below := if m == Binary64.leastFull && Binary64.leastExponent < e then 1 else 2 with hbelow
  have hone : 1 ≤ below := by
    rw [hbelow]
    split <;> decide
  have hden : 0 < 1 <<< (2 - e).toNat := Nat.shiftLeft_pos_iff.mpr one_pos
  have hnum : 0 < (4 * m) <<< (e - 2).toNat := Nat.shiftLeft_pos_iff.mpr (by omega)
  have hvalue := shiftLeft_div_one_shiftLeft (4 * m) e
  have hlow := shiftLeft_div_one_shiftLeft (4 * m - below) e
  have hgrid := zpow_decimalExponent_le hnum hden
  have hfour : ((4 * m : Nat) : ℚ) * 2 ^ e / 4 = m * 2 ^ e := by
    push_cast
    ring
  have hstep := zpow_sub_lt hlt (by rwa [hvalue, hfour] at hgrid)
  refine search_isWithin hden ?_ ?_
  · rw [Nat.shiftLeft_eq, Nat.shiftLeft_eq]
    exact Nat.mul_lt_mul_of_pos_right (by omega) (Nat.pow_pos (by decide))
  · have hless : ((4 * m - below : Nat) : ℚ) + 1 ≤ (4 * m : Nat) := by
      exact_mod_cast (by omega : 4 * m - below + 1 ≤ 4 * m)
    rw [hlow, hvalue]
    calc ((4 * m - below : Nat) : ℚ) * 2 ^ e / 4 + 10 ^ (decimalExponent _ _ - ((17 : Nat) : Int))
        < ((4 * m - below : Nat) : ℚ) * 2 ^ e / 4 + 2 ^ e / 4 := add_lt_add_right hstep _
      _ = (((4 * m - below : Nat) : ℚ) + 1) * 2 ^ e / 4 := by ring
      _ ≤ ((4 * m : Nat) : ℚ) * 2 ^ e / 4 := by gcongr

/-- The shortest decimal differs from the value by half a unit at most. -/
theorem shortest_bounds (tie : Tie) (hm : 0 < m) (hlt : m < 2 ^ 53) (e : Int) :
    Binary64.magnitude m e - 2 ^ e / 2 ≤ (shortest tie m e).value ∧
      (shortest tie m e).value ≤ Binary64.magnitude m e + 2 ^ e / 2 := by
  obtain ⟨below, hbelow, hwithin⟩ := shortest_isWithin tie hm hlt e
  have hlow := hwithin.low_le
  have hhigh := hwithin.le_high
  rw [shiftLeft_div_one_shiftLeft] at hlow hhigh
  have hunit : (0 : ℚ) < 2 ^ e := by positivity
  constructor
  · have hless : (4 * m : ℚ) - 2 ≤ (4 * m - below : Nat) := by
      have hnat : 4 * m ≤ 4 * m - below + 2 := by omega
      have hcast : ((4 * m : Nat) : ℚ) ≤ (4 * m - below : Nat) + 2 := by exact_mod_cast hnat
      push_cast at hcast ⊢
      linarith
    calc Binary64.magnitude m e - 2 ^ e / 2 = ((4 * m : ℚ) - 2) * 2 ^ e / 4 := by
          rw [Binary64.magnitude]
          ring
      _ ≤ ((4 * m - below : Nat) : ℚ) * 2 ^ e / 4 := by gcongr
      _ ≤ (shortest tie m e).value := hlow
  · calc (shortest tie m e).value ≤ ((4 * m + 2 : Nat) : ℚ) * 2 ^ e / 4 := hhigh
      _ = Binary64.magnitude m e + 2 ^ e / 2 := by
          rw [Binary64.magnitude]
          push_cast
          ring

/-- The digits of a great value go up to the point, and beyond it. -/
theorem exponent_shortest_pos (tie : Tie) (hlt : m < 2 ^ 53)
    (h : (10 : ℚ) ^ 18 ≤ Binary64.magnitude m e) : 0 < (shortest tie m e).exponent := by
  have hm : 0 < m := by
    rcases m.eq_zero_or_pos with rfl | hpos
    · norm_num [Binary64.magnitude] at h
    · exact hpos
  obtain ⟨below, -, hwithin⟩ := shortest_isWithin tie hm hlt e
  have hden : 0 < 1 <<< (2 - e).toNat := Nat.shiftLeft_pos_iff.mpr one_pos
  have hvalue : (((4 * m) <<< (e - 2).toNat : Nat) : ℚ) / (1 <<< (2 - e).toNat : Nat)
      = Binary64.magnitude m e := by
    rw [shiftLeft_div_one_shiftLeft, Binary64.magnitude]
    push_cast
    ring
  have hmany : 10 ^ 18 * 1 <<< (2 - e).toNat ≤ (4 * m) <<< (e - 2).toNat := by
    have hdenq : (0 : ℚ) < (1 <<< (2 - e).toNat : Nat) := by exact_mod_cast hden
    rw [← hvalue, le_div_iff₀ hdenq] at h
    exact_mod_cast h
  have hgrid := le_decimalExponent hden hmany
  have hfinest := hwithin.le_exponent
  omega

end Interval

/-! ## Texts of decimals -/

namespace Decimal

/-- In full a decimal is a row of digits, or two rows with a point between them. -/
theorem positionalText_cases (d : Decimal) :
    (0 ≤ d.exponent ∧ (∀ c ∈ d.positionalText, c.isDigit = true) ∧ d.positionalText ≠ [] ∧
      (Nat.ofDigitChars 10 d.positionalText 0 : ℚ) = d.value) ∨
    (d.exponent < 0 ∧ ∃ whole fraction, whole ≠ [] ∧ (∀ c ∈ whole, c.isDigit = true) ∧
      (∀ c ∈ fraction, c.isDigit = true) ∧ d.positionalText = whole ++ '.' :: fraction) := by
  have hdigits : ∀ c ∈ naturalText d.digits, c.isDigit = true := fun _ => isDigit_of_mem_naturalText
  have hzeros (n : Nat) : ∀ c ∈ List.replicate n '0', c.isDigit = true := fun c hc =>
    List.eq_of_mem_replicate hc ▸ rfl
  unfold positionalText
  dsimp only
  by_cases hexponent : 0 ≤ d.exponent
  · rw [if_pos hexponent]
    refine .inl ⟨hexponent, List.forall_mem_append.mpr ⟨hdigits, hzeros _⟩, ?_, ?_⟩
    · simp [naturalText_ne_nil]
    · have hpow : (10 : ℚ) ^ d.exponent = 10 ^ d.exponent.toNat := by
        rw [← zpow_natCast, Int.toNat_of_nonneg hexponent]
      rw [Nat.ofDigitChars_append, Nat.ofDigitChars_replicate_zero, naturalText,
        Nat.ofDigitChars_ten_toDigits, value, hpow, mul_comm]
      push_cast
      rfl
  · rw [if_neg hexponent]
    refine .inr ⟨not_le.mp hexponent, ?_⟩
    -- The point stands among the digits, or before all of them and some zeros.
    split
    · rename_i hplaces
      refine ⟨_, _, ?_, fun c hc => hdigits c (List.mem_of_mem_take hc),
        fun c hc => hdigits c (List.mem_of_mem_drop hc), rfl⟩
      refine List.length_pos_iff.mp ?_
      rw [List.length_take]
      omega
    · refine ⟨['0'], List.replicate _ '0' ++ naturalText d.digits, by simp, by simp,
        List.forall_mem_append.mpr ⟨hzeros _, hdigits⟩, rfl⟩

end Decimal

/-! ## Words of 64 bits -/

namespace Binary64

variable {m : Nat} {e : Int}

theorem magnitude_of_integral? {n : Nat} (h : integral? m e = some n) : magnitude m e = n := by
  unfold integral? at h
  split at h
  · rename_i hexponent
    obtain rfl := Option.some.inj h
    rw [magnitude, Nat.shiftLeft_eq, ← Int.toNat_of_nonneg hexponent, zpow_natCast]
    push_cast
    rfl
  · rename_i hexponent
    -- The unit is a part of 1, and the significand a multiple of the units in 1.
    simp only [Option.ite_none_right_eq_some, beq_iff_eq, Option.some.injEq, Nat.shiftLeft_eq,
      one_mul, Nat.shiftRight_eq_div_pow] at h
    obtain ⟨hdivides, rfl⟩ := h
    have hpow : (2 : ℚ) ^ e = (2 ^ (-e).toNat)⁻¹ := by
      rw [← zpow_natCast, ← zpow_neg, Int.toNat_of_nonneg (by omega), neg_neg]
    have hwhole : (m : ℚ) = (m / 2 ^ (-e).toNat : Nat) * 2 ^ (-e).toNat := by
      exact_mod_cast (Nat.div_mul_cancel (Nat.dvd_of_mod_eq_zero hdivides)).symm
    rw [magnitude, hpow, hwhole, mul_inv_cancel_right₀ (by positivity)]

variable {negative : Bool}

private theorem two_pow_le_magnitude (he : 10 < e) (hm : leastFull ≤ m) : 2 ^ 63 ≤ magnitude m e := by
  have hmq : (2 : ℚ) ^ 52 ≤ m := by exact_mod_cast hm
  have hunit : (2 : ℚ) ^ (11 : Int) ≤ 2 ^ e := zpow_le_zpow_right₀ one_le_two he
  calc (2 : ℚ) ^ 63 = (2 : ℚ) ^ 52 * (2 : ℚ) ^ (11 : Int) := by norm_num
    _ ≤ (m : ℚ) * 2 ^ e := by gcongr

theorem lt_of_two_pow_le_magnitude (hlt : m < 2 * leastFull) (h : 2 ^ 63 ≤ magnitude m e) :
    10 < e := by
  by_contra hsmall
  have hm : (m : ℚ) < 2 ^ 53 := by exact_mod_cast hlt
  have hunit : (2 : ℚ) ^ e ≤ 2 ^ (10 : Int) := zpow_le_zpow_right₀ one_le_two (not_lt.mp hsmall)
  have hless : magnitude m e < 2 ^ 63 :=
    calc (m : ℚ) * 2 ^ e ≤ m * 2 ^ (10 : Int) := by gcongr
      _ < (2 : ℚ) ^ 53 * (2 : ℚ) ^ (10 : Int) := by gcongr
      _ = 2 ^ 63 := by norm_num
  exact h.not_gt hless

/-- Half a unit above a value below `2 ^ 63` is still below. -/
theorem magnitude_add_lt (h : IsProper (.finite negative m e)) (hless : magnitude m e < 2 ^ 63) :
    magnitude m e + 2 ^ e / 2 < 2 ^ 63 := by
  obtain ⟨hlt, hfull⟩ := h
  rcases le_or_gt e 10 with hsmall | hgreat
  · have hm : (m : ℚ) + 1 ≤ 2 ^ 53 := by exact_mod_cast hlt
    have hunit : (2 : ℚ) ^ e ≤ 2 ^ (10 : Int) := zpow_le_zpow_right₀ one_le_two hsmall
    calc magnitude m e + 2 ^ e / 2 = ((m : ℚ) + 1 / 2) * 2 ^ e := by
          rw [magnitude]
          ring
      _ ≤ ((m : ℚ) + 1 / 2) * 2 ^ (10 : Int) := by gcongr
      _ < 2 ^ 53 * 2 ^ (10 : Int) := by gcongr; linarith
      _ = 2 ^ 63 := by norm_num
  · -- A full significand with a greater exponent is not below the bound.
    refine absurd hless (not_lt.mpr (two_pow_le_magnitude hgreat ?_))
    exact hfull (by unfold leastExponent; omega)

/-- No value from `2 ^ 63` on has a shortest decimal below it. -/
theorem lt_value_shortest (h : IsProper (.finite negative m e)) (hvast : 2 ^ 63 ≤ magnitude m e) :
    2 ^ 63 < (shortest .up m e).value := by
  obtain ⟨hlt, hfull⟩ := h
  have hgreat : 10 < e := lt_of_two_pow_le_magnitude hlt hvast
  have hleast : leastFull ≤ m := hfull (by unfold leastExponent; omega)
  by_cases hbound : m = leastFull ∧ e = 11
  · -- The decimal of `2 ^ 63` itself.
    obtain ⟨rfl, rfl⟩ := hbound
    have hdecimal : shortest .up leastFull 11 = ⟨9223372036854776, 3⟩ := by decide +kernel
    rw [hdecimal, Decimal.value]
    norm_num
  · have hpos : 0 < m := (by decide : 0 < leastFull).trans_le hleast
    refine lt_of_lt_of_le ?_ (shortest_bounds .up hpos hlt e).1
    have hhalf : magnitude m e - 2 ^ e / 2 = ((m : ℚ) - 1 / 2) * 2 ^ e := by
      rw [magnitude]
      ring
    rw [hhalf]
    -- From the exponent 12 on any full significand is far above the bound, at 11 all but the least one.
    rcases (Int.add_one_le_iff.mpr hgreat).lt_or_eq with hgreater | rfl
    · have hm : (2 : ℚ) ^ 52 ≤ m := by exact_mod_cast hleast
      have hunit : (2 : ℚ) ^ (12 : Int) ≤ 2 ^ e := zpow_le_zpow_right₀ one_le_two hgreater
      calc (2 : ℚ) ^ 63 < ((2 : ℚ) ^ 52 - 1 / 2) * (2 : ℚ) ^ (12 : Int) := by norm_num
        _ ≤ ((m : ℚ) - 1 / 2) * 2 ^ e := by gcongr; linarith
    · have hm : (2 : ℚ) ^ 52 + 1 ≤ m := by
        have hlt' : leastFull < m := lt_of_le_of_ne hleast fun heq => hbound ⟨heq.symm, rfl⟩
        exact_mod_cast hlt'
      calc (2 : ℚ) ^ 63 < ((2 : ℚ) ^ 52 + 1 - 1 / 2) * (2 : ℚ) ^ (10 + 1 : Int) := by norm_num
        _ ≤ ((m : ℚ) - 1 / 2) * 2 ^ (10 + 1 : Int) := by gcongr

end Binary64

end Roster.Number
