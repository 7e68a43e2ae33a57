import Mathlib.Algebra.Ring.Nat
import Roster.Number.Whole

/-!
# Rows of digits

The number that a row of ASCII digits denotes, most significant digit first: that of two rows after
another (`ofDigitChars_append_zero`), its bounds (`ofDigitChars_lt`, `ofDigitChars_le_of_infix`), and
how it is read (`natural?_of_digits`, `integer?_of_digits`). Digits that are a part of a written number
denote no more than it (`le_of_infix_naturalText`), and as much only if they are all of it
(`eq_of_infix_naturalText`).
-/

namespace Roster.Number

variable {as bs ds : List Char}

theorem ofDigitChars_append_zero (as bs : List Char) :
    Nat.ofDigitChars 10 (as ++ bs) 0
      = 10 ^ bs.length * Nat.ofDigitChars 10 as 0 + Nat.ofDigitChars 10 bs 0 := by
  rw [Nat.ofDigitChars_append, Nat.ofDigitChars_eq_ofDigitChars_zero]

theorem ofDigitChars_lt (h : ∀ c ∈ ds, c.isDigit = true) :
    Nat.ofDigitChars 10 ds 0 < 10 ^ ds.length := by
  induction ds with
  | nil => simp
  | cons d ds ih =>
    obtain ⟨hd, hds⟩ := List.forall_mem_cons.mp h
    have hdigit : 48 ≤ d.toNat ∧ d.toNat ≤ 57 := Char.isDigit_iff_toNat.mp hd
    -- The first digit is at most 9, and the rest is less than one more of its places.
    have hfirst : 10 ^ ds.length * (d.toNat - 48) ≤ 10 ^ ds.length * 9 :=
      Nat.mul_le_mul_left _ (by omega)
    have hrest := ih hds
    have hvalue : Nat.ofDigitChars 10 (d :: ds) 0
        = 10 ^ ds.length * (d.toNat - 48) + Nat.ofDigitChars 10 ds 0 := by
      rw [Nat.ofDigitChars_cons, Nat.ofDigitChars_eq_ofDigitChars_zero]
      simp
    rw [hvalue, List.length_cons, Nat.pow_succ]
    omega

/-- A part of a row of digits denotes no more than the row. -/
theorem ofDigitChars_le_of_infix (h : ds <:+: bs) :
    Nat.ofDigitChars 10 ds 0 ≤ Nat.ofDigitChars 10 bs 0 := by
  obtain ⟨before, after, rfl⟩ := h
  have hpos : 0 < 10 ^ after.length := Nat.pow_pos (by decide)
  rw [ofDigitChars_append_zero, ofDigitChars_append_zero]
  calc Nat.ofDigitChars 10 ds 0
      ≤ 10 ^ ds.length * Nat.ofDigitChars 10 before 0 + Nat.ofDigitChars 10 ds 0 :=
        Nat.le_add_left _ _
    _ ≤ 10 ^ after.length * (10 ^ ds.length * Nat.ofDigitChars 10 before 0
          + Nat.ofDigitChars 10 ds 0) := Nat.le_mul_of_pos_left _ hpos
    _ ≤ _ := Nat.le_add_right _ _

/-! ## Reading them -/

/-- A row of digits ends before a text that does not go on with a digit. -/
theorem takeWhile_digits_append (h : ∀ c ∈ ds, c.isDigit = true)
    (hrest : ∀ c ∈ bs.head?, c.isDigit = false) : (ds ++ bs).takeWhile Char.isDigit = ds := by
  rw [List.takeWhile_append_of_pos h]
  cases bs with
  | nil => simp
  | cons c bs => simp [hrest c rfl]

theorem dropWhile_digits_append (h : ∀ c ∈ ds, c.isDigit = true)
    (hrest : ∀ c ∈ bs.head?, c.isDigit = false) : (ds ++ bs).dropWhile Char.isDigit = bs := by
  rw [List.dropWhile_append_of_pos h]
  cases bs with
  | nil => rfl
  | cons c bs => simp [hrest c rfl]

theorem natural?_of_digits (hne : ds ≠ []) (h : ∀ c ∈ ds, c.isDigit = true) :
    natural? ds = some (Nat.ofDigitChars 10 ds 0) := by
  have hall : ds.all Char.isDigit = true := List.all_eq_true.mpr h
  rw [natural?, List.isEmpty_eq_false_iff.mpr hne, hall]
  rfl

/-- Digits without a sign are read as what they are. -/
theorem integer?_of_digits (h : ∀ c ∈ ds, c.isDigit = true) :
    integer? ds = (natural? ds).map Int.ofNat := by
  unfold integer?
  split
  · exact absurd (h '-' List.mem_cons_self) (by decide)
  · exact absurd (h '+' List.mem_cons_self) (by decide)
  · rfl

/-! ## Rows of a given width -/

variable {n width : Nat}

theorem isDigit_of_mem_padded {c : Char} (h : c ∈ padded width n) : c.isDigit = true := by
  rcases List.mem_append.mp h with hzero | hdigit
  · rw [List.eq_of_mem_replicate hzero]
    rfl
  · exact isDigit_of_mem_naturalText hdigit

theorem length_padded (hwidth : 0 < width) (h : n < 10 ^ width) :
    (padded width n).length = width := by
  have hle : (naturalText n).length ≤ width := (Nat.length_toDigits_le_iff (by decide) hwidth).mpr h
  rw [padded, List.length_append, List.length_replicate]
  omega

theorem ofDigitChars_padded (width n : Nat) : Nat.ofDigitChars 10 (padded width n) 0 = n := by
  rw [padded, Nat.ofDigitChars_append, Nat.ofDigitChars_replicate_zero, Nat.mul_zero]
  exact Nat.ofDigitChars_ten_toDigits

/-! ## Parts of written numbers -/

theorem le_of_infix_naturalText (h : ds <:+: naturalText n) : Nat.ofDigitChars 10 ds 0 ≤ n :=
  calc Nat.ofDigitChars 10 ds 0
      ≤ Nat.ofDigitChars 10 (naturalText n) 0 := ofDigitChars_le_of_infix h
    _ = n := Nat.ofDigitChars_ten_toDigits

/-- A shorter part would denote less. -/
theorem eq_of_infix_naturalText (hne : ds ≠ []) (h : ds <:+: naturalText n)
    (hle : n ≤ Nat.ofDigitChars 10 ds 0) : ds = naturalText n := by
  have hdigits : ∀ c ∈ ds, c.isDigit = true := fun c hc => isDigit_of_mem_naturalText (h.subset hc)
  have hlength : (naturalText n).length ≤ ds.length :=
    (Nat.length_toDigits_le_iff (by decide) (List.length_pos_iff.mpr hne)).mpr
      (Nat.lt_of_le_of_lt hle (ofDigitChars_lt hdigits))
  exact h.eq_of_length_le hlength

/-- The sign is no digit. -/
theorem infix_naturalText_of_digits {n : Int} (hne : ds ≠ []) (hdigits : ∀ c ∈ ds, c.isDigit = true)
    (h : ds <:+: integerText n) : ds <:+: naturalText n.natAbs := by
  unfold integerText at h
  split at h
  · rcases List.infix_cons_iff.mp h with hstart | hrest
    · cases ds with
      | nil => exact absurd rfl hne
      | cons d ds =>
        obtain ⟨rfl, -⟩ := List.cons_prefix_cons.mp hstart
        exact absurd (hdigits '-' List.mem_cons_self) (by decide)
    · exact hrest
  · exact h

end Roster.Number
