import Roster.Number.Literal
import Roster.Proofs.Number.Digits
import Roster.Proofs.Text.Trimming

/-!
# The characters of a number

What a text must look like to denote a number.

- It has **at most one point** (`count_point_of_binary64?`), the one between two rows of digits.
- It **begins** with a sign, a point, a digit or a letter (`int64?_eq_none`, `binary64?_eq_none`).
- With a point it denotes **a number**: `nan` is the datum of its name only
  (`binary64?_ne_nan_of_point`), and no rounding gives it (`Binary64.ofFraction_ne_nan`).
- **Digits, a point and digits** are a decimal (`exists_binary64?_point`); digits that go on with a dash
  are no number (`binary64?_dash`, `int64?_dash`).
-/

namespace Roster.Number

open Text

variable {c : Char} {cs : List Char}

/-! ## Whole numbers -/

theorem isDigit_of_natural? {n : Nat} (h : natural? cs = some n) : ∀ c ∈ cs, c.isDigit = true := by
  unfold natural? at h
  split at h
  · cases h
  · rename_i hnone
    simp only [Bool.or_eq_true, Bool.not_eq_true', not_or, Bool.not_eq_false] at hnone
    exact List.all_eq_true.mp hnone.2

/-- A sign may stand before the digits. -/
theorem digits_of_integer? {n : Int} (h : integer? cs = some n) :
    ∃ sign ds, cs = sign ++ ds ∧ (∀ c ∈ sign, c ∈ ['+', '-']) ∧ ∀ c ∈ ds, c.isDigit = true := by
  unfold integer? at h
  split at h
  · rename_i ds
    obtain ⟨_, hds, -⟩ := Option.map_eq_some_iff.mp h
    exact ⟨['-'], ds, rfl, by simp, isDigit_of_natural? hds⟩
  · rename_i ds
    obtain ⟨_, hds, -⟩ := Option.map_eq_some_iff.mp h
    exact ⟨['+'], ds, rfl, by simp, isDigit_of_natural? hds⟩
  · obtain ⟨_, hds, -⟩ := Option.map_eq_some_iff.mp h
    exact ⟨[], cs, rfl, by simp, isDigit_of_natural? hds⟩

/-- An integer is written with digits, and with a minus sign if it is negative. -/
theorem isDigit_of_mem_integerText {n : Int} (h : c ∈ integerText n) :
    c = '-' ∨ c.isDigit = true := by
  unfold integerText at h
  split at h
  · exact (List.mem_cons.mp h).imp_right isDigit_of_mem_naturalText
  · exact .inr (isDigit_of_mem_naturalText h)

/-- A character of another kind stands in no written integer. -/
theorem notMem_integerText (hc : (c == '-' || c.isDigit) = false) (n : Int) : c ∉ integerText n := by
  intro h
  rcases isDigit_of_mem_integerText h with rfl | hdigit
  · cases hc
  · rw [hdigit, Bool.or_true] at hc
    cases hc

theorem isBlank_of_isDigit (h : c.isDigit = true) : isBlank c = false := by
  have hc : 48 ≤ c.toNat ∧ c.toNat ≤ 57 := Char.isDigit_iff_toNat.mp h
  unfold isBlank
  generalize c.toNat = n at hc ⊢
  simp only [Bool.or_eq_false_iff, Bool.and_eq_false_iff, beq_eq_false_iff_ne,
    decide_eq_false_iff_not]
  omega

theorem trim_integerText (n : Int) : trim (integerText n) = integerText n := by
  refine trim_eq_self_of_forall fun c hc => ?_
  rcases isDigit_of_mem_integerText hc with rfl | hdigit
  · rfl
  · exact isBlank_of_isDigit hdigit

theorem count_point_of_digits {ds : List Char} (h : ∀ c ∈ ds, c.isDigit = true) :
    ds.count '.' = 0 :=
  List.count_eq_zero_of_not_mem fun hmem => absurd (h '.' hmem) (by decide)

theorem count_point_of_integer? {n : Int} (h : integer? cs = some n) : cs.count '.' = 0 := by
  obtain ⟨sign, ds, rfl, hsign, hds⟩ := digits_of_integer? h
  have hpoint : '.' ∉ sign := fun hmem => absurd (hsign '.' hmem) (by decide)
  rw [List.count_append, List.count_eq_zero_of_not_mem hpoint, count_point_of_digits hds]

/-! ## Decimals -/

private theorem count_point_of_exponentPart? {e : Int} (h : exponentPart? cs = some e) :
    cs.count '.' = 0 := by
  unfold exponentPart? at h
  split at h
  · rfl
  · simp only [Option.ite_none_right_eq_some] at h
    obtain ⟨hmark, h⟩ := h
    rw [List.count_cons_of_ne (by rintro rfl; exact absurd hmark (by decide)),
      count_point_of_integer? h]

/-- The point is between the whole part and the fraction. -/
private theorem count_point_of_unsignedLiteral? {negative : Bool} {v : Binary64}
    (h : unsignedLiteral? negative cs = some v) : cs.count '.' ≤ 1 := by
  have hdigit : Char.isDigit '.' = false := by decide
  rw [← count_dropWhile hdigit]
  unfold unsignedLiteral? at h
  dsimp only at h
  -- The digits before the point have none, so only the rest counts.
  generalize cs.dropWhile Char.isDigit = rest at h ⊢
  split at h
  · split at h
    · cases h
    · obtain ⟨_, hexponent, -⟩ := Option.map_eq_some_iff.mp h
      have hcount := count_point_of_exponentPart? hexponent
      rw [count_dropWhile hdigit] at hcount
      rw [List.count_cons_self]
      omega
  · split at h
    · cases h
    · obtain ⟨_, hexponent, -⟩ := Option.map_eq_some_iff.mp h
      rw [count_point_of_exponentPart? hexponent]
      exact Nat.zero_le 1

/-- A name has letters only. -/
private theorem toLower_mem_of_isName {name : String} (h : isName name cs = true) (hc : c ∈ cs) :
    c.toLower ∈ name.toList := by
  rw [isName, beq_iff_eq] at h
  exact h ▸ List.mem_map_of_mem hc

theorem count_point_of_unsignedBinary64? {negative : Bool} {v : Binary64}
    (h : unsignedBinary64? negative cs = some v) : cs.count '.' ≤ 1 := by
  have hname {name : String} (hpoint : '.' ∉ name.toList) (hcs : isName name cs = true) :
      cs.count '.' ≤ 1 := by
    have hnone : '.' ∉ cs := fun hmem => hpoint (toLower_mem_of_isName hcs hmem)
    rw [List.count_eq_zero_of_not_mem hnone]
    exact Nat.zero_le 1
  unfold unsignedBinary64? at h
  split at h
  · rename_i hnan
    exact hname (by decide) hnan
  · split at h
    · rename_i hinf
      rcases Bool.or_eq_true_iff.mp hinf with hinf | hinf
      · exact hname (by decide) hinf
      · exact hname (by decide) hinf
    · exact count_point_of_unsignedLiteral? h

/-- A number has at most one point. -/
theorem count_point_of_binary64? {v : Binary64} (h : binary64? cs = some v) :
    cs.count '.' ≤ 1 := by
  unfold binary64? at h
  split at h
  · rw [List.count_cons_of_ne (by decide)]
    exact count_point_of_unsignedBinary64? h
  · rw [List.count_cons_of_ne (by decide)]
    exact count_point_of_unsignedBinary64? h
  · exact count_point_of_unsignedBinary64? h

/-! ## What is no number -/

/-- A number begins with a sign, a point, a digit or the first letter of a name. -/
theorem binary64?_eq_none (hdigit : c.isDigit = false) (hmark : c ∉ ['+', '-', '.'])
    (hname : c.toLower ∉ ['n', 'i']) (cs : List Char) : binary64? (c :: cs) = none := by
  simp only [List.mem_cons, List.not_mem_nil, or_false, not_or] at hmark hname
  obtain ⟨hplus, hminus, hpoint⟩ := hmark
  have hsign : binary64? (c :: cs) = unsignedBinary64? false (c :: cs) := by
    unfold binary64?
    split <;> simp_all
  have hliteral : unsignedLiteral? false (c :: cs) = none := by
    simp [unsignedLiteral?, List.takeWhile, List.dropWhile, hdigit, hpoint]
  rw [hsign, unsignedBinary64?, hliteral]
  simp [isName, hname]

theorem int64?_eq_none (hdigit : c.isDigit = false) (hmark : c ∉ ['+', '-']) (cs : List Char) :
    int64? (c :: cs) = none := by
  simp only [List.mem_cons, List.not_mem_nil, or_false, not_or] at hmark
  obtain ⟨hplus, hminus⟩ := hmark
  have hsign : integer? (c :: cs) = (natural? (c :: cs)).map Int.ofNat := by
    unfold integer?
    split <;> simp_all
  simp [int64?, integerIn?, hsign, natural?, hdigit]

/-! ## The datum that is no number -/

namespace Binary64

theorem ofFraction_ne_nan (negative : Bool) (num den : Nat) : ofFraction negative num den ≠ .nan := by
  have hpack (m : Nat) (e : Int) : ofFraction.pack negative m e ≠ .nan := by
    unfold ofFraction.pack
    split <;> simp
  unfold ofFraction
  split
  · simp [zero]
  · dsimp only
    split <;> exact hpack _ _

theorem ofInt_ne_nan (n : Int) : ofInt n ≠ .nan :=
  ofFraction_ne_nan _ _ _

theorem ofDecimal_ne_nan (negative : Bool) (m : Nat) (e : Int) : ofDecimal negative m e ≠ .nan := by
  unfold ofDecimal
  split
  · simp [zero]
  · dsimp only
    split
    · simp
    · split
      · simp [zero]
      · exact ofFraction_ne_nan _ _ _

end Binary64

/-- A literal is rounded from a decimal. -/
theorem exists_ofDecimal_of_unsignedLiteral? {negative : Bool} {cs : List Char} {v : Binary64}
    (h : unsignedLiteral? negative cs = some v) : ∃ m e, v = .ofDecimal negative m e := by
  have hmap {exponent : Option Int} {m : Nat} {k : Int}
      (h : exponent.map (fun e => Binary64.ofDecimal negative m (e - k)) = some v) :
      ∃ m e, v = .ofDecimal negative m e := by
    obtain ⟨e, -, rfl⟩ := Option.map_eq_some_iff.mp h
    exact ⟨_, _, rfl⟩
  unfold unsignedLiteral? at h
  dsimp only at h
  split at h <;> split at h <;> first | exact hmap h | cases h

private theorem unsignedLiteral?_ne_nan (negative : Bool) (cs : List Char) :
    unsignedLiteral? negative cs ≠ some .nan := by
  intro h
  obtain ⟨m, e, hnan⟩ := exists_ofDecimal_of_unsignedLiteral? h
  exact Binary64.ofDecimal_ne_nan _ _ _ hnan.symm

/-- Only the name itself denotes the datum that is no number, and a name has no point. -/
theorem unsignedBinary64?_ne_nan_of_point (negative : Bool) (h : '.' ∈ cs) :
    unsignedBinary64? negative cs ≠ some .nan := by
  have hname : isName "nan" cs = false := Bool.eq_false_iff.mpr fun hnan =>
    absurd (toLower_mem_of_isName hnan h) (by decide)
  rw [unsignedBinary64?, hname, if_neg Bool.false_ne_true]
  split
  · simp
  · exact unsignedLiteral?_ne_nan negative cs

theorem binary64?_ne_nan_of_point (h : '.' ∈ cs) : binary64? cs ≠ some .nan := by
  unfold binary64?
  split
  · exact unsignedBinary64?_ne_nan_of_point true (by simpa using h)
  · exact unsignedBinary64?_ne_nan_of_point false (by simpa using h)
  · exact unsignedBinary64?_ne_nan_of_point false h

/-! ## Digits before a point or a dash -/

variable {whole fraction rest : List Char}

private theorem toLower_of_isDigit {c : Char} (h : c.isDigit = true) : c.toLower = c := by
  have hc : 48 ≤ c.toNat ∧ c.toNat ≤ 57 := Char.isDigit_iff_toNat.mp h
  unfold Char.toLower
  split
  · rename_i hupper
    have hle : 65 ≤ c.toNat := UInt32.le_iff_toNat_le.mp hupper.1
    omega
  · rfl

/-- What begins with a digit is no name. -/
theorem unsignedBinary64?_of_digits {negative : Bool} (hne : whole ≠ [])
    (hwhole : ∀ c ∈ whole, c.isDigit = true) (rest : List Char) :
    unsignedBinary64? negative (whole ++ rest) = unsignedLiteral? negative (whole ++ rest) := by
  obtain ⟨c, cs, rfl⟩ := List.exists_cons_of_ne_nil hne
  have hc : c.isDigit = true := hwhole c List.mem_cons_self
  have hname (name : String) (h : name.toList.any Char.isDigit = false) :
      isName name (c :: cs ++ rest) = false := by
    refine Bool.eq_false_iff.mpr fun hname => ?_
    have hmem := toLower_mem_of_isName hname List.mem_cons_self
    rw [toLower_of_isDigit hc] at hmem
    exact List.any_eq_false.mp h c hmem hc
  rw [unsignedBinary64?, hname "nan" (by decide), hname "inf" (by decide),
    hname "infinity" (by decide)]
  rfl

theorem binary64?_of_digits (hne : whole ≠ []) (hwhole : ∀ c ∈ whole, c.isDigit = true)
    (rest : List Char) : binary64? (whole ++ rest) = unsignedLiteral? false (whole ++ rest) := by
  rw [← unsignedBinary64?_of_digits hne hwhole]
  obtain ⟨c, cs, rfl⟩ := List.exists_cons_of_ne_nil hne
  have hc : c.isDigit = true := hwhole c List.mem_cons_self
  rw [List.cons_append]
  unfold binary64?
  split
  · rename_i heq
    obtain ⟨rfl, -⟩ := List.cons.inj heq
    exact absurd hc (by decide)
  · rename_i heq
    obtain ⟨rfl, -⟩ := List.cons.inj heq
    exact absurd hc (by decide)
  · rfl

theorem unsignedLiteral?_point {negative : Bool} (hne : whole ≠ [])
    (hwhole : ∀ c ∈ whole, c.isDigit = true) (hfraction : ∀ c ∈ fraction, c.isDigit = true) :
    unsignedLiteral? negative (whole ++ '.' :: fraction)
      = some (.ofDecimal negative (Nat.ofDigitChars 10 (whole ++ fraction) 0) (-fraction.length)) := by
  have hpoint : ∀ c ∈ ('.' :: fraction).head?, c.isDigit = false := by simp
  have hend : ∀ c ∈ ([] : List Char).head?, c.isDigit = false := by simp
  have htake := takeWhile_digits_append hwhole hpoint
  have hdrop := dropWhile_digits_append hwhole hpoint
  have htake' := takeWhile_digits_append hfraction hend
  have hdrop' := dropWhile_digits_append hfraction hend
  rw [List.append_nil] at htake' hdrop'
  simp [unsignedLiteral?, htake, hdrop, htake', hdrop', hne, exponentPart?]

/-- Digits, a point and digits are a decimal, with a minus sign or without. -/
theorem exists_binary64?_point (negative : Bool) (hne : whole ≠ [])
    (hwhole : ∀ c ∈ whole, c.isDigit = true) (hfraction : ∀ c ∈ fraction, c.isDigit = true) :
    ∃ v, binary64? ((if negative then ['-'] else []) ++ (whole ++ '.' :: fraction)) = some v := by
  cases negative with
  | false => exact ⟨_, (binary64?_of_digits hne hwhole _).trans (unsignedLiteral?_point hne hwhole hfraction)⟩
  | true =>
    exact ⟨_, (unsignedBinary64?_of_digits hne hwhole _).trans (unsignedLiteral?_point hne hwhole hfraction)⟩

/-- Digits that go on with a dash are no number. -/
theorem binary64?_dash (hne : whole ≠ []) (hwhole : ∀ c ∈ whole, c.isDigit = true)
    (rest : List Char) : binary64? (whole ++ '-' :: rest) = none := by
  have hdash : ∀ c ∈ ('-' :: rest).head?, c.isDigit = false := by simp
  have htake := takeWhile_digits_append hwhole hdash
  have hdrop := dropWhile_digits_append hwhole hdash
  rw [binary64?_of_digits hne hwhole]
  simp [unsignedLiteral?, htake, hdrop, hne, exponentPart?]

theorem int64?_dash (hne : whole ≠ []) (hwhole : ∀ c ∈ whole, c.isDigit = true)
    (rest : List Char) : int64? (whole ++ '-' :: rest) = none := by
  refine Option.eq_none_iff_forall_ne_some.mpr fun n hn => ?_
  obtain ⟨_, hin, -⟩ := Option.map_eq_some_iff.mp hn
  have hread := (Option.filter_eq_some_iff.mp hin).1
  obtain ⟨c, cs, rfl⟩ := List.exists_cons_of_ne_nil hne
  have hc : c.isDigit = true := hwhole c List.mem_cons_self
  rw [List.cons_append] at hread
  unfold integer? at hread
  split at hread
  · rename_i heq
    obtain ⟨rfl, -⟩ := List.cons.inj heq
    exact absurd hc (by decide)
  · rename_i heq
    obtain ⟨rfl, -⟩ := List.cons.inj heq
    exact absurd hc (by decide)
  · obtain ⟨_, hnatural, -⟩ := Option.map_eq_some_iff.mp hread
    exact absurd (isDigit_of_natural? hnatural '-' (by simp)) (by decide)

end Roster.Number
